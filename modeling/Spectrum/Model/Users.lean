import Mathlib.Data.List.Infix
import Spectrum.Model.Backends
import Spectrum.Model.Registry

/-!
# Users

`Transport::User` and `Transport::UserManager`: from a presence of the frontend to the
creation of a user, his readiness to connect, the rooms he joins, the presence that is
passed to the backend, and his removal. Stanzas sent back to the XMPP side are left out,
except for the error messages.
-/

namespace Spectrum

open World NetworkPluginServer

/-! ## Names -/

/-- Replace the last occurrence of a character. -/
def replaceLast (a b : Char) (s : String) : String :=
  let r := s.toList.reverse
  if a ∈ r then
    String.ofList (r.takeWhile (· ≠ a) ++ b :: (r.dropWhile (· ≠ a)).tail).reverse
  else s

/-- `Buddy::JIDToLegacyName` without a user. -/
def legacyName (cfg : Config) (j : Jid) : String :=
  if cfg.unescapedNode j.node = j.node then replaceLast '%' '@' j.node
  else cfg.unescapedNode j.node

/-! ## Signals -/

namespace User

/-- The handlers of `NetworkPluginServer` run once for each time they are connected. -/
def onReadyToConnect (u : UserId) (w : World) : World :=
  (handleUserReadyToConnect u)^[(w.user u).slots] w

def onPresenceChanged (u : UserId) (p : Presence) (w : World) : World :=
  (handleUserPresenceChanged u p)^[(w.user u).slots] (w.emit (.presenceChanged u p))

def onRoomJoined (u : UserId) (room nickname password : String) (w : World) : World :=
  (handleRoomJoined u room nickname password)^[(w.user u).slots] w

def onRoomLeft (u : UserId) (room : String) (w : World) : World :=
  (handleRoomLeft u room)^[(w.user u).slots] w

/-! ## Becoming ready -/

def setReady (u : UserId) (w : World) : World :=
  onReadyToConnect u (w.modUser u fun x => { x with readyForConnect := true })

def onConnectingTimeout (u : UserId) (w : World) : World :=
  if (w.user u).connected || (w.user u).readyForConnect then w
  else
    let w := setReady u (w.modUser u fun x => { x with reconnectTimer := false })
    match w.oracle.getHighestPriorityPresence (w.user u).jid.toBare with
    | none => w
    | some highest => onPresenceChanged u highest w

end User

/-- `UserManager::handleDiscoInfo`. -/
def UserManager.handleDiscoInfo (j : Jid) (w : World) : World :=
  match w.users j.toBare with
  | none => w
  | some u => User.onConnectingTimeout u w

/-- `XMPPFrontend::sendCapabilitiesRequest`: known capabilities are announced at once. -/
def sendCapabilitiesRequest (j : Jid) (w : World) : Bool × World :=
  if w.caps j then (true, UserManager.handleDiscoInfo j w) else (false, w)

namespace User

def startTimer (u : UserId) (w : World) : World :=
  w.modUser u fun x => { x with reconnectTimer := true }

/-- The part of `handlePresence` for a user who is not connected. -/
def checkReady (p : Presence) (u : UserId) (w : World) : World :=
  if (w.user u).connected || (w.user u).readyForConnect then w
  else if p.capsHash = some "sha-1" then
    match sendCapabilitiesRequest p.fromJid w with
    | (true, w) => setReady u w
    | (false, w) => startTimer u w
  else if w.cfg.serverMode then setReady u w
  else startTimer u w

/-! ## Rooms -/

def modConvs (u : UserId) (f : Conversations → Conversations) (w : World) : World :=
  w.modUser u fun x => { x with convs := f x.convs }

def leaveRoom (u : UserId) (room : String) (w : World) : World :=
  let w := onRoomLeft u room w
  let w := w.modUser u fun x =>
    { x with joinedRooms := x.joinedRooms.eraseP fun p => legacyName w.cfg p.toJid = room }
  match (w.user u).convs.getConversation room with
  | none => w
  | some (_, conv) => modConvs u (Conversations.removeConversation conv) w

/-- An unavailable presence to a contact or a room. -/
def leaveContact (p : Presence) (u : UserId) (w : World) : World :=
  let room := legacyName w.cfg p.toJid
  match (w.user u).convs.getConversation room with
  | none => w
  | some (key, conv) =>
    let w := modConvs u (Conversations.update key (Conversation.removeJid p.fromJid)) w
    if (conv.removeJid p.fromJid).jids ≠ [] then w
    else if (w.user u).info.stayConnected then w
    else leaveRoom u room w

def newRoom (p : Presence) (room : String) : Conversation where
  legacyName := room
  muc := true
  nickname := p.toJid.resource
  jids := [p.fromJid]
  mucEscaping := decide ("\\40".toList <:+: p.toJid.toString.toList)

/-- An available MUC presence. -/
def joinRoom (p : Presence) (forceJoin : Bool) (u : UserId) (w : World) : World :=
  let w := if (w.user u).readyForConnect then w else setReady u w
  let room := legacyName w.cfg p.toJid
  let password := (p.muc.getD none).getD ""
  match (w.user u).convs.getConversation room with
  | some (key, conv) =>
    let w :=
      if p.fromJid ∈ conv.jids then w
      else modConvs u (Conversations.update key (Conversation.addJid p.fromJid)) w
    if forceJoin then onRoomJoined u room p.toJid.resource password w else w
  | none =>
    let w :=
      if (w.user u).joinedRooms.any fun q => q.toJid = p.toJid then w
      else w.modUser u fun x => { x with joinedRooms := x.joinedRooms ++ [p] }
    if !(w.user u).connected then w
    else
      onRoomJoined u room p.toJid.resource password
        (modConvs u (Conversations.addConversation (newRoom p room)) w)

/-! ## The presence of the user -/

/-- `ConversationManager::removeJID`: the rooms left without participants are left from
the last to the first. -/
def removeJid (j : Jid) (u : UserId) (w : World) : World :=
  let r := Conversations.removeJid j (w.user u).convs
  let w := modConvs u (fun _ => r.1) w
  if (w.user u).info.stayConnected then w
  else r.2.reverse.foldl (fun w room => leaveRoom u room w) w

/-- A user with `stay_connected` keeps his session without any resource. -/
def goOffline (u : UserId) (w : World) : World :=
  w.modUser u fun x =>
    { x with resources := 0, convs := x.convs.clearJids, cacheMessages := true }

def unavailableFrom (j : Jid) (w : World) : Presence where
  fromJid := w.cfg.jid
  toJid := j.toBare
  type := .unavailable

/-- The last part of `handlePresence`. -/
def changeLegacyPresence (u : UserId) (w : World) : World :=
  if !(w.user u).readyForConnect then w
  else
    match w.oracle.getHighestPriorityPresence (w.user u).jid.toBare with
    | some highest =>
      if highest.type = .unavailable ∧ (w.user u).info.stayConnected = true then goOffline u w
      else (onPresenceChanged u highest w).modUser u fun x => { x with cacheMessages := false }
    | none =>
      if (w.user u).info.stayConnected then goOffline u w
      else onPresenceChanged u (unavailableFrom (w.user u).jid w) w

def handleTransportPresence (p : Presence) (u : UserId) (w : World) : World :=
  let count := (w.oracle.getAllPresence (w.user u).jid).length
  let w := if p.type = .unavailable then removeJid p.fromJid u w else w
  changeLegacyPresence u (w.modUser u fun x => { x with resources := count })

def handlePresence (p : Presence) (forceJoin : Bool) (u : UserId) (w : World) : World :=
  let w := checkReady p u w
  if p.toJid.node ≠ "" ∧ p.type = .unavailable then leaveContact p u w
  else if p.toJid.node ≠ "" ∧ p.isMUC = true then joinRoom p forceJoin u w
  else handleTransportPresence p u w

def setConnected (u : UserId) (w : World) : World :=
  let w := w.modUser u fun x =>
    { x with connected := true, reconnectCounter := 0, ignoreDisconnect := false,
             lastActivity := w.now }
  (w.user u).joinedRooms.foldl (fun w p => handlePresence p true u w) w

end User

/-! ## The user manager -/

namespace UserManager

def addUser (j : Jid) (info : UserInfo) (w : World) : World :=
  let u := w.nextUser
  handleUserCreated u
    { w with
      nextUser := u + 1
      users := Function.update w.users j.toBare (some u)
      user := Function.update w.user u
        { jid := j.toBare, info := info, reconnectLimit := w.cfg.reconnectLimit,
          lastActivity := w.now } }

/-- The user information of a JID that has none yet is stored and read back. -/
def register (info : UserInfo) (w : World) : World :=
  match w.storage with
  | none => w
  | some st => { w with storage := some (Function.update st info.jid (some info)) }

def stored (key : Jid) (w : World) : Option UserInfo := w.storage.bind fun st => st key

/-- The registration part of `handlePresence` in server mode. -/
def identifyServer (p : Presence) (w : World) : Option UserInfo × World :=
  let key := p.fromJid.toBare
  match stored key w with
  | some res => (some { res with password := UserRegistry.getUserPassword key w }, w)
  | none =>
    if w.cfg.needRegistration.getD false && w.cfg.needPassword.getD true then
      (none, UserRegistry.onPasswordInvalid p.fromJid "" w)
    else
      let res : UserInfo :=
        { jid := key, uin := p.fromJid.node.map fun c => if c = '%' then '@' else c }
      (some { res with password := UserRegistry.getUserPassword key w }, register res w)

/-- The registration part of `handlePresence` in gateway mode. -/
def identifyGateway (p : Presence) (w : World) : Option UserInfo × World :=
  let key := p.fromJid.toBare
  match stored key w with
  | some res => (some res, w)
  | none =>
    if w.cfg.autoRegister || !w.cfg.needRegistration.getD true then
      let res : UserInfo :=
        { jid := key, uin := if p.isMUC then p.toJid.resource else p.fromJid.toString }
      (some res, register res w)
    else (none, w)

def identify (p : Presence) (w : World) : Option UserInfo × World :=
  if w.cfg.serverMode then identifyServer p w else identifyGateway p w

/-- `service.vip_only` refuses this user. -/
def refuse (p : Presence) (w : World) : World :=
  let w :=
    if w.cfg.vipMessage = "" then w else w.emit (.message p.fromJid w.cfg.vipMessage)
  if w.cfg.serverMode then UserRegistry.onPasswordInvalid p.fromJid "" w else w

/-- The part of `handlePresence` for a JID without a user: the information of the user to
create, if he is allowed. -/
def admission (p : Presence) (w : World) : Option UserInfo × World :=
  if w.cfg.serverMode = true ∧ p.fromJid.toBare ∈ w.cfg.adminJids then (none, w)
  else if p.type = .unavailable ∨ p.type = .probe then (none, w)
  else
    match identify p w with
    | (none, w) => (none, w)
    | (some res, w) =>
      if w.cfg.vipOnly = true ∧ res.vip = false then (none, refuse p w)
      else if w.storage.isSome = true ∧ res.enableTransport = false then (none, w)
      else (some res, w)

def addSlot (slot : RemoveSlot) (w : World) : World :=
  { w with removeSlots := w.removeSlots ++ [slot], removeTimer := true }

/-- The last part of `handlePresence`: an unavailable presence may remove the user. -/
def checkUnavailable (p : Presence) (u : UserId) (w : World) : World :=
  if p.isMUC = true ∨ p.type ≠ .unavailable ∨ (w.user u).info.stayConnected = true then w
  else
    match w.oracle.getHighestPriorityPresence p.fromJid.toBare with
    | none => addSlot ⟨(w.user u).jid.toBare, u, false⟩ w
    | some highest =>
      if highest.type = .unavailable then addSlot ⟨(w.user u).jid.toBare, u, false⟩ w else w

/-- `handlePresence` once there is a user; the pointer is looked up again. -/
def deliver (p : Presence) (w : World) : World :=
  match w.users p.fromJid.toBare with
  | none => UserRegistry.onPasswordInvalid p.fromJid "" w
  | some u => checkUnavailable p u (User.handlePresence p false u w)

def handlePresence (p : Presence) (w : World) : World :=
  match w.users p.fromJid.toBare with
  | some _ => deliver p w
  | none =>
    match admission p w with
    | (none, w) => w
    | (some res, w) => deliver p (addUser p.fromJid res w)

def handleMUCPresence (p : Presence) (w : World) : World :=
  if p.toJid.node = "" then w
  else if p.type = .available then handlePresence p w
  else
    match w.users p.fromJid.toBare with
    | none => w
    | some u => User.handlePresence p false u w

/-- `handleGeneralPresenceReceived`. Subscriptions, probes and errors of contacts are
answered on the XMPP side only. -/
def handleGeneralPresenceReceived (p : Presence) (w : World) : World :=
  if p.type = .available ∨ p.type = .unavailable then handleMUCPresence p w else w

end UserManager

/-! ## Presences of the frontend -/

/-- `Component::handlePresence`. -/
def Component.handlePresence (p : Presence) (w : World) : World :=
  if p.toJid.node ≠ "" ∨ p.fromJid.isValid = false then w
  else
    match p.type with
    | .error | .subscribe | .subscribed | .unsubscribe | .unsubscribed => w
    | .unavailable => UserManager.handlePresence p w
    | .available | .probe =>
      UserManager.handlePresence p (sendCapabilitiesRequest p.fromJid w).2

/-- `onPresenceReceived` of the frontend: the oracle comes first and passes the presence to
`Component`, then `UserManager` sees it. -/
def presenceReceived (p : Presence) (w : World) : World :=
  let r := w.oracle.handleIncomingPresence p
  let w := { w with oracle := r.1 }
  let w :=
    match r.2 with
    | none => w
    | some passed => Component.handlePresence passed w
  UserManager.handleGeneralPresenceReceived p w

/-! ## Removal -/

/-- Finish a session; its end is reported later (`Session.Ending.later`). -/
def finish (s : SessionId) (w : World) : World :=
  { w with
    session := Function.update w.session s
      ((w.session s).map fun x => { x with finishing := true }) }

/-- `ServerStanzaChannel::finishSession`: the sessions of the JID leave the channel. -/
def finishSession (j : Jid) (w : World) : World :=
  let ss := w.channel j.toBare
  ss.foldl (fun w s => finish s w) { w with channel := Function.update w.channel j.toBare [] }

namespace UserManager

def disconnectUser (j : Jid) (w : World) : World :=
  presenceReceived { fromJid := j, toJid := w.cfg.jid, type := .unavailable } w

/-- `delete user`. -/
def deleteUser (u : UserId) (w : World) : World :=
  let w := if w.cfg.serverMode then finishSession (w.user u).jid w else w
  w.modUser u fun x => { x with reconnectTimer := false, convs := [] }

def removeUser (u : UserId) (w : World) : World :=
  let j := (w.user u).jid
  let w := { w with users := Function.update w.users j.toBare none }
  let w :=
    if w.cfg.serverMode then disconnectUser j w
    else { w with oracle := w.oracle.clearPresences j.toBare }
  deleteUser u (handleUserDestroyed u w)

end UserManager

namespace User

/-- Whether a disconnection is answered by an automatic reconnect. -/
def reconnects (x : User) (e : ConnectionError) : Bool :=
  (e == .otherError || e == .networkError) &&
    decide (x.reconnectLimit < 0 ∨ x.reconnectCounter < x.reconnectLimit)

/-- The simulated destruction and resurrection of `handleDisconnected`. -/
def reconnect (u : UserId) (w : World) : World :=
  let w := w.modUser u fun x => { x with reconnectCounter := x.reconnectCounter + 1 }
  onReadyToConnect u (handleUserCreated u (handleUserDestroyed u w))

/-- The message to the user, and `XMPPUser::disconnectUser`. -/
def reportError (u : UserId) (error : String) (w : World) : World :=
  let w := w.emit (.message (w.user u).jid.toBare error)
  if w.cfg.serverMode then finishSession (w.user u).jid w else w

/-- The end of `handleDisconnected` without a reconnect. -/
def giveUp (u : UserId) (error : String) (w : World) : World :=
  let w := reportError u error w
  if (w.users (w.user u).jid.toBare).isNone then w else UserManager.removeUser u w

def handleDisconnected (u : UserId) (error : String) (e : ConnectionError) (w : World) : World :=
  let w := w.emit (.disconnected u)
  if (w.user u).ignoreDisconnect then w
  else if reconnects (w.user u) e then reconnect u w
  else giveUp u error w

end User

end Spectrum
