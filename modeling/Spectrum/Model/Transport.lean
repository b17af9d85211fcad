import Spectrum.Lib.Machine
import Spectrum.Model.Users

/-!
# The transport as a machine

The end of a backend, the ping sweep, the logins of server mode, and the events that drive
the transport. One event is one callback of the event loop and runs to its end; the clock
stands still during an event.

The connections of the clients are assumed to report the end of a stream through the event loop
(`Session.Ending.later`). It is an event of its own, which can come for every reason and can be the
next one.

A step has no successor when the event cannot happen in the state, and when the code would
use a backend or a session after it was freed.
-/

namespace Spectrum

open World NetworkPluginServer

/-! ## The end of a backend -/

namespace NetworkPluginServer

/-- One round of the loop of `handleSessionFinished` over the users of the backend. -/
def dropUser (w : World) (u : UserId) : World :=
  User.handleDisconnected u "Internal Server Error, please reconnect." .otherError
    (w.setData u none)

/-- `handleSessionFinished`. The loop runs over the users the backend has at its start:
`willDie` keeps new ones away and `setData(NULL)` keeps `handleUserDestroyed` away. -/
def handleSessionFinished (c : BackendId) (w : World) : World :=
  if c ∉ w.clients then { w with fault := true }
  else
    let w := (w.emit (.sessionFinished c)).modBackend c fun b => { b with willDie := true }
    let us := (w.backends c).users
    let w :=
      if us = [] then w
      else { w with crashedBackends := w.crashedBackends ++ [(w.backends c).id] }
    let w := send c .exit (us.foldl dropUser w)
    let w := w.modBackend c fun b => { b with connection := false }
    { w with clients := w.clients.filter fun b => b ≠ c }

/-! ## The ping sweep -/

/-- The loop of `pingTimeout` that checks the PING responses, with the list `toRemove`. -/
def checkBackends : List BackendId → World → List BackendId × World
  | [], w => ([], w)
  | b :: bs, w =>
    -- the field is tested as a truth value, so -1 counts as an answer
    let late := decide ((w.backends b).pongReceived = 0)
    let w := if late then w else sendPing b w
    let idle := decide ((w.backends b).users = [])
    let r := checkBackends bs w
    ((if late then [b] else []) ++ (if idle then [b] else []) ++ r.1, r.2)

/-- `pingTimeout` after the idle users have been moved. -/
def sweep (w : World) : World :=
  let r := checkBackends w.clients { w with startingBackend := false }
  r.1.foldl (fun w b => handleSessionFinished b w) r.2

def pingTimeout (w : World) : World := sweep (moveIdleUsers w)

end NetworkPluginServer

/-! ## Logins of server mode -/

/-- `m_removeTimer->onTick.disconnect`. -/
def UserManager.dropSlot (slot : RemoveSlot) (w : World) : World :=
  { w with removeSlots := w.removeSlots.filter fun x => x ≠ slot }

/-- `UserManager::connectUser`. -/
def UserManager.connectUser (user : Jid) (w : World) : World :=
  match w.users user.toBare with
  | none => presenceReceived { fromJid := user, toJid := w.cfg.jid, type := .available } w
  | some u =>
    if !w.cfg.serverMode then w
    else if (w.user u).connected then
      if UserRegistry.getUserPassword user.toBare w ≠ (w.user u).info.password then
        UserRegistry.removeLater user w
      else if w.cfg.moreResources then UserRegistry.onPasswordValid user w
      else
        UserRegistry.onPasswordValid user
          (w.emit (.message user "You have signed on from another location."))
    else
      -- stop the deletion, then delete the user and create him again
      UserManager.addSlot ⟨user.toBare, u, true⟩
        (UserManager.dropSlot ⟨user.toBare, u, false⟩ w)

/-- The end of `handleUnregisterRemoteRosterResponse`: the user leaves the database. -/
def UserManager.unregister (j : Jid) (w : World) : World :=
  let w := { w with storage := w.storage.map fun st => Function.update st j none }
  match w.users j with
  | none => w
  | some u => UserManager.removeUser u w

/-- `UserManager::handleRemoveTimeout`. -/
def UserManager.handleRemoveTimeout (slot : RemoveSlot) (w : World) : World :=
  let w := UserManager.dropSlot slot w
  if w.users slot.jid ≠ some slot.user then w
  else
    let w := UserManager.removeUser slot.user w
    if slot.reconnect then UserManager.connectUser slot.jid w else w

/-- A tick of `UserManager::m_removeTimer`: the slots that are connected when it starts run
in order, unless an earlier one disconnects them. -/
def UserManager.removeTick (w : World) : World :=
  w.removeSlots.foldl
    (fun w slot => if slot ∈ w.removeSlots then UserManager.handleRemoveTimeout slot w else w)
    { w with removeTimer := false }

namespace UserRegistry

/-- A tick of `UserRegistry::m_removeTimer`; its slots are never disconnected. -/
def removeTick (w : World) : World :=
  w.registrySlots.foldl (fun w user => handleRemoveTimeout user w)
    { w with registryTimer := false }

def isValidUserPassword (user : Jid) (s : SessionId) (password : String) (w : World) : World :=
  if user.toBare ∈ w.cfg.adminJids then
    if password = w.cfg.adminPassword then
      callSession s Session.handlePasswordValid (w.emit (.adminPassword s true))
    else callSession s (Session.handlePasswordInvalid "") (w.emit (.adminPassword s false))
  else
    let key := user.toBare
    let w :=
      match w.registry key with
      | none => w
      | some e =>
        callSession e.session (Session.handlePasswordInvalid "")
          (setEntry key (some { e with session := s }) w)
    UserManager.connectUser user (setEntry key (some ⟨password, s⟩) w)

/-- The pending login of the JID is dropped if it is the one of the session. -/
def eraseLogin (key : Jid) (s : SessionId) (w : World) : World :=
  match w.registry key with
  | none => w
  | some e => if e.session = s then setEntry key none w else w

def stopLogin (user : Jid) (s : SessionId) (w : World) : World :=
  let w := eraseLogin user.toBare s w
  if w.inRemoveLater then w else UserManager.disconnectUser user w

end UserRegistry

/-! ## Client sessions -/

/-- `ServerStanzaChannel::addSession`. -/
def addSession (s : SessionId) (w : World) : World :=
  match w.session s with
  | none => w
  | some x =>
    { w with
      channel := Function.update w.channel x.remoteJid.toBare
        (w.channel x.remoteJid.toBare ++ [s]) }

/-- `ServerStanzaChannel::removeSession`. -/
def removeSession (j : Jid) (s : SessionId) (w : World) : World :=
  { w with
    channel := Function.update w.channel j.toBare
      ((w.channel j.toBare).filter fun t => t ≠ s) }

/-- `ServerStanzaChannel::handleElement`, for the sessions of the channel. -/
def channelElement (s : SessionId) (e : Element) (w : World) : World :=
  match w.session s, e with
  | some x, .presence p =>
    if s ∈ w.channel x.remoteJid.toBare ∧ x.remoteJid.isValid = true then
      presenceReceived { p with fromJid := x.remoteJid } w
    else w
  | _, _ => w

/-- What the listeners do about one output of a session. -/
def react (s : SessionId) (w : World) : Session.Output → World
  | .isValidUserPassword user password => UserRegistry.isValidUserPassword user s password w
  | .onSessionStarted => addSession s w
  | .onElementReceived e => channelElement s e w
  | .stopLogin user => UserRegistry.stopLogin user s w
  | _ => w

/-- An operation of a session that was called by its stream. -/
def runSession (s : SessionId) (f : Session → Session × List Session.Output) (w : World) :
    World :=
  match w.session s with
  | none => w
  | some x => (f x).2.foldl (react s) (UserRegistry.callSession s f w)

def openSession (tlsLayer : Bool) (w : World) : World :=
  { w with
    session := Function.update w.session w.nextSession (some { tlsLayer := tlsLayer })
    nextSession := w.nextSession + 1 }

/-- The end of a stream: the login is stopped first, then the channel, if the session is
still in it, reports the client as unavailable. -/
def closeSession (s : SessionId) (w : World) : World :=
  match w.session s with
  | none => w
  | some x =>
    let w := runSession s (Session.handleSessionFinished w.cfg.prep) w
    let j := x.remoteJid
    let w :=
      if s ∈ w.channel j.toBare then
        presenceReceived { fromJid := j, toJid := Jid.empty, type := .unavailable }
          (removeSession j s w)
      else w
    { w with session := Function.update w.session s none }

/-! ## Events -/

/-- What a backend sends. A CONNECTED carries only the user; `password` stands for the one of
the LOGIN it answers and is read by no handler. `other` stands for the messages that only reach
the XMPP side. -/
inductive FromBackend
  | connected (user : Jid) (password : String)
  | disconnected (user : Jid) (error : ConnectionError) (message : String)
  | pong
  | stats (res : Nat) (id : String)
  | other
  deriving DecidableEq, Repr

inductive Event
  | clock (now : Int)
  | backendConnected
  | backendLost (b : BackendId)
  | received (b : BackendId) (m : FromBackend)
  | pingTimeout
  | loginDelay
  | collect
  | presence (p : Presence)
  | caps (j : Jid) (known : Bool)
  | connectingTimeout (u : UserId)
  | activity (u : UserId)
  | removeTick
  | unregister (j : Jid)
  | registryTick
  | openSession (tlsLayer : Bool)
  | streamStart (s : SessionId) (toJid : Jid)
  | element (s : SessionId) (e : Element) (uuid : String)
  | closeSession (s : SessionId)
  deriving DecidableEq, Repr

namespace NetworkPluginServer

def handleConnectedPayload (user : Jid) (w : World) : World :=
  match w.users user with
  | none => w
  | some u => UserRegistry.onPasswordValid user (User.setConnected u w)

def handleDisconnectedPayload (user : Jid) (error : ConnectionError) (message : String)
    (w : World) : World :=
  let w := UserRegistry.onPasswordInvalid user message w
  match w.users user with
  | none => w
  | some u => User.handleDisconnected u message error w

/-- The dispatch of `handleDataRead` on one parsed message. -/
def handleMessage (b : BackendId) (m : FromBackend) (w : World) : World :=
  let w := noteData b w
  match m with
  | .connected user _ => handleConnectedPayload user w
  | .disconnected user error message => handleDisconnectedPayload user error message w
  | .pong => handlePongReceived b w
  | .stats res id => handleStatsPayload b res id w
  | .other => w

end NetworkPluginServer

/-- Whether the event can happen in the state. -/
def Event.enabled (w : World) : Event → Bool
  | .backendLost b => b ∈ w.clients
  | .received b _ => b ∈ w.clients
  | .loginDelay => w.loginTimer
  | .connectingTimeout u => (w.user u).reconnectTimer
  | .activity u => decide (w.users (w.user u).jid = some u)
  | .removeTick => w.removeTimer
  | .registryTick => w.registryTimer
  | .streamStart s _ => (w.session s).isSome
  | .element s _ _ => (w.session s).isSome
  | .closeSession s => (w.session s).isSome
  | _ => true

def Event.run : Event → World → World
  | .clock now, w => { w with now := now }
  | .backendConnected, w => handleNewClientConnection w
  | .backendLost b, w => handleSessionFinished b w
  | .received b m, w => handleMessage b m w
  | .pingTimeout, w => NetworkPluginServer.pingTimeout w
  | .loginDelay, w => loginDelayFinished w
  | .collect, w => collectBackend w
  | .presence p, w => presenceReceived p w
  | .caps j known, w =>
    let w := { w with caps := Function.update w.caps j known }
    if known then UserManager.handleDiscoInfo j w else w
  | .connectingTimeout u, w =>
    User.onConnectingTimeout u (w.modUser u fun x => { x with reconnectTimer := false })
  | .activity u, w => w.modUser u fun x => { x with lastActivity := w.now }
  | .removeTick, w => UserManager.removeTick w
  | .unregister j, w => UserManager.unregister j w
  | .registryTick, w => UserRegistry.removeTick w
  | .openSession tlsLayer, w => Spectrum.openSession tlsLayer w
  | .streamStart s toJid, w => runSession s (Session.handleStreamStart toJid) w
  | .element s e uuid, w => runSession s (Session.handleElement w.cfg.prep uuid e) w
  | .closeSession s, w => Spectrum.closeSession s w

namespace World

def step (w : World) (e : Event) : Option World :=
  if e.enabled w = true ∧ (e.run w).fault = false then some (e.run w) else none

/-- All runs of the transport, for every configuration, clock and user database. -/
def machine : Lib.Machine World Event where
  init w := ∃ cfg now storage, w = start cfg now storage
  step := step

end World

end Spectrum
