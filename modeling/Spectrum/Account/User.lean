import Mathlib.Data.List.Infix
import Spectrum.Lib.Machine
import Spectrum.Account.Conversation

/-!
# An account

One user of the transport with all his conversations: `ConversationManager`, the parts of
`User` that act on conversations, and the handlers of `NetworkPluginServer` and `UserManager`
that pass messages between the backend, the conversations and the clients of the user.

The map of the conversations is a list ordered by key. A conversation object is known by the key
under which it is stored, which need not be its legacy name. An access to an object that has been
deleted sets `fault`.

The account exists from the creation of the user on; his removal ends it. The roster, the
sessions of the stanza channel and the known capabilities change on their own. Of the XMPP side
only the stanzas of conversations are recorded.
-/

namespace Spectrum

/-- `ConversationManager::m_convs`. -/
abbrev Account.Chats := List (String × Account.Conversation)

structure Account extends Account.Context where
  caps : Jid → Bool
  connected : Bool
  readyForConnect : Bool
  reconnectTimer : Bool
  resources : Nat
  joinedRooms : List Presence
  convs : Account.Chats
  fault : Bool
  log : List Account.Output

namespace Account

/-! ## The map of the conversations -/

namespace Chats

/-- What the model of the transport keeps of the map. -/
def base (cs : Chats) : Conversations := cs.map fun kc => (kc.1, kc.2.toConversation)

/-- The entry of a key. -/
def find (key : String) (cs : Chats) : Option (String × Conversation) :=
  cs.find? fun kc => kc.1 = key

def getConversation (name : String) (cs : Chats) : Option (String × Conversation) :=
  (Conversations.getConversation name cs.base).bind fun kc => cs.find kc.1

def addConversation (c : Conversation) (cs : Chats) : Chats :=
  Lib.upsert Prod.fst (c.legacyName, c) cs

def update (key : String) (f : Conversation → Conversation) (cs : Chats) : Chats :=
  cs.map fun kc => if kc.1 = key then (kc.1, f kc.2) else kc

/-- The loop of `removeConversation`, with the legacy name of the conversation stored under
`key` before and after it: the name is read again for every entry. -/
def resetRooms (key : String) : String → Chats → String × Chats
  | name, [] => (name, [])
  | name, kd :: cs =>
    let d := if kd.2.room = name then kd.2.setRoom "" else kd.2
    let r := resetRooms key (if kd.1 = key then d.legacyName else name) cs
    (r.1, (kd.1, d) :: r.2)

/-- `removeConversation` for the conversation `c` stored under `key`. -/
def removeConversation (key : String) (c : Conversation) (cs : Chats) : Chats :=
  let r := resetRooms key c.legacyName cs
  r.2.filter fun kd => kd.1 ≠ r.1

/-- `delete conv`. -/
def delete (key : String) : Chats → Chats := update key fun c => { c with freed := true }

/-- All stored objects exist. -/
def allLive (cs : Chats) : Bool := cs.all fun kc => !kc.2.freed

end Chats

def emit (outs : List Output) (a : Account) : Account := { a with log := outs.reverse ++ a.log }

def setFault (a : Account) : Account := { a with fault := true }

/-- Call a method of the conversation stored under a key. -/
def call (key : String) (f : Context → Conversation → Conversation × List Output) (a : Account) :
    Account :=
  match a.convs.find key with
  | none => a.setFault
  | some (_, c) =>
    if c.freed then a.setFault
    else
      emit (f a.toContext c).2 { a with convs := a.convs.update key fun c => (f a.toContext c).1 }

/-- Call a method of every conversation, in the order of the map. -/
def callAll (f : String → Conversation → Conversation × List Output) (a : Account) : Account :=
  if a.convs.allLive then
    emit (a.convs.flatMap fun kc => (f kc.1 kc.2).2)
      { a with convs := a.convs.map fun kc => (kc.1, (f kc.1 kc.2).1) }
  else a.setFault

def addConversation (c : Conversation) (a : Account) : Account :=
  { a with convs := a.convs.addConversation c }

/-! ## Loops over the conversations -/

def sendCachedChatMessages (a : Account) : Account :=
  a.callAll fun _ c => if c.muc then (c, []) else c.sendCachedMessages a.toContext none

def resetResources (a : Account) : Account :=
  a.callAll fun _ c => if c.muc then (c, []) else ({ c with jid := a.env.user.toBare }, [])

def clearJids (a : Account) : Account :=
  a.callAll fun _ c => ({ c with jids := [] }, [])

def setCacheMessages (cacheMessages : Bool) (a : Account) : Account :=
  let a := if a.env.serverMode && !a.cacheMessages && cacheMessages then sendCachedChatMessages a
    else a
  { a with cacheMessages := cacheMessages }

def leaveRoom (room : String) (a : Account) : Account :=
  let a := a.emit [.roomLeft room]
  let a := { a with
    joinedRooms := a.joinedRooms.eraseP fun p => legacyName a.env.toConfig p.toJid = room }
  match a.convs.getConversation room with
  | none => a
  | some (key, c) =>
    if a.convs.allLive then { a with convs := (a.convs.removeConversation key c).delete key }
    else a.setFault

/-- The rooms that nobody takes part in, in the order of the map. -/
def emptyRooms (a : Account) : List String :=
  (a.convs.filter fun kc => kc.1 ≠ "" ∧ kc.2.jids = [] ∧ kc.2.muc = true).map Prod.fst

/-- `ConversationManager::removeJID`. -/
def removeJid (j : Jid) (a : Account) : Account :=
  let a := a.callAll fun key c => if key = "" then (c, []) else c.removeJid a.toContext j
  if a.env.stayConnected then a
  else a.emptyRooms.reverse.foldl (fun a room => a.leaveRoom room) a

/-! ## Becoming ready -/

def setReady (a : Account) : Account :=
  { a with readyForConnect := true }.emit [.readyToConnect]

def onConnectingTimeout (a : Account) : Account :=
  if a.connected || a.readyForConnect then a
  else
    let a := setReady { a with reconnectTimer := false }
    match a.oracle.getHighestPriorityPresence a.env.user.toBare with
    | none => a
    | some highest => a.emit [.presenceChanged highest]

def startTimer (a : Account) : Account := { a with reconnectTimer := true }

def sendCapabilitiesRequest (j : Jid) (a : Account) : Bool × Account :=
  if a.caps j then (true, a.onConnectingTimeout) else (false, a)

def checkReady (p : Presence) (a : Account) : Account :=
  if a.connected || a.readyForConnect then a
  else if p.capsHash = some "sha-1" then
    match a.sendCapabilitiesRequest p.fromJid with
    | (true, a) => a.setReady
    | (false, a) => a.startTimer
  else if a.env.serverMode then a.setReady
  else a.startTimer

/-! ## Presences of the user -/

/-- An unavailable presence to a contact or a room. -/
def leaveContact (p : Presence) (a : Account) : Account :=
  let room := legacyName a.env.toConfig p.toJid
  match a.convs.getConversation room with
  | none => a
  | some (key, c) =>
    let a := a.call key fun x c => c.removeJid x p.fromJid
    if (c.toConversation.removeJid p.fromJid).jids ≠ [] then a
    else if a.env.stayConnected then a
    else a.leaveRoom room

/-- Another resource takes part in a conversation. -/
def addParticipant (p : Presence) (x : Context) (c : Conversation) : Conversation × List Output :=
  let r := (c.addJid p.fromJid).sendParticipants x p.fromJid p.toJid.resource
  let r' := r.1.sendCachedMessages x (some p.fromJid)
  (r'.1, r.2 ++ r'.2)

def newRoom (env : Env) (p : Presence) (room : String) : Conversation :=
  let c := ((Conversation.create env room true).setNickname p.toJid.resource).addJid p.fromJid
  { c with mucEscaping := decide ("\\40".toList <:+: p.toJid.toString.toList) }

/-- An available MUC presence. -/
def joinRoom (p : Presence) (forceJoin : Bool) (a : Account) : Account :=
  let a := if a.readyForConnect then a else a.setReady
  let room := legacyName a.env.toConfig p.toJid
  let joined := Output.roomJoined p.fromJid room p.toJid.resource ((p.muc.getD none).getD "")
  match a.convs.getConversation room with
  | some (key, c) =>
    let a :=
      if c.freed then a.setFault
      else if p.fromJid ∈ c.jids then a
      else a.call key (addParticipant p)
    if forceJoin then a.emit [joined] else a
  | none =>
    let a :=
      if a.joinedRooms.any fun q => q.toJid = p.toJid then a
      else { a with joinedRooms := a.joinedRooms ++ [p] }
    if !a.connected then a
    else (a.addConversation (newRoom a.env p room)).emit [joined]

/-- A user with `stay_connected` keeps his session without any resource. -/
def goOffline (a : Account) : Account :=
  setCacheMessages true (clearJids { a with resources := 0 })

/-- The presence that is passed on when the oracle knows none. -/
def unavailableFrom (a : Account) : Presence where
  fromJid := a.env.jid
  toJid := a.env.user.toBare
  type := .unavailable

/-- The last part of `handlePresence`. -/
def changeLegacyPresence (a : Account) : Account :=
  if !a.readyForConnect then a
  else
    match a.oracle.getHighestPriorityPresence a.env.user.toBare with
    | some highest =>
      if highest.type = .unavailable ∧ a.env.stayConnected = true then goOffline a
      else setCacheMessages false (a.emit [.presenceChanged highest])
    | none =>
      if a.env.stayConnected then goOffline a
      else a.emit [.presenceChanged a.unavailableFrom]

def handleTransportPresence (p : Presence) (a : Account) : Account :=
  let count := (a.oracle.getAllPresence a.env.user.toBare).length
  let a := a.resetResources
  let a := if p.type = .unavailable then a.removeJid p.fromJid else a
  changeLegacyPresence { a with resources := count }

/-- `User::handlePresence`. -/
def handlePresence (p : Presence) (forceJoin : Bool) (a : Account) : Account :=
  let a := a.checkReady p
  if p.toJid.node ≠ "" ∧ p.type = .unavailable then a.leaveContact p
  else if p.toJid.node ≠ "" ∧ p.isMUC = true then a.joinRoom p forceJoin
  else a.handleTransportPresence p

def setConnected (a : Account) : Account :=
  a.joinedRooms.foldl (fun a p => a.handlePresence p true) { a with connected := true }

/-- `Component::handlePresence` and `UserManager::handlePresence` for an existing user. -/
def componentPresence (p : Presence) (a : Account) : Account :=
  if p.toJid.node ≠ "" ∨ p.fromJid.isValid = false then a
  else
    match p.type with
    | .error | .subscribe | .subscribed | .unsubscribe | .unsubscribed => a
    | .unavailable => a.handlePresence p false
    | .available | .probe => (a.sendCapabilitiesRequest p.fromJid).2.handlePresence p false

/-- `onPresenceReceived` of the frontend: the oracle, `Component`, then `UserManager`. -/
def presenceReceived (p : Presence) (a : Account) : Account :=
  let r := a.oracle.handleIncomingPresence p
  let a := { a with oracle := r.1 }
  let a :=
    match r.2 with
    | none => a
    | some passed => a.componentPresence passed
  if p.toJid.node ≠ "" ∧ (p.type = .available ∨ p.type = .unavailable) then
    a.handlePresence p false
  else a

/-! ## Messages of the backend -/

/-- `pbnetwork::ConversationMessage`. -/
structure ConversationMessage where
  buddyname : String
  message : String
  nickname : String := ""
  xhtml : String := ""
  timestamp : String := ""
  headline : Bool := false
  id : String := ""
  pm : Bool := false
  carbon : Bool := false
  attachment : List (String × String) := []
  deriving DecidableEq, Repr

/-- The message of a payload before it is split. -/
def toMessage (env : Env) (payload : ConversationMessage) (subject : Bool) : Message :=
  .plain
    { body := if subject then "" else payload.message
      subject := if subject then payload.message else ""
      payloads :=
        (if env.enableXhtml = true ∧ payload.xhtml ≠ "" then [.xhtml payload.xhtml] else []) ++
          payload.attachment.map fun att => .oob att.1 att.2 }

/-- The loop of `handleConvMessagePayload` over the parts. -/
def messageParts (env : Env) (payload : ConversationMessage) (subject : Bool) : List Message :=
  (env.wrapIncomingMedia (toMessage env payload subject)).map fun m =>
    let m := if payload.headline then m.setType .headline else m
    let m := m.addPayload (.chatState .active)
    if payload.timestamp = "" then m else m.addPayload (.delay (some payload.timestamp))

/-- Pass messages to the conversation stored under a key. -/
def forward (key : String) (ms : List Message) (nickname : String) (carbon : Bool) (a : Account) :
    Account :=
  ms.foldl (fun a m => a.call key fun x c => c.handleMessage x m nickname carbon) a

/-- The conversation of an occupant of a room in private. -/
def privateChat (env : Env) (room nick : String) : Conversation :=
  ((Conversation.create env nick false).setRoom room).setNickname (room ++ "/" ++ nick)

def handleConvMessagePayload (payload : ConversationMessage) (subject : Bool) (a : Account) :
    Account :=
  let deliver := fun key a =>
    forward key (messageParts a.env payload subject) payload.nickname payload.carbon a
  match a.convs.getConversation payload.buddyname with
  | none =>
    if payload.nickname ≠ "" then a
    else
      deliver payload.buddyname
        (a.addConversation (Conversation.create a.env payload.buddyname false))
  | some (key, _) =>
    if payload.pm then
      match a.convs.getConversation (payload.buddyname ++ "/" ++ payload.nickname) with
      | some (key, _) => deliver key a
      | none =>
        let c := privateChat a.env payload.buddyname payload.nickname
        deliver c.legacyName (a.addConversation c)
    else deliver key a

def handleAttentionPayload (payload : ConversationMessage) (a : Account) : Account :=
  let m := Message.plain { body := payload.message, payloads := [.attention] }
  match a.convs.getConversation payload.buddyname with
  | some (key, _) => forward key [m] "" false a
  | none =>
    forward payload.buddyname [m] "" false
      (a.addConversation (Conversation.create a.env payload.buddyname false))

/-- Chat states and receipts do not create a conversation. -/
def forwardExisting (name : String) (payload : Payload) (a : Account) : Account :=
  match a.convs.getConversation name with
  | none => a
  | some (key, _) => forward key [.plain { payloads := [payload] }] "" false a

def handleChatStatePayload (buddyname : String) (state : ChatState) : Account → Account :=
  forwardExisting buddyname (.chatState state)

def handleConvMessageAckPayload (payload : ConversationMessage) (a : Account) : Account :=
  if payload.id = "" then a else a.forwardExisting payload.buddyname (.deliveryReceipt payload.id)

def handleRoomChangedPayload (room nickname : String) (a : Account) : Account :=
  match a.convs.getConversation room with
  | none => a
  | some (key, _) => a.call key fun _ c => (c.setNickname nickname, [])

/-- `pbnetwork::Participant`. -/
structure ParticipantChange where
  room : String
  nickname : String
  flag : BitVec 32
  status : StatusType
  statusMessage : String := ""
  newname : String := ""
  iconHash : String := ""
  nickAlias : String := ""
  deriving DecidableEq, Repr

/-- The part of `handleParticipantChanged` that sends the presence, with its type. -/
def announce (key : String) (p : ParticipantChange) (a : Account) : PresenceType × Account :=
  let change := fun x (c : Conversation) =>
    c.changeParticipant x p.nickname p.flag p.status p.statusMessage p.newname p.iconHash
      p.nickAlias
  match a.convs.find key with
  | none => (.available, a.setFault)
  | some (_, c) => ((change a.toContext c).1, a.call key fun x c => (change x c).2)

/-- The last part of `handleParticipantChanged`: an error presence ends the stay in the room. -/
def settle (key : String) (type : PresenceType) (a : Account) : Account :=
  let a := a.call key fun x c => c.sendSubject x
  match type, a.convs.find key with
  | .error, some (_, c) => a.leaveRoom c.legacyName
  | _, _ => a

/-- `handleParticipantChanged` without a new name. -/
def changeOne (key : String) (p : ParticipantChange) (a : Account) : Account :=
  let r := a.announce key p
  r.2.settle key r.1

def handleParticipantChanged (key : String) (p : ParticipantChange) (a : Account) : Account :=
  let r := a.announce key p
  let a :=
    if p.newname = "" then r.2
    else r.2.changeOne key { p with nickname := p.newname, newname := "", nickAlias := "" }
  a.settle key r.1

def handleParticipantChangedPayload (p : ParticipantChange) (a : Account) : Account :=
  match a.convs.getConversation p.room with
  | none => a
  | some (key, _) => a.handleParticipantChanged key p

/-! ## Messages of the user -/

/-- `Buddy::JIDToLegacyName` with the user. -/
def buddyName (a : Account) (j : Jid) : String :=
  match a.getBuddy (legacyName a.env.toConfig j) with
  | some b => b.name
  | none => legacyName a.env.toConfig j

/-- The end of `ConversationManager::handleMessageReceived`. -/
def sendMessage (key : String) (m : Message) (a : Account) : Account :=
  a.call key fun _ c => ({ c with jid := m.head.fromJid }, [.toBackend c.legacyName m])

/-- `ConversationManager::handleMessageReceived`. -/
def handleMessageReceived (m : Message) (a : Account) : Account :=
  let name := a.buddyName m.head.toJid
  if name = "" then a
  else
    match a.convs.find name with
    | none => (a.addConversation (Conversation.create a.env name false)).sendMessage name m
    | some (_, c) =>
      if c.freed then a.setFault
      else if c.muc = true ∧ m.head.type ≠ .groupchat then
        let key := name ++ "/" ++ m.head.toJid.resource
        let a :=
          match a.convs.find key with
          | some _ => a
          | none => a.addConversation (privateChat a.env name m.head.toJid.resource)
        a.sendMessage key m
      else a.sendMessage name m

/-- `UserManager::handleMessageReceived`. -/
def messageReceived (m : Message) (a : Account) : Account :=
  let isState := m.head.payloads.any fun p => match p with | .chatState _ => true | _ => false
  if m.head.type = .error then a
  else if m.head.body = "" ∧ isState = false ∧ m.head.subject = "" then a
  else a.handleMessageReceived m

/-! ## All runs -/

inductive Event
  | presence (p : Presence)
  | caps (j : Jid) (known : Bool)
  | connectingTimeout
  | connected
  | convMessage (payload : ConversationMessage) (subject : Bool)
  | attention (payload : ConversationMessage)
  | chatState (buddyname : String) (state : ChatState)
  | ack (payload : ConversationMessage)
  | participant (p : ParticipantChange)
  | roomNickname (room nickname : String)
  | message (m : Message)
  | sessions (js : List Jid)
  | roster (getBuddy : String → Option Buddy)

/-- Stanzas come from the user, sessions are his, and the timer has been started. -/
def Event.enabled : Event → Account → Bool
  | .presence p, a => p.fromJid.toBare = a.env.user.toBare
  | .caps j _, a => j.toBare = a.env.user.toBare
  | .connectingTimeout, a => a.reconnectTimer
  | .message m, a => m.head.fromJid.toBare = a.env.user.toBare
  | .sessions js, a => js.all fun j => j.toBare = a.env.user.toBare
  | _, _ => true

def Event.run : Event → Account → Account
  | .presence p, a => a.presenceReceived p
  | .caps j known, a =>
    let a := { a with caps := Function.update a.caps j known }
    if known then a.onConnectingTimeout else a
  | .connectingTimeout, a => onConnectingTimeout { a with reconnectTimer := false }
  | .connected, a => a.setConnected
  | .convMessage payload subject, a => a.handleConvMessagePayload payload subject
  | .attention payload, a => a.handleAttentionPayload payload
  | .chatState buddyname state, a => a.handleChatStatePayload buddyname state
  | .ack payload, a => a.handleConvMessageAckPayload payload
  | .participant p, a => a.handleParticipantChangedPayload p
  | .roomNickname room nickname, a => a.handleRoomChangedPayload room nickname
  | .message m, a => a.messageReceived m
  | .sessions js, a => { a with sessions := js }
  | .roster getBuddy, a => { a with getBuddy := getBuddy }

def step (a : Account) (e : Event) : Option Account :=
  if e.enabled a = true ∧ (e.run a).fault = false then some (e.run a) else none

/-- A user who has just been created. -/
def start (x : Context) (caps : Jid → Bool) : Account where
  toContext := { x with cacheMessages := false }
  caps := caps
  connected := false
  readyForConnect := false
  reconnectTimer := false
  resources := 0
  joinedRooms := []
  convs := []
  fault := false
  log := []

/-- All runs of an account, for every environment. -/
def machine : Lib.Machine Account Event where
  init a := ∃ x caps, a = start x caps
  step := step

end Account

end Spectrum
