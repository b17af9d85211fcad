import Spectrum.Model.Users
import Spectrum.Lib.Sorted

/-!
# Messages of an account

The stanzas that a conversation handles: messages with the payloads the transport adds, the
carbons and impersonation requests that wrap another message, and the presences of the
occupants of a room. A message in the log is the message as it was when it was sent.

`Env` is what an account finds and does not change: the configuration, the settings of the user
and the text functions of Swiften. `wrapIncomingMedia` searches the text of a message with a
regular expression; it is a parameter.
-/

namespace Spectrum.Account

/-- `Swift::Message::Type`. -/
inductive MessageType
  | normal | chat | error | groupchat | headline
  deriving DecidableEq, Repr

/-- `Swift::ChatState::ChatStateType`. -/
inductive ChatState
  | active | composing | paused | inactive | gone
  deriving DecidableEq, Repr

/-- A `Delay` without a stamp carries the current time. -/
inductive Payload
  | delay (stamp : Option String)
  | chatState (state : ChatState)
  | xhtml (body : String)
  | oob (url description : String)
  | deliveryReceipt (id : String)
  | attention
  | noCopy
  deriving DecidableEq, Repr

structure Head where
  fromJid : Jid := Jid.empty
  toJid : Jid := Jid.empty
  type : MessageType := .chat
  body : String := ""
  subject : String := ""
  payloads : List Payload := []
  deriving DecidableEq, Repr

/-- The payloads that carry another message: `CarbonsSent`, `CarbonsReceived`, `Privilege`. -/
inductive Wrapper
  | sent | received | privilege
  deriving DecidableEq, Repr

inductive Message
  | plain (head : Head)
  | wrapped (wrapper : Wrapper) (head : Head) (stanza : Message)
  deriving DecidableEq, Repr

namespace Message

def head : Message → Head
  | plain h => h
  | wrapped _ h _ => h

def mapHead (f : Head → Head) : Message → Message
  | plain h => plain (f h)
  | wrapped w h m => wrapped w (f h) m

def setTo (j : Jid) : Message → Message := mapHead fun h => { h with toJid := j }

def setFrom (j : Jid) : Message → Message := mapHead fun h => { h with fromJid := j }

def setType (t : MessageType) : Message → Message := mapHead fun h => { h with type := t }

def addPayload (p : Payload) : Message → Message :=
  mapHead fun h => { h with payloads := h.payloads ++ [p] }

@[simp] theorem head_mapHead (f : Head → Head) (m : Message) : (m.mapHead f).head = f m.head := by
  cases m <;> rfl

end Message

/-! ## Presences of a room -/

/-- The errors that end the stay in a room. -/
inductive RoomError
  | conflict
  | notAuthorized (text : String)
  | itemNotFound (text : String)
  deriving DecidableEq, Repr

/-- The affiliation and role of an occupant: administrator and moderator, member and participant, or
none. -/
inductive Standing
  | moderator
  | participant
  | none
  deriving DecidableEq, Repr

/-- `Swift::MUCItem`. -/
structure MucItem where
  standing : Standing
  nick : String := ""
  actor : String := ""
  reason : String := ""
  deriving DecidableEq, Repr

/-- What `Conversation::generatePresence` builds. -/
structure RoomPresence where
  fromJid : Jid
  toJid : Jid := Jid.empty
  type : PresenceType
  showType : StatusType
  status : String := ""
  codes : List Nat := []
  item : Option MucItem := none
  error : Option RoomError := none
  iconhash : String := ""
  deriving DecidableEq, Repr

/-! ## What an account finds -/

structure Buddy where
  name : String
  jid : Jid
  deriving DecidableEq, Repr

structure Env extends Config where
  user : Jid
  stayConnected : Bool := false
  sendHeadlines : Bool := false
  jidEscaping : Bool := true
  enableXhtml : Bool := false
  escapedNode : String → String := id
  wrapIncomingMedia : Message → List Message := fun m => [m]

namespace Env

/-- `Swift::JID(name, component->getJID().toBare(), resource)`. -/
def contact (env : Env) (name resource : String) : Jid :=
  env.prep.fullJid name env.jid.toBare.toString resource

end Env

/-- One thing the account has done. A message that is sent in server mode is recorded with the
sessions that get it. -/
inductive Output
  | message (m : Message) (sessions : List Jid)
  | presence (p : RoomPresence)
  | toBackend (conversation : String) (m : Message)
  | readyToConnect
  | presenceChanged (p : Presence)
  | roomJoined (who : Jid) (room nickname password : String)
  | roomLeft (room : String)
  deriving DecidableEq, Repr

/-- The parts of the transport that a conversation reads. `sessions` are the JIDs of the
sessions of the user in the stanza channel, `getBuddy` is the lookup of his roster. -/
structure Context where
  env : Env
  oracle : Oracle
  sessions : List Jid
  getBuddy : String → Option Buddy
  cacheMessages : Bool

/-- `ServerStanzaChannel::send`: the session of a full JID, else every session of the bare JID. -/
def route (sessions : List Jid) (toJid : Jid) : List Jid :=
  let candidates := sessions.filter fun j => j.toBare = toJid.toBare
  if toJid.isBare then candidates
  else
    match sessions.find? fun j => j = toJid with
    | some j => [j]
    | none => candidates

/-- `XMPPFrontend::sendMessage`. -/
def Context.sendMessage (x : Context) (m : Message) : Output :=
  .message m (if x.env.serverMode then route x.sessions m.head.toJid else [])

end Spectrum.Account
