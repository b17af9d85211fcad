import Spectrum.Account.Message

/-!
# One conversation

`Transport::Conversation`. A method takes the conversation and the parts of the transport it
reads, and gives the conversation after the call with what it sent, oldest first. The methods
that leave the room stand in `Spectrum.Account.User`.
-/

namespace Spectrum.Account

/-- `Conversation::Participant`. -/
structure Participant where
  presence : RoomPresence
  nickAlias : String
  deriving DecidableEq, Repr

/-- A conversation whose object has been deleted while it is still stored is marked `freed`. -/
structure Conversation extends Spectrum.Conversation where
  jid : Jid
  sentInitialPresence : Bool := false
  nicknameChanged : Bool := false
  sentInitialSubject : Bool := false
  subject : Option Message := none
  cachedMessages : List Message := []
  participants : List (String × Participant) := []
  freed : Bool := false
  deriving DecidableEq, Repr

namespace Conversation

/-- The constructor, for the user of the environment. -/
def create (env : Env) (legacyName : String) (muc : Bool) : Conversation where
  legacyName := legacyName
  muc := muc
  jid := env.user.toBare

def setRoom (room : String) (c : Conversation) : Conversation :=
  { c with toConversation := c.toConversation.setRoom room }

def addJid (j : Jid) (c : Conversation) : Conversation :=
  { c with toConversation := c.toConversation.addJid j }

def setNickname (nickname : String) (c : Conversation) : Conversation :=
  { c with
    nicknameChanged := c.nicknameChanged || (nickname != "" && c.nickname != nickname)
    nickname := nickname }

/-! ## Messages -/

def cacheMessage (m : Message) (c : Conversation) : Conversation :=
  let cached := c.cachedMessages ++ [m.addPayload (.delay none)]
  { c with cachedMessages := if 100 < cached.length then cached.tail else cached }

/-- The loop of `handleRawMessage` over the participating JIDs. A subject is sent after the
presence of the user himself. -/
def sendToJids (x : Context) (m : Message) : List Jid → Conversation → Conversation × List Output
  | [], c => (c, [])
  | j :: js, c =>
    if m.head.subject = "" then
      let r := sendToJids x m js c
      (r.1, x.sendMessage (m.setTo j) :: r.2)
    else
      let c := { c with subject := some (m.setTo j) }
      if c.sentInitialPresence = false then (c, [])
      else
        let r := sendToJids x m js c
        (r.1, x.sendMessage (m.setTo j) :: r.2)

def handleRawMessage (x : Context) (m : Message) (c : Conversation) :
    Conversation × List Output :=
  if m.head.type ≠ .groupchat then
    if x.env.serverMode && x.cacheMessages then (c.cacheMessage m, []) else (c, [x.sendMessage m])
  else if c.jids = [] then (c.cacheMessage m, [])
  else sendToJids x m c.jids c

/-- Messages handed to `handleRawMessage` one after the other. -/
def handleRawMessages (x : Context) : List Message → Conversation → Conversation × List Output
  | [], c => (c, [])
  | m :: ms, c =>
    let r := c.handleRawMessage x m
    let r' := handleRawMessages x ms r.1
    (r'.1, r.2 ++ r'.2)

/-- The node of a room: the last `@` is written as `%`, except with MUC escaping. -/
def roomNode (env : Env) (name : String) (c : Conversation) : String :=
  env.escapedNode (if c.mucEscaping then name else replaceLast '@' '%' name)

/-- The type `handleMessage` gives to a message. -/
def messageType (env : Env) (t : MessageType) (c : Conversation) : MessageType :=
  if c.muc then .groupchat
  else if t = .headline ∧ env.sendHeadlines = true then .headline
  else .chat

/-- The sender of a message of a contact, or of an occupant of a room in private. -/
def chatSender (x : Context) (nickname : String) (c : Conversation) : Jid :=
  let n := if nickname = "" ∧ c.room ≠ "" ∧ c.muc = false then c.nickname else nickname
  if n = "" then
    match x.getBuddy c.legacyName with
    | some buddy => buddy.jid
    | none =>
      let name :=
        if x.env.jidEscaping then x.env.escapedNode c.legacyName
        else replaceLast '@' '%' c.legacyName
      x.env.contact name "bot"
  else if c.room = "" then x.env.contact n "user"
  else x.env.contact (c.roomNode x.env c.room) n

/-- The sender of a message in a room. -/
def roomSender (x : Context) (nickname : String) (c : Conversation) : Jid :=
  let n := if nickname = "" then " " else nickname
  let n :=
    match c.participants.find? fun np => np.1 = n with
    | some np => if np.2.nickAlias = "" then n else np.2.nickAlias
    | none => n
  x.env.contact (c.roomNode x.env c.legacyName) n

/-- The first part of `handleMessage`: type, receiver and sender. -/
def address (x : Context) (nickname : String) (c : Conversation) (m : Message) : Message :=
  let m := m.setType (c.messageType x.env m.head.type)
  if m.head.type = .groupchat then m.setFrom (c.roomSender x nickname)
  else (m.setTo c.jid).setFrom (c.chatSender x nickname)

/-- The envelope of a carbon. -/
def carbon (w : Wrapper) (payload : Message) (c : Conversation) (toJid : Jid) : Message :=
  .wrapped w
    { type := payload.head.type, fromJid := c.jid.toBare, toJid := toJid, payloads := [.noCopy] }
    payload

/-- `forwardImpersonated` to the server of the user. -/
def impersonated (x : Context) (payload : Message) : Message :=
  .wrapped .privilege
    { type := .normal, fromJid := x.env.jid
      toJid := x.env.prep.bareJid "" payload.head.fromJid.domain } payload

def forwardAsCarbonSent (x : Context) (payload : Message) (c : Conversation) (toJid : Jid) :
    Message :=
  if x.env.serverMode then carbon .sent payload c toJid
  else impersonated x (carbon .sent payload c toJid)

/-- The branch of `handleMessage` for a message the user sent from another client. -/
def handleCarbon (x : Context) (m : Message) (c : Conversation) : Conversation × List Output :=
  let m := (m.setTo m.head.fromJid).setFrom m.head.toJid.toBare
  let presences := x.oracle.getAllPresence c.jid.toBare
  let targets := if presences = [] then [c.jid.toBare] else presences.map Presence.fromJid
  c.handleRawMessages x (targets.map (forwardAsCarbonSent x m c))

def getDeliveryJid (x : Context) (c : Conversation) : Jid :=
  if c.jid.isBare then
    match x.oracle.getHighestPriorityPresence c.jid.toBare with
    | some highest => highest.fromJid
    | none => c.jid
  else c.jid

def forwardReceivedCopies (x : Context) (copy : Message) (delivered : Jid) (c : Conversation) :
    Conversation × List Output :=
  let others := (x.oracle.getAllPresence c.jid.toBare).filter fun p => p.fromJid ≠ delivered
  c.handleRawMessages x (others.map fun p => carbon .received copy c p.fromJid)

def handleMessage (x : Context) (m : Message) (nickname : String) (isCarbon : Bool)
    (c : Conversation) : Conversation × List Output :=
  let m := c.address x nickname m
  if isCarbon then c.handleCarbon x m
  else
    let r := c.handleRawMessage x m
    if x.env.serverMode && !c.muc && m.head.type != .groupchat then
      let r' := r.1.forwardReceivedCopies x m (c.getDeliveryJid x)
      (r'.1, r.2 ++ r'.2)
    else r

/-- `sendCachedMessages`; an absent JID stands for the invalid one. -/
def sendCachedMessages (x : Context) (toJid : Option Jid) (c : Conversation) :
    Conversation × List Output :=
  let target := toJid.getD c.jid.toBare
  let cached := c.cachedMessages.map (Message.setTo target)
  let subject := c.subject.map (Message.setTo target)
  ({ c with cachedMessages := [], subject := subject },
    (cached ++ subject.toList).map x.sendMessage)

/-! ## Occupants -/

/-- The error presence for a flag, in the order of the tests. The flags are `CONFLICT` = 2,
`NOT_AUTHORIZED` = 8 and `ROOM_NOT_FOUND` = 64. -/
def roomError (flag : BitVec 32) (statusMessage : String) : Option RoomError :=
  if flag.getLsbD 1 then some .conflict
  else if flag.getLsbD 3 then some (.notAuthorized statusMessage)
  else if flag.getLsbD 6 then some (.itemNotFound statusMessage)
  else none

/-- The status codes of a presence: 110 for the user himself, 210 after a change of his
nickname, 303 for a new name. -/
def statusCodes (own : Bool) (newname : String) (c : Conversation) : List Nat :=
  (if own then 110 :: (if c.nicknameChanged then [210] else []) else []) ++
    (if newname = "" then [] else [303])

def generatePresence (x : Context) (nickname : String) (flag : BitVec 32) (status : StatusType)
    (statusMessage newname iconhash : String) (c : Conversation) : RoomPresence × Conversation :=
  let node := if c.muc then c.roomNode x.env c.legacyName else c.legacyName
  let base : RoomPresence :=
    { fromJid := x.env.contact node nickname
      type := if status = .ofShow .none then .unavailable else .available
      showType := status, status := statusMessage }
  let own := decide (c.nickname = nickname)
  match if own then roomError flag statusMessage else none with
  | some e => ({ base with type := .error, error := some e }, c)
  | none =>
    ({ base with
       type := if newname = "" then base.type else .unavailable
       codes := c.statusCodes own newname
       item := some
         { standing := if flag.getLsbD 0 then .moderator else .participant, nick := newname }
       iconhash := iconhash },
     if own then { c with nicknameChanged := false, sentInitialPresence := true } else c)

/-- The presence that says that the user is in the room. -/
def selfPresence (x : Context) (nickname newname : String) (c : Conversation) :
    RoomPresence × Conversation :=
  c.generatePresence x nickname 0 (.ofShow .online) "" newname ""

/-- The first part of `sendParticipants`: a resource that joins under another nickname is
renamed. -/
def renameTo (x : Context) (toJid : Jid) (nickname : String) (c : Conversation) :
    Conversation × List Output :=
  if c.nickname ≠ nickname ∧ nickname ≠ "" then
    let old := c.nickname
    let r := { c with nickname := nickname }.selfPresence x nickname ""
    let r' := { r.2 with nicknameChanged := true }.selfPresence x nickname old
    (r'.2, [.presence { r.1 with toJid := toJid }, .presence { r'.1 with toJid := toJid }])
  else (c, [])

def sendParticipants (x : Context) (toJid : Jid) (nickname : String) (c : Conversation) :
    Conversation × List Output :=
  let r := c.renameTo x toJid nickname
  let r' := r.1.selfPresence x r.1.nickname ""
  let participants := r'.2.participants.map fun np =>
    (np.1, { np.2 with presence := { np.2.presence with toJid := toJid } })
  ({ r'.2 with participants := participants },
    r.2 ++ .presence { r'.1 with toJid := toJid } ::
      participants.map fun np => .presence np.2.presence)

def removeJid (x : Context) (j : Jid) (c : Conversation) : Conversation × List Output :=
  let r :=
    if c.muc then
      let r := c.generatePresence x c.nickname 0 (.ofShow .none) "" "" ""
      (r.2, [Output.presence { r.1 with toJid := j }])
    else (c, [])
  ({ r.1 with toConversation := r.1.toConversation.removeJid j }, r.2)

/-- `handleParticipantChanged` up to the loop over the JIDs, with the type of the presence. -/
def changeParticipant (x : Context) (nick : String) (flag : BitVec 32) (status : StatusType)
    (statusMessage newname iconhash nickAlias : String) (c : Conversation) :
    PresenceType × Conversation × List Output :=
  let r := c.generatePresence x (if nickAlias = "" then nick else nickAlias) flag status statusMessage
    newname iconhash
  let c := r.2
  -- the stored presence is the object that is sent, so it ends with the last receiver
  let stored := { r.1 with toJid := c.jids.getLastD Jid.empty }
  let participants :=
    if r.1.type = .unavailable then c.participants.filter fun np => np.1 ≠ nick
    else Lib.upsert Prod.fst (nick, ⟨stored, nickAlias⟩) c.participants
  (r.1.type, { c with participants := participants },
    c.jids.map fun j => .presence { r.1 with toJid := j })

/-- The user is kicked out of his room, with the status codes 332 and 307, before the conversation is
deleted. -/
def destroyRoom (x : Context) (c : Conversation) : List Output :=
  let presence : RoomPresence :=
    { fromJid := x.env.contact (c.roomNode x.env c.legacyName) c.nickname
      type := .unavailable
      showType := .ofShow .none
      codes := [332, 307]
      item := some
        { standing := .none, actor := "Transport", reason := "Spectrum 2 transport is being shut down." } }
  if c.muc then c.jids.map fun j => .presence { presence with toJid := j } else []

/-- The subject that waited for the first presence of the user himself. -/
def sendSubject (x : Context) (c : Conversation) : Conversation × List Output :=
  match c.subject with
  | some m =>
    if c.sentInitialPresence && !c.sentInitialSubject then
      ({ c with sentInitialSubject := true }, [x.sendMessage m])
    else (c, [])
  | none => (c, [])

end Conversation

end Spectrum.Account
