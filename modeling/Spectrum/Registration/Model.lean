import Spectrum.Lib.Machine
import Spectrum.Model.Users
import Spectrum.Storage.Buddies

/-!
# UserRegistration and XMPPUserRegistration

Registering and unregistering go to the storage at once and ask the server of the user for his
roster. The answer comes later, and what is left to do then is done with the `UserInfo` of the time
of the question.

A `User` that is removed stores the buddies in the queue of his roster. `getUser` of MySQL can throw
an exception; that leaves the model.
-/

namespace Spectrum.Registration

open Lib Storage Wire

/-! ## Options -/

/-- The options of the registration. The expression of `registration.allowed_usernames` is a
predicate. -/
structure Config where
  irc : Bool := false
  publicRegistration : Bool := true
  allowedServers : List String := []
  requireLocalAccount : Bool := false
  needPassword : Bool := true
  usernameMask : String := ""
  allowedUsernames : Option (String → Bool) := none
  notifyJids : List String := []

/-- What the registration depends on: the storage, the JID of the component, `Swift::JID` made from a
text, `getEscapedNode`, and whether the server of the local accounts accepts a password. -/
structure Env extends Config where
  backend : Storage.Backend
  jid : Jid
  prep : StringPrep := StringPrep.plain
  jidOf : String → Jid
  escapedNode : String → String := id
  validLocal : String → String → Bool := fun _ _ => true

/-- `boost::replace_all`. The first argument counts the characters of an occurrence that are still to
be passed over. -/
def replaceAll (search format : List Char) : Nat → List Char → List Char
  | _, [] => []
  | n + 1, _ :: cs => replaceAll search format n cs
  | 0, c :: cs =>
    if search.isPrefixOf (c :: cs) then
      format ++ replaceAll search format (search.length - 1) cs
    else c :: replaceAll search format 0 cs

/-- The name that is stored for a user name. -/
def Config.newUsername (c : Config) (username : String) : String :=
  if c.usernameMask = "" then username
  else String.ofList
    (replaceAll "$username".toList username.toList 0 c.usernameMask.toList)

/-! ## Requests -/

/-- The form of a request. A field that is not there is empty. -/
structure Form where
  username : String := ""
  password : Bytes := []
  unregister : String := ""
  encoding : String := ""
  localUsername : String := ""
  localPassword : String := ""
  language : String := ""
  deriving DecidableEq, Repr

/-- `Swift::InBandRegistrationPayload`. -/
structure Payload where
  username : Option String := none
  password : Option Bytes := none
  remove : Bool := false
  form : Option Form := none
  deriving DecidableEq, Repr

namespace Payload

variable (p : Payload)

def formFields : Form := p.form.getD {}

/-- The fields of the form that are not empty win. -/
def getUsername : Option String :=
  if p.formFields.username ≠ "" then some p.formFields.username else p.username

def getPassword : Option Bytes :=
  if p.formFields.password ≠ [] then some p.formFields.password else p.password

def isRemove : Bool :=
  p.remove || p.formFields.unregister == "1" || p.formFields.unregister == "true"

end Payload

/-- `Swift::ErrorPayload::Condition`. -/
inductive Condition
  | badRequest
  | notAcceptable
  | notAuthorized
  deriving DecidableEq, Repr

/-- What `handleSetRequest` does with a request. `taken` is the refusal of a name that is in use,
`write` goes to `registerUser` or to `setUser`. -/
inductive Decision
  | refused (e : Condition)
  | taken
  | ignored
  | remove
  | write (registered : Bool) (user : Storage.UserInfo)
  deriving DecidableEq, Repr

namespace Env

variable (env : Env)

/-- `getUser`, which says whether the user is registered. -/
def lookup (barejid : String) (db : Db) : Option (Option Storage.UserInfo) :=
  match env.backend.getUser barejid db with
  | .found user => some (some user)
  | .notFound => some none
  | .throws => none

/-- The user who is written: the one of the storage, or a new one, with the data of the request. -/
def newUser (old : Option Storage.UserInfo) (barejid username : String) (p : Payload) :
    Storage.UserInfo where
  id := (old.map Storage.UserInfo.id).getD 0
  jid := barejid
  uin := env.newUsername username
  password := p.getPassword.getD []
  language := p.formFields.language
  encoding := p.formFields.encoding
  vip := (old.map Storage.UserInfo.vip).getD false

/-- `handleSetRequest` after the user was looked up and the local account was checked. -/
def examineName (sender : Jid) (old : Option Storage.UserInfo) (p : Payload) (db : Db) : Decision :=
  match p.getUsername with
  | none => .refused .notAcceptable
  | some username =>
    if p.getPassword = none ∧ env.needPassword = true then .refused .notAcceptable
    else if username = "" then .refused .notAcceptable
    else if (env.jidOf username).isValid = true ∧ (env.jidOf username).toBare = sender.toBare then
      .refused .notAcceptable
    else if env.needPassword = false ∧ username ∈ env.backend.getLegacyNetworkUsers db then .taken
    else if env.allowedUsernames.any fun allowed => !allowed (env.newUsername username) then
      .refused .notAcceptable
    else .write old.isSome (env.newUser old sender.toBare.toString username p)

/-- `XMPPUserRegistration::handleSetRequest` up to the point where it changes something. -/
def examine (sender : Jid) (p : Payload) (db : Db) : Option Decision :=
  if env.irc then some (.refused .badRequest)
  else if env.publicRegistration = false ∧ sender.domain ∉ env.allowedServers then
    some (.refused .badRequest)
  else do
    let old ← env.lookup sender.toBare.toString db
    if p.isRemove then return .remove
    else if env.requireLocalAccount then
      if p.formFields.localUsername = "" ∨ p.formFields.localPassword = "" then return .ignored
      else if env.validLocal p.formFields.localUsername p.formFields.localPassword then
        return env.examineName sender old p db
      else return .refused .notAuthorized
    else return env.examineName sender old p db

end Env

/-! ## The state -/

/-- A `User` that is logged in: the id of his row and the queue of his `RosterStorage`. -/
structure LiveUser where
  id : Int
  queue : List (Int × BuddyData) := []
  deriving DecidableEq, Repr

/-- A question for a remote roster that is not answered. -/
inductive Pending
  | register (row : Storage.UserInfo)
  | unregister (userInfo : Storage.UserInfo)
  deriving DecidableEq, Repr

inductive Stanza
  | presence (p : Presence)
  | setRoster (target : String) (item : Jid) (remove : Bool)
  | message (target body : String)
  | result (target : Jid)
  | error (target : Jid) (e : Condition)
  deriving DecidableEq, Repr

structure State where
  db : Db := {}
  users : String → Option LiveUser := fun _ => none
  pending : List Pending := []
  sent : List Stanza := []

namespace State

variable (env : Env) (s : State)

def send (stanzas : List Stanza) : State := { s with sent := s.sent ++ stanzas }

/-! ## Users -/

/-- `RosterStorage::storeBuddies`. -/
def storeBuddies (u : LiveUser) (db : Db) : Db :=
  u.queue.foldl (fun db e =>
    if e.1 ≠ -1 then env.backend.updateBuddy u.id (e.2.info e.1) db
    else (env.backend.addBuddy u.id (e.2.info e.1) db).1) db

/-- `UserManager::removeUser` for the user that `getUser` finds, and the destructor of `User`. -/
def removeUser (barejid : String) : State :=
  match s.users barejid with
  | none => s
  | some u =>
    { s with
      users := fun j => if j = barejid then none else s.users j
      db := storeBuddies env u (env.backend.setUserOnline u.id false s.db) }

/-! ## UserRegistration -/

/-- `UserRegistration::registerUser`. -/
def registerUser (row : Storage.UserInfo) (allowPasswordChange : Bool) : Option State := do
  let old ← env.lookup row.jid s.db
  if old = none ∨ allowPasswordChange then
    return { s with
      db := (env.backend.setUser row s.db).1
      pending := s.pending ++ [.register row] }
  else return s

/-- `UserRegistration::unregisterUser`. -/
def unregisterUser (barejid : String) : Option State := do
  let old ← env.lookup barejid s.db
  match old with
  | none => return s
  | some userInfo =>
    let s := removeUser env { s with db := env.backend.removeUser userInfo.id s.db } barejid
    return { s with pending := s.pending ++ [.unregister userInfo] }

/-! ## The answers -/

/-- The pair of presences that removes a contact. -/
def farewell (userInfo : Storage.UserInfo) (sender : Jid) : List Stanza :=
  [.presence { fromJid := sender, toJid := env.jidOf userInfo.jid, type := .unsubscribe },
   .presence { fromJid := sender, toJid := env.jidOf userInfo.jid, type := .unsubscribed }]

/-- The JID of a buddy. The flag `BUDDY_JID_ESCAPING` is 2. -/
def buddyJid (b : BuddyInfo) : Jid :=
  env.prep.bareJid
    (if b.flags / 2 % 2 = 1 then env.escapedNode b.legacyName else replaceLast '@' '%' b.legacyName)
    env.jid.toString

def notify (text : String) (user : Storage.UserInfo) : List Stanza :=
  env.notifyJids.map fun jid => .message jid (text ++ user.jid)

/-- `handleRegisterRemoteRosterResponse`. There is no payload if the answer is an error. -/
def handleRegisterRemoteRosterResponse (payload : Option (List Jid)) (row : Storage.UserInfo) :
    State :=
  let add := match payload with
    | none => Stanza.presence
        { fromJid := env.jid, toJid := env.jidOf row.jid, type := .subscribe }
    | some _ => .setRoster row.jid env.jid false
  s.send (add :: notify env "registered: " row)

/-- The stanzas that `handleUnregisterRemoteRosterResponse` sends before it goes to the storage. -/
def removals (payload : Option (List Jid)) (userInfo : Storage.UserInfo) : List Stanza :=
  match payload with
  | none => (env.backend.getBuddies userInfo.id [] s.db).flatMap fun b =>
      farewell env userInfo (buddyJid env b)
  | some items => (items.filter fun item => decide (item.domain = env.jid.domain)).map fun item =>
      .setRoster userInfo.jid item true

/-- `handleUnregisterRemoteRosterResponse`. -/
def handleUnregisterRemoteRosterResponse (payload : Option (List Jid))
    (userInfo : Storage.UserInfo) : State :=
  let transport := match payload with
    | none => farewell env userInfo env.jid
    | some _ => [.setRoster userInfo.jid env.jid true]
  let stanzas := s.removals env payload userInfo
  let s := removeUser env { s with db := env.backend.removeUser userInfo.id s.db } userInfo.jid
  s.send (stanzas ++ transport ++ notify env "unregistered: " userInfo)

/-! ## Requests -/

/-- `XMPPUserRegistration::handleSetRequest`. -/
def handleSetRequest (sender : Jid) (p : Payload) : Option State := do
  match ← env.examine sender p s.db with
  | .refused e => return s.send [.error sender e]
  | .taken => return s.send [.error sender .notAcceptable]
  | .ignored => return s.send [.result sender]
  | .remove => return (← s.unregisterUser env sender.toBare.toString).send [.result sender]
  | .write false user => return (← s.registerUser env user false).send [.result sender]
  | .write true user =>
    return State.send { s with db := (env.backend.setUser user s.db).1 } [.result sender]

end State

/-! ## The machine -/

inductive Event
  | request (sender : Jid) (p : Payload)
  /-- A registration that is not asked for by the user himself. -/
  | register (row : Storage.UserInfo) (allowPasswordChange : Bool)
  | unregister (barejid : String)
  /-- A registered user without a `User` gets one. -/
  | login (barejid : String)
  | logout (barejid : String)
  /-- A buddy of the user comes into the queue. -/
  | store (barejid : String) (entry : Int × BuddyData)
  | tick (barejid : String)
  /-- The answer to a question, with the JIDs of the roster. -/
  | answer (i : Nat) (payload : Option (List Jid))

def step (env : Env) (s : State) : Event → Option State
  | .request sender p => s.handleSetRequest env sender p
  | .register row allowPasswordChange => s.registerUser env row allowPasswordChange
  | .unregister barejid => s.unregisterUser env barejid
  | .login barejid =>
    match s.users barejid, env.backend.getUser barejid s.db with
    | none, .found userInfo => some { s with
        users := fun j => if j = barejid then some { id := userInfo.id } else s.users j
        db := env.backend.setUserOnline userInfo.id true s.db }
    | _, _ => none
  | .logout barejid => some (s.removeUser env barejid)
  | .store barejid entry =>
    some { s with users := fun j =>
      if j = barejid then (s.users j).map fun u => { u with queue := u.queue ++ [entry] }
      else s.users j }
  | .tick barejid =>
    match s.users barejid with
    | none => some s
    | some u => some { s with
        users := fun j => if j = barejid then some { u with queue := [] } else s.users j
        db := State.storeBuddies env u s.db }
  | .answer i payload =>
    match s.pending[i]? with
    | none => none
    | some question =>
      let s := { s with pending := s.pending.eraseIdx i }
      match question with
      | .register row => some (s.handleRegisterRemoteRosterResponse env payload row)
      | .unregister userInfo => some (s.handleUnregisterRemoteRosterResponse env payload userInfo)

/-- Any storage, nobody is logged in. -/
def machine (env : Env) : Machine State Event where
  init s := ∃ db, s = { db := db }
  step := step env

end Spectrum.Registration
