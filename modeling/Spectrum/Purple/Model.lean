import Spectrum.Lib.InverseMaps
import Spectrum.Lib.Machine
import Spectrum.Lib.Text

/-!
# The libpurple backend

`SpectrumNetworkPlugin` of the libpurple backend: the accounts of the users that are logged in, in both
directions, and what the backend keeps for them between a request and its answer. The requests come
from the transport with the name of a user, the callbacks come from libpurple with an account.

Every function reads its maps with `operator[]`, which puts the default value under a key that is not
there: the null account under a user, the empty user under an account. `handleLoginRequest` uses `find`
before it reads.

The accounts of libpurple are numbered from one in the order of its list, in which those that it has
stored come first; zero is the null pointer. Which of them it finds for a name, and what a new one looks
like, is up to libpurple. The avatar, the options and the status that a login sets, and what a callback says besides its
account and its contact, are not modelled.
-/

namespace Spectrum.Purple

open Lib

abbrev AccountId := Nat

/-- `NULL`. -/
def null : AccountId := 0

/-- `PurpleAccount`, with the data that a login looks at. -/
structure Account where
  username : String
  protocolId : String
  password : Option String := none
  enabled : Bool := false
  deriving DecidableEq, Repr

/-- `authRequest`. The callbacks and their data are one number. -/
structure AuthRequest where
  userData : Nat
  who : String
  account : AccountId
  mainJid : String
  deriving DecidableEq, Repr

/-- `inputRequest`. -/
structure InputRequest where
  userData : Nat
  account : AccountId
  mainJid : String
  deriving DecidableEq, Repr

/-- Messages to the transport, by the function of `NetworkPlugin` that sends them. -/
inductive Report
  | connected
  | disconnected (error : Nat) (message : String)
  | buddyChanged (buddyName aliasName : String)
  | message (legacyName text nickname : String)
  | vcard (id : Nat) (legacyName : String)
  | authorization (buddyName : String)
  | buddyTyping (buddyName : String)
  | buddyTyped (buddyName : String)
  | buddyStoppedTyping (buddyName : String)
  | attention (buddyName : String)
  | roomList (rooms names : List String)
  deriving DecidableEq, Repr

inductive TypingState
  | typing
  | typed
  | notTyping
  deriving DecidableEq, Repr

/-- What is asked of libpurple for an account. -/
inductive Call
  | disconnect
  | send (conversation text : String)
  | sendTyping (buddyName : String) (state : TypingState)
  | sendAttention (buddyName : String)
  | getInfo (name : String)
  | updateBuddy (buddyName aliasName group : String)
  | removeBuddy (buddyName : String)
  | joinChat (room : String)
  | leaveChat (room : String)
  deriving DecidableEq, Repr

inductive Output
  | report (user : String) (r : Report)
  | call (account : AccountId) (c : Call)
  | authorize (userData : Nat)
  | deny (userData : Nat)
  | okCb (userData : Nat) (text : String)
  deriving DecidableEq, Repr

/-- The configuration, the plugins that are installed, and libpurple's and boost's functions:
`purple_accounts_find` with the position in the list, in which it finds an account, and the data of
`purple_account_new`. `hasInfo` says for a protocol whether its plugin has `get_info`. -/
structure Env where
  protocol : String
  noVcardFetch : Bool := false
  enableRemoveBuddy : Bool := true
  findPrpl : String → Bool
  hasInfo : String → Bool := fun _ => true
  accountsFind : List Account → String → String → Option Nat
  accountsFind_lt : ∀ accounts name protocol i,
    accountsFind accounts name protocol = some i → i < accounts.length
  accountNew : String → String → Account
  normalize : String → String → String
  toLower : String → String

/-- `SpectrumNetworkPlugin`, with the accounts of libpurple and what was done, in order. -/
structure State where
  purple : List Account := []
  sessions : SortedMap String AccountId := {}
  accounts : SortedMap AccountId String := {}
  vcards : SortedMap String Nat := {}
  authRequests : SortedMap String AuthRequest := {}
  inputRequests : SortedMap String InputRequest := {}
  rooms : SortedMap String (List String) := .empty
  adminLegacyName : String := ""
  done : List Output := []

namespace State

variable (env : Env) (s : State)

/-- `m_sessions[user]`. -/
def session (user : String) : AccountId := s.sessions.read null user

/-- `m_accounts[account]`. -/
def userOf (account : AccountId) : String := s.accounts.read "" account

def readSession (user : String) : State := { s with sessions := s.sessions.touch null user }

def readAccount (account : AccountId) : State :=
  { s with accounts := s.accounts.touch "" account }

def put (o : Output) : State := { s with done := s.done ++ [o] }

/-- `np->handleX(np->m_accounts[account], ...)`. -/
def report (account : AccountId) (r : Report) : State :=
  (s.readAccount account).put (.report (s.userOf account) r)

/-- The rooms of the user of an account, `m_rooms[np->m_accounts[account]]`. -/
def roomsOf (account : AccountId) : List String := s.rooms.read [] (s.userOf account)

def readRooms (account : AccountId) : State :=
  { s.readAccount account with rooms := s.rooms.touch [] (s.userOf account) }

/-- `LegacyNameToName`. -/
def legacyNameToName (account : AccountId) (legacyName : String) : String :=
  ((s.roomsOf account).find? fun room => env.toLower room == legacyName).getD legacyName

/-- `NameToLegacyName`. -/
def nameToLegacyName (account : AccountId) (name : String) : String :=
  if name ∈ s.roomsOf account then env.toLower name else name

/-- `purple_accounts_find`. -/
def accountsFind (name protocol : String) : AccountId :=
  ((env.accountsFind s.purple name protocol).map (· + 1)).getD null

/-- `purple_account_new` and `purple_accounts_add`. -/
def accountNew (name protocol : String) : State :=
  { s with purple := s.purple ++ [env.accountNew name protocol] }

def modifyAccount (account : AccountId) (f : Account → Account) : State :=
  { s with purple := s.purple.modify (account - 1) f }

end State

/-- `getProtocolAndName`, the name first. -/
def getProtocolAndName (env : Env) (legacyName : String) : String × String :=
  if env.protocol = "any" then (after '.' legacyName, before '.' legacyName)
  else (legacyName, env.protocol)

/-- The contact that talks for the transport, by protocol. -/
def adminName (protocol : String) : Option String :=
  if protocol = "prpl-hangouts" then some "hangouts"
  else if protocol = "prpl-steam-mobile" then some "steam-mobile"
  else if protocol = "prpl-eionrobb-discord" then some "discord"
  else if protocol = "telegram-tdlib" then some "telegram"
  else if protocol = "prpl-eionrobb-instagram" then some "instagram"
  else none

/-- The part of a name behind the slash. -/
def resourceName (name : String) : String := if '/' ∈ name.toList then after '/' name else ""

namespace State

variable (env : Env) (s : State)

/-- What a login does with its account. -/
def useAccount (user password protocol : String) (account : AccountId) (newAccount : Bool) :
    State :=
  let s := { s with
    sessions := s.sessions.set user account
    accounts := s.accounts.set account user }
  let s := s.modifyAccount account fun a =>
    { a with
      password := if newAccount || a.password.isNone then some password else a.password
      username := if env.protocol = "prpl-novell" then before '@' a.username else a.username
      enabled := true }
  if protocol = "prpl-hangouts" ∨ protocol = "prpl-steam-mobile" ∨
      protocol = "prpl-eionrobb-discord" then
    s.put (.report user (.buddyChanged s.adminLegacyName s.adminLegacyName))
  else s

/-- The account is in the map, with another user. -/
def isUsedByOther (user : String) (account : AccountId) : Bool :=
  (s.accounts.get account).any (· != user)

/-- The contact that talks for the transport. -/
def setAdminName (protocol : String) : State :=
  { s with adminLegacyName := (adminName protocol).getD s.adminLegacyName }

/-- A login with a name and a protocol. -/
def logIn (user name protocol password : String) : State :=
  if env.findPrpl protocol = false then
    s.put (.report user (.disconnected 1 ("Invalid protocol " ++ protocol)))
  else if s.accountsFind env name protocol ≠ null then
    let account := s.accountsFind env name protocol
    if s.isUsedByOther user account then
      s.put (.report user (.disconnected 1
        ("Account '" ++ name ++ "' is already used by '" ++ s.userOf account ++ "'")))
    else s.useAccount env user password protocol account false
  else (s.accountNew env name protocol).useAccount env user password protocol (s.purple.length + 1) true

def handleLoginRequest (user legacyName password : String) : State :=
  let name := (getProtocolAndName env legacyName).1
  let protocol := (getProtocolAndName env legacyName).2
  (s.setAdminName protocol).logIn env user name protocol password

/-- The requests that do something with the account of a user who has one. -/
def withAccount (user : String) (f : AccountId → State → State) : State :=
  let s := s.readSession user
  if s.session user = null then s else f (s.session user) s

/-- A request that only calls libpurple. -/
def callFor (user : String) (c : Call) : State :=
  s.withAccount user fun account s => s.put (.call account c)

def handleTypingRequest (user buddyName : String) : State :=
  s.callFor user (.sendTyping buddyName .typing)

def handleTypedRequest (user buddyName : String) : State :=
  s.callFor user (.sendTyping buddyName .typed)

def handleStoppedTypingRequest (user buddyName : String) : State :=
  s.callFor user (.sendTyping buddyName .notTyping)

def handleAttentionRequest (user buddyName : String) : State :=
  s.callFor user (.sendAttention buddyName)

/-- `handleMessageSendRequest`. A message to the contact that talks for the transport answers an open
input request. -/
def handleMessageSendRequest (user legacyName text : String) : State :=
  s.withAccount user fun account s =>
    let name := s.legacyNameToName env account legacyName
    let s := s.readRooms account
    if legacyName = s.adminLegacyName then
      (s.inputRequests.get user).elim s fun req =>
        { s.put (.okCb req.userData text) with inputRequests := s.inputRequests.erase user }
    else s.put (.call account (.send name text))

/-- The protocol of an account. -/
def protocolOf (account : AccountId) : String :=
  (s.purple.getD (account - 1) ⟨"", "", none, false⟩).protocolId

/-- `purple_normalize` with the account. -/
def normalized (account : AccountId) (who : String) : String :=
  env.normalize (s.protocolOf account) who

/-- `notify_user_info`. -/
def notifyUserInfo (account : AccountId) (who : String) : State :=
  let name := before '/' (s.normalized env account who)
  let key := s.userOf account ++ name
  let s := s.report account (.vcard (s.vcards.read 0 key) name)
  { s with vcards := (s.vcards.touch 0 key).erase key }

/-- The name a vCard request asks for. -/
def vcardName (legacyName : String) : String :=
  if env.protocol = "any" ∧ "prpl-".toList.isPrefixOf legacyName.toList then after '.' legacyName
  else legacyName

/-- `handleVCardRequest`. Without a plugin that can be asked the answer is empty and comes at once. -/
def handleVCardRequest (user legacyName : String) (id : Nat) : State :=
  s.withAccount user fun account s =>
    let name := vcardName env legacyName
    let s := { s with vcards := s.vcards.set (user ++ name) id }
    let known := s.purple.getD (account - 1) ⟨"", "", none, false⟩
    if env.hasInfo known.protocolId = false ∨ (env.noVcardFetch ∧ name ≠ known.username) then
      s.notifyUserInfo env account name
    else s.put (.call account (.getInfo name))

/-- `AuthRequestList::accept`, or `deny` with the other callback. -/
def answerAuth (answer : Nat → Output) (user buddyName : String) : State :=
  (s.authRequests.get (user ++ buddyName)).elim s fun req =>
    { s.put (answer req.userData) with
      authRequests := s.authRequests.erase (user ++ buddyName) }

def handleBuddyUpdatedRequest (user buddyName aliasName : String) (groups : List String) : State :=
  s.withAccount user fun account s =>
    (s.answerAuth .authorize user buddyName).put
      (.call account (.updateBuddy buddyName aliasName (groups.headD "")))

def handleBuddyRemovedRequest (user buddyName : String) : State :=
  s.withAccount user fun account s =>
    let s := s.answerAuth .deny user buddyName
    if env.enableRemoveBuddy then s.put (.call account (.removeBuddy buddyName)) else s

def handleJoinRoomRequest (user room : String) : State :=
  s.withAccount user fun account s =>
    (s.readRooms account).put (.call account (.joinChat (s.legacyNameToName env account room)))

def handleLeaveRoomRequest (user room : String) : State :=
  s.withAccount user fun account s =>
    (s.readRooms account).put (.call account (.leaveChat (s.legacyNameToName env account room)))

end State

/-- The callbacks of libpurple, with the account they come with. A request that is closed comes with
what `accountRequestAuth` returned for it. -/
inductive Callback
  | signedOn (account : AccountId)
  | reportDisconnect (account : AccountId) (reason : Nat) (text : String)
  | writeIm (account : AccountId) (who text : String)
  | writeChat (account : AccountId) (conversation who text : String)
  | buddyTyping (account : AccountId) (who : String)
  | buddyTyped (account : AccountId) (who : String)
  | buddyTypingStopped (account : AccountId) (who : String)
  | gotAttention (account : AccountId) (who : String)
  | requestAuth (account : AccountId) (who : String) (userData : Nat)
  | requestClose (req : AuthRequest)
  | requestInput (account : AccountId) (primary : String) (userData : Nat)
  | notifyUserInfo (account : AccountId) (who : String)
  | roomList (account : AccountId) (list : List (String × String))
  deriving DecidableEq, Repr

def Callback.account : Callback → AccountId
  | .signedOn a | .reportDisconnect a _ _ | .writeIm a _ _ | .writeChat a _ _ _ | .buddyTyping a _
  | .buddyTyped a _ | .buddyTypingStopped a _ | .gotAttention a _ | .requestAuth a _ _
  | .requestInput a _ _ | .notifyUserInfo a _ | .roomList a _ => a
  | .requestClose req => req.account

/-- The messages with which `requestInput` asks the user, if it does not know the answer. -/
def prompts (primary : String) : Option (List String) :=
  if "https://accounts.google.com/o/oauth2/auth".toList.isPrefixOf primary.toList ∨
      "https://www.youtube.com/watch?v=hlDhp-eNLMU".toList.isPrefixOf primary.toList then
    some ["Please visit the following link and authorize this application: " ++ primary,
      "Reply with code provided by Google: "]
  else if primary = "Set your Steam Guard Code" ∨ primary = "Steam two-factor authentication" then
    some ["Steam Guard code: "]
  else if primary = "Enter Discord auth code" then some ["2FA code: "]
  else if "Enter authentication code".toList.isPrefixOf primary.toList then
    some ["Authentication code: "]
  else if "Enter the six-digit code".toList.isPrefixOf primary.toList then
    some ["Verification code: "]
  else none

/-- The answer that `requestInput` gives by itself. -/
def ownAnswer (primary : String) : Option String :=
  if primary = "Authorization Request Message:" then some "Please authorize me."
  else if primary = "Authorization Denied Message:" then some "Authorization denied."
  else none

namespace State

variable (env : Env) (s : State)

/-- `requestInput`. -/
def requestInput (account : AccountId) (primary : String) (userData : Nat) : State :=
  match ownAnswer primary with
  | some answer => s.put (.okCb userData answer)
  | none =>
    match prompts primary with
    | none => s
    | some texts =>
      let s := texts.foldl (fun s text => s.report account (.message s.adminLegacyName text "")) s
      { s.readAccount account with
        inputRequests := s.inputRequests.set (s.userOf account)
          ⟨userData, account, s.userOf account⟩ }

/-- `accountRequestAuth`. -/
def accountRequestAuth (account : AccountId) (who : String) (userData : Nat) : State :=
  let user := s.userOf account
  let s := s.readAccount account
  { s.put (.report user (.authorization who)) with
    authRequests := s.authRequests.set (user ++ who) ⟨userData, who, account, user⟩ }

/-- `roomlist_set_in_progress` once the list is there, with the room and the topic of each entry. -/
def roomlistFetched (account : AccountId) (list : List (String × String)) : State :=
  let user := s.userOf account
  let known := s.rooms.read [] user ++ list.map Prod.fst
  { (s.readAccount account).put (.report user (.roomList known (list.map Prod.snd))) with
    rooms := s.rooms.set user known }

def handleCallback : Callback → State
  | .signedOn a => s.report a .connected
  | .reportDisconnect a reason text => s.report a (.disconnected reason text)
  | .writeIm a who text =>
    let name := s.normalized env a who
    s.report a (.message (before '/' name) text (resourceName name))
  | .writeChat a conversation who text =>
    (s.readRooms a).report a (.message (s.nameToLegacyName env a conversation) text who)
  | .buddyTyping a who => s.report a (.buddyTyping (before '/' (s.normalized env a who)))
  | .buddyTyped a who => s.report a (.buddyTyped (before '/' (s.normalized env a who)))
  | .buddyTypingStopped a who =>
    s.report a (.buddyStoppedTyping (before '/' (s.normalized env a who)))
  | .gotAttention a who => s.report a (.attention (before '/' (s.normalized env a who)))
  | .requestAuth a who userData => s.accountRequestAuth a who userData
  | .requestClose req => { s with authRequests := s.authRequests.erase (req.mainJid ++ req.who) }
  | .requestInput a primary userData => s.requestInput a primary userData
  | .notifyUserInfo a who => s.notifyUserInfo env a who
  | .roomList a list => s.roomlistFetched a list

/-- `handleLogoutRequest`. While the account is disconnected, libpurple makes callbacks for it: the user
has no session then, and the account has its user still. -/
def handleLogoutRequest (user : String) (during : List Callback) : State :=
  s.withAccount user fun account s =>
    let s := { s with sessions := s.sessions.erase user }
    let s := during.foldl (handleCallback env) (s.put (.call account .disconnect))
    let s := s.modifyAccount account fun a => { a with enabled := false }
    { s with accounts := s.accounts.erase account }

end State

/-- The requests for a user who is logged in. -/
inductive Request
  | typing (buddyName : String)
  | typed (buddyName : String)
  | stoppedTyping (buddyName : String)
  | attention (buddyName : String)
  | messageSend (legacyName text : String)
  | vcard (legacyName : String) (id : Nat)
  | buddyUpdated (buddyName aliasName : String) (groups : List String)
  | buddyRemoved (buddyName : String)
  | joinRoom (room : String)
  | leaveRoom (room : String)
  deriving DecidableEq, Repr

def State.handleRequest (env : Env) (s : State) (user : String) : Request → State
  | .typing buddyName => s.handleTypingRequest user buddyName
  | .typed buddyName => s.handleTypedRequest user buddyName
  | .stoppedTyping buddyName => s.handleStoppedTypingRequest user buddyName
  | .attention buddyName => s.handleAttentionRequest user buddyName
  | .messageSend legacyName text => s.handleMessageSendRequest env user legacyName text
  | .vcard legacyName id => s.handleVCardRequest env user legacyName id
  | .buddyUpdated buddyName aliasName groups =>
    s.handleBuddyUpdatedRequest user buddyName aliasName groups
  | .buddyRemoved buddyName => s.handleBuddyRemovedRequest env user buddyName
  | .joinRoom room => s.handleJoinRoomRequest env user room
  | .leaveRoom room => s.handleLeaveRoomRequest env user room

inductive Event
  | login (user legacyName password : String)
  | logout (user : String) (during : List Callback)
  | request (user : String) (r : Request)
  | callback (c : Callback)
  deriving DecidableEq, Repr

/-- Callbacks come with an account of libpurple, those of a disconnection with the account that is
disconnected. -/
def step (env : Env) (s : State) : Event → Option State
  | .login user legacyName password => some (s.handleLoginRequest env user legacyName password)
  | .logout user during =>
    if ∀ c ∈ during, c.account = s.session user then some (s.handleLogoutRequest env user during)
    else none
  | .request user r => some (s.handleRequest env user r)
  | .callback c =>
    if null < c.account ∧ c.account ≤ s.purple.length then some (s.handleCallback env c) else none

/-- The backend has just been started, with the accounts that libpurple has stored. -/
def Fresh (s : State) : Prop := ∃ stored, s = { purple := stored }

def machine (env : Env) : Machine State Event where
  init := Fresh
  step := step env

end Spectrum.Purple
