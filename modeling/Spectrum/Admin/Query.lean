import Spectrum.Admin.Model

/-!
# Queries

`AdminInterface::handleQuery` and what the commands do when the base class lets them.
-/

namespace Spectrum.Admin

open Lib

/-- What is known of a backend. -/
structure Process where
  res : Nat
  initRes : Nat
  deriving DecidableEq, Repr

/-- What the commands read and change. `storage` is missing when the configuration has no database.
`users` are the users that are online. -/
structure Service where
  setup : Setup
  users : List (String × Storage.UserInfo) := []
  storage : Option Storage.Backend
  db : Storage.Db := .empty
  processes : List Process := []
  crashedBackends : List String := []
  messagesToBackend : Nat := 0
  messagesToXMPP : Nat := 0
  uptime : Nat := 0
  resMemory : String := "0"
  shrMemory : String := "0"
  usedMemory : String := "0"
  reloads : Bool := true
  oauth2URL : String := ""
  oauth2Code : String → String → String := fun _ _ => ""
  lower : String → String := id

/-- `UserInfo` before `getUser` fills it in. -/
def noUserInfo : Storage.UserInfo where
  id := -1
  jid := ""
  uin := ""
  password := []
  language := ""
  encoding := ""
  vip := false

namespace Service

variable (s : Service)

/-- `UserManager::getUser`. -/
def getUser (barejid : String) : Option Storage.UserInfo :=
  (s.users.find? fun u => decide (u.1 = barejid)).map Prod.snd

/-! ## Variables -/

/-- The variables, after the base class. Commands have no value. -/
def value : Kind → String
  | .status => "Running (" ++ toString s.users.length ++ " users connected using " ++
      toString s.processes.length ++ " backends)"
  | .uptime => toString s.uptime
  | .onlineUsersCount => toString s.users.length
  | .backendsCount => toString s.processes.length
  | .resMemory => s.resMemory
  | .shrMemory => s.shrMemory
  | .usedMemory => s.usedMemory
  | .averageMemoryPerUser =>
    if s.users.length = 0 then "0"
    else
      let perUser := s.processes.foldl (fun perUser p => perUser + (p.res - p.initRes)) 0
      toString (perUser / s.users.length)
  | .crashedBackendsCount => toString s.crashedBackends.length
  | .crashedBackends => s.crashedBackends.foldl (fun lst b => lst ++ b ++ "\n") ""
  | .messagesFromXMPP => toString s.messagesToBackend
  | .messagesToXMPP => toString s.messagesToXMPP
  | _ => ""

/-- `handleGetRequest` of the commands. None of them looks at the user or the arguments. -/
def handleGetRequest (k : Kind) (uinfo : Storage.UserInfo) (user : Option Storage.UserInfo) :
    String :=
  let ret := (s.setup.command k).handleGetRequest uinfo user
  if ret ≠ "" then ret else s.value k

/-! ## Commands -/

/-- The loop of `OnlineUsersCommand` asks the user of the query for the name, and not the one that
it has come to. -/
def onlineUsers (user : Option Storage.UserInfo) : Except Stop String :=
  s.users.foldlM (fun ret u => match user with
    | none => .error .nullUser
    | some user =>
      .ok (ret ++ u.1 ++ " \"3rd-party network username:\" \"" ++ user.uin ++ "\"\n"))
    (if s.users = [] then "hanzz@njs.netlab.cz \"3rd-party network username:\" \"me\"\n" else "")

def hasOnlineUser (args : List String) : Except Stop String :=
  if args = [] then .ok "Error: Missing user name as an argument"
  else do
    let name ← arg args 0
    return if s.getUser name ≠ none then "1" else "0"

/-- `UserRegistration::registerUser`. Without a storage the pointer is not valid. -/
def registerUser (user : Storage.UserInfo) : Except Stop (Service × Bool) :=
  match s.storage with
  | none => .error .elsewhere
  | some b =>
    match b.getUser user.jid s.db with
    | .throws => .error .elsewhere
    | .notFound => .ok ({ s with db := (b.setUser user s.db).1 }, true)
    | .found _ => .ok (s, false)

/-- `UserRegistration::unregisterUser`, which also disconnects the user. -/
def unregisterUser (barejid : String) : Except Stop (Service × Bool) :=
  match s.storage with
  | none => .error .elsewhere
  | some b =>
    match b.getUser barejid s.db with
    | .throws => .error .elsewhere
    | .notFound => .ok (s, false)
    | .found user =>
      .ok ({ s with
        db := b.removeUser user.id s.db
        users := s.users.filter fun u => decide (u.1 ≠ barejid) }, true)

def register (args : List String) : Except Stop (Service × String) :=
  if args.length ≠ 2 ∧ args.length ≠ 3 then .ok (s, "Error: Bad argument count")
  else do
    let jid ← arg args 0
    let uin ← arg args 1
    let password ← if args.length = 2 then .ok "" else arg args 2
    let (s, done) ← s.registerUser
      { jid, uin, password := password.toUTF8.toList, language := "en", encoding := "utf-8",
        vip := false }
    return (s, if done then "User registered" else "Error: User is already registered")

/-- The name of the user is no longer among the arguments. -/
def unregister (uinfo : Storage.UserInfo) (args : List String) : Except Stop (Service × String) := do
  let (s, done) ← s.unregisterUser uinfo.jid
  let name ← arg args 0
  return (s, if done then "User '" ++ name ++ "' unregistered."
    else "Error: User '" ++ name ++ "' is not registered")

def setOAuth2Code (args : List String) : Except Stop String :=
  if args.length ≠ 2 then .ok "Error: Bad argument count"
  else do
    let code ← arg args 0
    let state ← arg args 1
    return if s.oauth2Code code state = "" then "" else "OAuth2 code and state set."

/-- `Frontend::getOAuth2URL`. `SlackUserRegistration::createOAuth2URL` logs two arguments. -/
def getOAuth2URL (args : List String) : Except Stop String :=
  if s.setup.slack.isNone then .ok ""
  else if 3 ≤ args.length then do
    let _ ← arg args 1
    let _ ← arg args 2
    return s.oauth2URL
  else .ok s.oauth2URL

/-- `HelpCommand::generateCategory`. -/
def generateCategory (category : Category) : String :=
  let commands := (s.setup.commands.map s.setup.command).filter
    fun c => decide (c.category = category)
  commands.foldl (fun output c =>
    output ++ (if c.actions.bits &&& Actions.execute.bits ≠ 0 then "   CMD   " else "   VAR   ") ++
      c.name ++ " - " ++ c.desc ++ "\n") (category.name ++ ":\n")

def help : String :=
  [Category.general, .users, .messages, .frontend, .backends, .memory].foldl
    (fun help category => help ++ s.generateCategory category) ""

/-- How `commands` and `variables` end their lines. -/
def accessAndContext (c : AdminInterfaceCommand) : String :=
  " Category: " ++ c.category.name ++
    " AccesMode:" ++ (if c.accessMode = .userMode then " User" else " Admin") ++
    " Context:" ++ (if c.context = .userContext then " User" else " Global")

def listCommands : String :=
  s.setup.commands.foldl (fun output k =>
    let c := s.setup.command k
    if c.actions.bits &&& Actions.execute.bits = 0 then output
    else output ++ c.name ++ " - \"" ++ c.desc ++ "\"" ++ accessAndContext c ++ " Label: \"" ++
      (if c.label = "" then c.name else c.label) ++ "\"\n") ""

def listVariables (uinfo : Storage.UserInfo) (user : Option Storage.UserInfo) : String :=
  s.setup.commands.foldl (fun output k =>
    let c := s.setup.command k
    if c.actions.bits &&& Actions.get.bits = 0 then output
    else output ++ c.name ++ " - \"" ++ c.desc ++ "\"" ++
      " Value: \"" ++ s.handleGetRequest k uinfo user ++ "\"" ++
      (if c.actions.bits &&& Actions.set.bits = 0 then " Read-only: true"
        else " Read-only: false") ++ accessAndContext c ++ "\n") ""

/-- `ArgsCommand::handleExecuteRequest`. -/
def describeArgs (args : List String) : Except Stop String := do
  let name ← arg args 0
  match s.setup.find name with
  | none => return "Error: Unknown command passed as an argument."
  | some k =>
    return (s.setup.command k).args.foldl (fun ret a => ret ++ a.name ++ " - \"" ++ a.label ++
      "\" Example: \"" ++ a.sample ++ "\" Type: \"" ++ a.type ++ "\"\n") ""

/-! ## Commands of the Slack frontend -/

/-- The setting `rooms`. Without a storage nobody has an id. -/
def rooms (id : Int) : Except Stop (Storage.Backend × Storage.Db × String) :=
  match s.storage with
  | none => .error .elsewhere
  | some b =>
    let (db, _, rooms) := b.getUserSetting id "rooms" (Storage.typeString, "") s.db
    .ok (b, db, rooms)

def listRooms (uinfo : Storage.UserInfo) : Except Stop (Service × String) :=
  if uinfo.id = -1 then .ok (s, "Error: Unknown user")
  else do
    let (_, db, rooms) ← s.rooms uinfo.id
    return ({ s with db }, rooms)

/-- `SlackSession::handleJoinMessage` looks for the channel behind five other words. -/
def handleJoinMessage (args : List String) : Except Stop Slack.ChannelRequest :=
  match Slack.handleJoinMessage s.lower args with
  | none => .error .outOfRange
  | some request => .ok request

def joinRoom (uinfo : Storage.UserInfo) (user : Option Storage.UserInfo) (args : List String) :
    Except Stop (Service × String) :=
  if uinfo.id = -1 then .ok (s, "Error: Unknown user")
  else do
    let (b, db, rooms) ← s.rooms uinfo.id
    let nickname ← arg args 0
    let room ← arg args 1
    let server ← arg args 2
    let channel ← arg args 3
    let rooms := rooms ++ ("connected room " ++ nickname ++ " " ++ room ++ " " ++ server ++ " " ++
      channel ++ "\n")
    let db := b.updateUserSetting uinfo.id "rooms" rooms db
    match user with
    | none => return ({ s with db }, "Joined the room")
    | some _ =>
      let _ ← s.handleJoinMessage args
      return ({ s with db }, "Joined the room")

/-- What the session of the user does is left out. -/
def leaveRoom (uinfo : Storage.UserInfo) (args : List String) : Except Stop (Service × String) :=
  if uinfo.id = -1 then .ok (s, "Error: Unknown user")
  else do
    let (b, db, rooms) ← s.rooms uinfo.id
    let channel ← arg args 0
    let rooms := (split '\n' rooms).foldl (fun rooms command =>
      if Slack.staysAfter channel command then rooms ++ command ++ "\n" else rooms) ""
    return ({ s with db := b.updateUserSetting uinfo.id "rooms" rooms db }, "Left the room")

/-! ## The query -/

/-- A command that changes nothing. -/
def answers (answer : Except Stop String) : Except Stop (Service × String) := do
  let text ← answer
  return (s, text)

/-- The commands, after the base class. Variables are not executed. -/
def execute (k : Kind) (uinfo : Storage.UserInfo) (user : Option Storage.UserInfo)
    (args : List String) : Except Stop (Service × String) :=
  match k with
  | .onlineUsers => s.answers (s.onlineUsers user)
  | .reload => .ok (s,
      if s.reloads then "Config reloaded" else "Error: Error during config reload")
  | .hasOnlineUser => s.answers (s.hasOnlineUser args)
  | .register => s.register args
  | .unregister => s.unregister uinfo args
  | .setOAuth2Code => s.answers (s.setOAuth2Code args)
  | .getOAuth2URL => s.answers (s.getOAuth2URL args)
  | .help => .ok (s, s.help)
  | .commands => .ok (s, s.listCommands)
  | .variables => .ok (s, s.listVariables uinfo user)
  | .args => s.answers (s.describeArgs args)
  | .listRooms => s.listRooms uinfo
  | .joinRoom => s.joinRoom uinfo user args
  | .leaveRoom => s.leaveRoom uinfo args
  | _ => .ok (s, "")

def handleExecuteRequest (k : Kind) (uinfo : Storage.UserInfo) (user : Option Storage.UserInfo)
    (args : List String) : Except Stop (Service × String) :=
  let ret := (s.setup.command k).handleExecuteRequest uinfo user args
  if ret ≠ "" then .ok (s, ret) else s.execute k uinfo user args

/-- The request for a command. -/
def perform (action : Actions) (k : Kind) (uinfo : Storage.UserInfo)
    (user : Option Storage.UserInfo) (args : List String) : Except Stop (Service × String) :=
  match action with
  | .none => .ok (s, "Error: Unknown variable or command")
  | .get => .ok (s, s.handleGetRequest k uinfo user)
  | .set => .ok (s, (s.setup.command k).handleSetRequest uinfo user args)
  | .execute => s.handleExecuteRequest k uinfo user args

/-- What the database knows of the user of the query. -/
def lookUp (name : String) : Except Stop Storage.UserInfo :=
  match s.storage with
  | none => .ok noUserInfo
  | some b =>
    match b.getUser name s.db with
    | .throws => .error .elsewhere
    | .notFound => .ok noUserInfo
    | .found user => .ok user

/-- The part of `handleQuery` that has found the command. -/
def dispatch (action : Actions) (k : Kind) (args : List String) : Except Stop (Service × String) :=
  let c := s.setup.command k
  -- Without `get` and `set` the command decides.
  let action :=
    if action = .none then
      if c.actions.bits &&& Actions.get.bits ≠ 0 then .get
      else if c.actions.bits &&& Actions.execute.bits ≠ 0 then .execute
      else .none
    else action
  if c.context = .userContext then
    match args with
    | [] => .ok (s, "Error: No username given")
    | name :: args => do
      let uinfo ← s.lookUp name
      s.perform action k uinfo (s.getUser name) args
  else s.perform action k noUserInfo none args

/-- `get` and `set` in front of the command. -/
def actionOf : List String → Actions × List String
  | "set" :: args => (.set, args)
  | "get" :: args => (.get, args)
  | args => (.none, args)

/-- `AdminInterface::handleQuery`. -/
def handleQuery (body : String) : Except Stop (Service × String) :=
  match actionOf (split ' ' body) with
  | (_, []) => .ok (s, "Error: Unknown variable or command")
  | (action, name :: args) =>
    match s.setup.find name with
    | none => .ok (s, "Error: Unknown variable or command")
    | some k => s.dispatch action k args

end Service

end Spectrum.Admin
