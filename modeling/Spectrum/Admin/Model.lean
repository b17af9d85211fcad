import Spectrum.Slack.Registration
import Spectrum.Slack.Rooms

/-!
# The admin interface

A query is a line of words: `get` or `set`, the name of a command, the user for a command in user
context and the arguments. The base class checks the number of the arguments against a declared
list; the commands then read them by their index.

The figures that the code computes with floating point are texts here. A query that is stopped by an
exception, or by a pointer that is not that of a user, is stopped elsewhere.
-/

namespace Spectrum.Admin

open Lib

/-! ## Commands -/

inductive Category
  | general
  | users
  | messages
  | frontend
  | backends
  | memory
  deriving DecidableEq, Repr

/-- `AdminInterfaceCommand::getCategoryName`. -/
def Category.name : Category → String
  | .general => "General"
  | .users => "Users"
  | .messages => "Messages"
  | .frontend => "Frontend"
  | .backends => "Backends"
  | .memory => "Memory"

inductive Context
  | globalContext
  | userContext
  deriving DecidableEq, Repr

inductive Actions
  | none
  | get
  | set
  | execute
  deriving DecidableEq, Repr

inductive AccessMode
  | adminMode
  | userMode
  deriving DecidableEq, Repr

/-- The number of `UserContext` is 1. -/
def Context.bits : Context → Nat
  | .globalContext => 0
  | .userContext => 1

def Actions.bits : Actions → Nat
  | .none => 0
  | .get => 1
  | .set => 2
  | .execute => 4

/-- The number of `AdminMode` is 0. -/
def AccessMode.bits : AccessMode → Nat
  | .adminMode => 0
  | .userMode => 1

structure Arg where
  name : String
  label : String
  type : String := "string"
  sample : String := ""
  deriving DecidableEq, Repr

/-- `AdminInterfaceCommand`. -/
structure AdminInterfaceCommand where
  name : String
  category : Category
  context : Context := .globalContext
  accessMode : AccessMode := .adminMode
  actions : Actions
  label : String := ""
  desc : String
  args : List Arg := []

/-- Why a query does not come back. -/
inductive Stop
  | outOfRange
  | nullUser
  | elsewhere
  deriving DecidableEq, Repr

/-- `args[i]`. -/
def arg (args : List String) (i : Nat) : Except Stop String :=
  match args[i]? with
  | some a => .ok a
  | none => .error .outOfRange

namespace AdminInterfaceCommand

variable (c : AdminInterfaceCommand) (uinfo : Storage.UserInfo) (user : Option Storage.UserInfo)
  (args : List String)

/-- The command is for a user and there is none. -/
def NoUser : Prop := (user = none ∧ uinfo.id = -1) ∧ c.context.bits &&& Context.userContext.bits ≠ 0

instance : Decidable (c.NoUser uinfo user) := inferInstanceAs (Decidable (_ ∧ _))

def handleSetRequest : String :=
  if c.actions.bits &&& Actions.set.bits = 0 then "Error: This variable cannot be set."
  else if user ≠ none ∧ c.accessMode.bits &&& AccessMode.adminMode.bits ≠ 0 then
    "Error: You do not have rights to set this variable."
  else if c.NoUser uinfo user then "Error: This variable can be set only in user context."
  else if args = [] then "Error: Value is missing."
  else ""

def handleGetRequest : String :=
  if c.actions.bits &&& Actions.get.bits = 0 then "Error: This variable cannot be get."
  else if user ≠ none ∧ c.accessMode.bits &&& AccessMode.adminMode.bits ≠ 0 then
    "Error: You do not have rights to get this variable."
  else if c.NoUser uinfo user then "Error: This variable can be get only in user context."
  else ""

def handleExecuteRequest : String :=
  if c.actions.bits &&& Actions.execute.bits = 0 then
    "Error: This is not a command, but a variable."
  else if user ≠ none ∧ c.accessMode.bits &&& AccessMode.adminMode.bits ≠ 0 then
    "Error: You do not have rights to execute this command."
  else if c.NoUser uinfo user then "Error: This command can be executed only in user context."
  else if c.args.length > args.length then "Error: Argument is missing."
  else if c.args.length < args.length then "Error: Too many arguments."
  else ""

end AdminInterfaceCommand

/-- The classes of the commands that are registered somewhere. -/
inductive Kind
  | args
  | averageMemoryPerUser
  | backendsCount
  | commands
  | crashedBackends
  | crashedBackendsCount
  | getOAuth2URL
  | hasOnlineUser
  | help
  | joinRoom
  | leaveRoom
  | listRooms
  | messagesFromXMPP
  | messagesToXMPP
  | onlineUsers
  | onlineUsersCount
  | register
  | reload
  | resMemory
  | setOAuth2Code
  | shrMemory
  | status
  | unregister
  | uptime
  | usedMemory
  | variables
  deriving DecidableEq, Repr

/-- The texts of the configuration that `JoinRoomCommand` shows. -/
structure JoinLabels where
  nicknameLabel : String := "Nickname in 3rd-party room"
  nicknameExample : String := "BotNickname"
  roomLabel : String := "3rd-party room name"
  roomExample : String := "3rd-party room name"
  serverLabel : String := "3rd-party server"
  serverExample : String := "3rd.party.server.org"

/-- How the interface was set up. The constructors of two commands read three lines of
`getRegistrationFields`. -/
structure Setup where
  registrationFields : String
  threeLines : 3 ≤ (split '\n' registrationFields).length
  userRegistration : Bool
  slack : Option JoinLabels

/-- A `%` in front becomes a `#`. -/
def hashInFront (s : String) : String :=
  if s.toList.head? = some '%' then String.ofList ('#' :: s.toList.tail) else s

namespace Setup

variable (setup : Setup)

/-- The arguments of `RegisterCommand` and of `GetOAuth2URLCommand`. What is compared is the length
of the text. -/
def registrationArgs : List Arg :=
  let fields := setup.registrationFields
  let args := split '\n' fields
  [{ name := "username", label := args.getD 0 "" }] ++
    (if fields.utf8ByteSize > 1 then [{ name := "legacy_username", label := args.getD 1 "" }]
      else []) ++
    (if fields.utf8ByteSize > 2 then
      [{ name := "legacy_password", label := args.getD 2 "", type := "password" }] else [])

def joinRoomArgs (labels : JoinLabels) : List Arg :=
  [{ name := "nickname", label := labels.nicknameLabel, sample := labels.nicknameExample },
    { name := "legacy_room", label := hashInFront labels.roomLabel,
      sample := hashInFront labels.roomExample },
    { name := "legacy_server", label := labels.serverLabel, sample := labels.serverExample },
    { name := "slack_channel", label := "Slack Chanel", sample := "mychannel" }]

/-- The constructors of the commands. -/
def command : Kind → AdminInterfaceCommand
  | .args =>
    { name := "args", category := .general, actions := .execute, label := "Command's arguments",
      desc := "Shows description of arguments for command",
      args := [{ name := "command", label := "Command", sample := "register" }] }
  | .averageMemoryPerUser =>
    { name := "average_memory_per_user", category := .memory, actions := .get,
      desc := "(memory_used_without_any_user - res_memory)" }
  | .backendsCount =>
    { name := "backends_count", category := .backends, actions := .get,
      desc := "Number of active backends" }
  | .commands =>
    { name := "commands", category := .general, actions := .execute,
      label := "Available commands",
      desc := "Shows all the available commands with extended information." }
  | .crashedBackends =>
    { name := "crashed_backends", category := .backends, actions := .get,
      desc := "Returns IDs of crashed backends" }
  | .crashedBackendsCount =>
    { name := "crashed_backends_count", category := .backends, actions := .get,
      desc := "Returns number of crashed backends" }
  | .getOAuth2URL =>
    { name := "get_oauth2_url", category := .frontend, actions := .execute,
      desc := "get_oauth2_code - Get OAUth2 URL", args := setup.registrationArgs }
  | .hasOnlineUser =>
    { name := "has_online_user", category := .users, actions := .execute,
      label := "Has online user", desc := "Returns 1 if user is online",
      args := [{ name := "username", label := "Username", sample := "user@domain.tld" }] }
  | .help =>
    { name := "help", category := .general, actions := .execute, label := "Help",
      desc := "Shows help message" }
  | .joinRoom =>
    { name := "join_room", category := .frontend, context := .userContext,
      accessMode := .userMode, actions := .execute, label := "Join 3rd-party network room",
      desc := "Join the room", args := joinRoomArgs (setup.slack.getD {}) }
  | .leaveRoom =>
    { name := "leave_room", category := .frontend, context := .userContext,
      accessMode := .userMode, actions := .execute, label := "Leave 3rd-party network room",
      desc := "Leave the room",
      args := [{ name := "slack_channel", label := "Slack Chanel", sample := "mychannel" }] }
  | .listRooms =>
    { name := "list_rooms", category := .frontend, context := .userContext,
      accessMode := .userMode, actions := .execute, label := "List joined 3rd-party network rooms",
      desc := "List connected rooms" }
  | .messagesFromXMPP =>
    { name := "messages_from_xmpp", category := .messages, actions := .get,
      desc := "Returns number of messages received from frontend network" }
  | .messagesToXMPP =>
    { name := "messages_to_xmpp", category := .messages, actions := .get,
      desc := "Returns number of messages sent to Front network" }
  | .onlineUsers =>
    { name := "online_users", category := .users, actions := .execute, label := "Online users",
      desc := "Returns list of all online users" }
  | .onlineUsersCount =>
    { name := "online_users_count", category := .users, actions := .get,
      desc := "Number of online users" }
  | .register =>
    { name := "register", category := .users, accessMode := .userMode, actions := .execute,
      label := "Register", desc := "Registers the new user", args := setup.registrationArgs }
  | .reload =>
    { name := "reload", category := .general, actions := .execute,
      label := "Reload Spectrum 2 configuration", desc := "Reloads config file" }
  | .resMemory =>
    { name := "res_memory", category := .memory, actions := .get,
      desc := "Total RESident memory Spectrum 2 and its backends use in KB" }
  | .setOAuth2Code =>
    { name := "set_oauth2_code", category := .frontend, actions := .execute,
      desc := "set_oauth2_code <code> <state> - sets the OAuth2 code and state for this instance" }
  | .shrMemory =>
    { name := "shr_memory", category := .memory, actions := .get,
      desc := "Total SHaRed memory spectrum2 backends share together in KB" }
  | .status =>
    { name := "status", category := .general, actions := .get, desc := "Shows instance status" }
  | .unregister =>
    { name := "unregister", category := .users, context := .userContext, accessMode := .userMode,
      actions := .execute, label := "Unregister", desc := "Unregisters existing user" }
  | .uptime =>
    { name := "uptime", category := .general, actions := .get, desc := "Returns ptime in seconds" }
  | .usedMemory =>
    { name := "used_memory", category := .memory, actions := .get,
      desc := "(res_memory - shr_memory)" }
  | .variables =>
    { name := "variables", category := .general, actions := .execute,
      label := "Available variables", desc := "Shows all the available variables." }

/-- The commands that are added. -/
def registered : Kind → Bool
  | .register | .unregister => setup.userRegistration
  | .listRooms | .joinRoom | .leaveRoom => setup.slack.isSome
  | _ => true

/-- `m_commands`, in the order of the names. -/
def commands : List Kind :=
  [Kind.args, .averageMemoryPerUser, .backendsCount, .commands, .crashedBackends,
    .crashedBackendsCount, .getOAuth2URL, .hasOnlineUser, .help, .joinRoom, .leaveRoom, .listRooms,
    .messagesFromXMPP, .messagesToXMPP, .onlineUsers, .onlineUsersCount, .register, .reload,
    .resMemory, .setOAuth2Code, .shrMemory, .status, .unregister, .uptime, .usedMemory,
    .variables].filter setup.registered

/-- `m_commands.find`. -/
def find (name : String) : Option Kind :=
  setup.commands.find? fun k => decide ((setup.command k).name = name)

end Setup

end Spectrum.Admin
