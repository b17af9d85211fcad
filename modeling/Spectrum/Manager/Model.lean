import Mathlib.Data.List.Infix
import Spectrum.Lib.Machine
import Spectrum.Lib.SortedMap
import Spectrum.Manager.Listing

/-!
# The web interface of the manager

`Server` keeps the sessions of the users who have logged in, by the ids in their cookies, and
`APIServer` acts for them: it sends commands to the instances, and keeps in its own database under which
name a user is registered at an instance.

A request carries the variables, the time, what `rand` returns, what the instances answer to the commands
that are sent for it, and what is in an `id` that `getUser` does not fill in. The clock stands still while
a request is handled. A request is not handled if the program does not survive it: an exception, a null
pointer, or a URI that is shorter than the base location.
-/

namespace Spectrum.Manager

open Lib Storage

/-! ## Data -/

/-- `Server::session`. -/
structure Session where
  id : String
  random : String
  user : String
  expire : Nat
  admin : Bool
  deriving DecidableEq, Repr

/-- The configuration: `m_user` and `m_password` are those of the administrator. -/
structure Env where
  user : String
  password : String
  baseLocation : String := "/"
  md5 : String → String
  storage : Option Storage.Backend

/-- An instance that `show_list` finds, with two options of its configuration. -/
structure Instance where
  id : String
  name : String := ""
  frontend : String := "xmpp"

structure Request where
  uri : String
  cookie : String := ""
  var : String → String := fun _ => ""
  now : Nat
  random : Nat := 0
  junk : Int := 0
  /-- The answer to a command, after so many others for this request. -/
  ask : Nat → String → String → String := fun _ _ _ => ""
  instances : List Instance := []
  /-- What `start_instances` and `stop_instances` say. -/
  manage : String → String := fun _ => ""

/-- An entry of the list of the instances. -/
structure Entry where
  id : String
  name : String
  status : String
  running : Bool
  username : String
  frontend : String
  deriving DecidableEq, Repr

inductive Effect
  | command (instance_ cmd response : String)
  | start (instance_ : String)
  | stop (instance_ : String)
  | loggedIn (session : Session)
  | loggedOut (session : Session)
  | redirect (where_ : String)
  | ack (error : Bool) (message : String)
  | instances (entries : List Entry)
  | oauth2URL (url : String)
  | commands (cmds : List Command)
  | variables_ (vars : List Variable)
  | args (list : List Admin.Arg)
  | table (rows : List (List (String × String))) (message : String)
  | users (jids : List String)
  | file (uri : String)
  deriving DecidableEq

structure State where
  sessions : SortedMap String Session := {}
  db : Db := .empty
  /-- The requests with what they did, newest first. -/
  done : List (Request × List Effect) := []

/-- `SESSION_TTL`. -/
def sessionTTL : Nat := 120

/-! ## Texts -/

def startsWith (start s : String) : Bool := start.toList.isPrefixOf s.toList

/-- `uri.substr(uri.rfind("/") + 1)`. -/
def lastPart (uri : String) : String := .ofList (uri.toList.rtakeWhile (· ≠ '/'))

def isSpace (c : Char) : Bool := c == ' ' || ('\t' ≤ c && c ≤ '\r')

/-- `boost::trim`. -/
def trim (s : String) : String := .ofList ((s.toList.rdropWhile isSpace).dropWhile isSpace)

/-- `s.find(part) != npos`. -/
def contains (part s : String) : Bool := decide (part.toList <:+: s.toList)

namespace Request

variable (r : Request)

/-- `Server::send_command`. -/
def sendCommand (n : Nat) (instance_ cmd : String) : String :=
  let response := r.ask n instance_ cmd
  if response = "Empty response" then "" else response

/-- The variables `command_arg0` to `command_arg9`, in front of each a space. -/
def commandArgs : String :=
  (List.range 10).foldl (fun command i =>
    let var := r.var ("command_arg" ++ toString i)
    if var = "" then command else command ++ (" " ++ var)) ""

end Request

/-! ## `APIServer` -/

/-- What a handler does: what is in the database then, and what it did. None if the program does not
survive it. -/
abbrev Outcome := Option (Db × List Effect)

section Handlers

variable (storage : Option Storage.Backend) (r : Request) (session : Session) (db : Db)

/-- The id of the user of the session and the name under which he is registered at an instance. -/
def username (instance_ : String) : Option (Int × Db × String) := do
  let b ← storage
  let id ← SlackRegistration.getUserId b session.user r.junk db
  let (db, _, username) := b.getUserSetting id instance_ (typeString, "") db
  return (id, db, username)

/-- The loop of `serve_instances`. -/
def listInstances : Nat → List Instance → Db → Option (Db × List Effect × List Entry)
  | _, [], db => some (db, [], [])
  | n, i :: is, db => do
    let response := r.sendCommand n i.id "status"
    let status := if response = "" then "Cannot get the instance status." else response
    let (_, db, username) ← username storage r session db i.id
    let (db, effects, entries) ← listInstances (n + 1) is db
    let entry : Entry :=
      { id := i.id, name := if i.name = "" ∨ i.name = "Spectrum 2 Transport" then i.id else i.name,
        status, running := contains "Running" status, username, frontend := i.frontend }
    return (db, .command i.id "status" response :: effects, entry :: entries)

def serveInstances : Outcome := do
  let (db, effects, entries) ← listInstances storage r session 0 r.instances db
  return (db, effects ++ [.instances entries])

/-- `ALLOW_ONLY_ADMIN`. -/
def allowOnlyAdmin (outcome : Outcome) : Outcome :=
  if session.admin then outcome else some (db, [.ack true "Only administrators can do this API call."])

def serveInstancesStart (uri : String) : Outcome :=
  let instance_ := lastPart uri
  let response := r.manage instance_
  allowOnlyAdmin session db
    (some (db, [.start instance_, .ack (!contains "OK" response) response]))

def serveInstancesStop (uri : String) : Outcome :=
  let instance_ := lastPart uri
  let response := r.manage instance_
  allowOnlyAdmin session db
    (some (db, [.stop instance_, .ack (!contains "OK" response) response]))

def serveInstancesUnregister (uri : String) : Outcome := do
  let b ← storage
  let instance_ := lastPart uri
  let (id, db, username) ← username storage r session db instance_
  let username := if username = "" ∧ session.admin then r.var "command_arg0" else username
  if username = "" then
    return (db, [.ack true "You are not registered to this Spectrum 2 instance."])
  let cmd := "unregister " ++ username
  let response := r.sendCommand 0 instance_ cmd
  if response = "" then
    return (db, [.command instance_ cmd response, .ack true "Unknown error."])
  return (b.updateUserSetting id instance_ "" db,
    [.command instance_ cmd response, .ack false response])

/-- The part of `serve_instances_register` that has the data. `sent` are the commands before. -/
def registerWith (b : Storage.Backend) (id : Int) (instance_ jid uin password : String) (sent : List Effect) : Outcome :=
  let data := jid ++ " " ++ uin ++ " " ++ password
  let url := r.sendCommand sent.length instance_ ("get_oauth2_url " ++ data)
  let sent := sent ++ [.command instance_ ("get_oauth2_url " ++ data) url]
  if url ≠ "" ∧ startsWith "Error:" url = false then some (db, sent ++ [.oauth2URL url])
  else
    let response := r.sendCommand sent.length instance_ ("register " ++ data)
    let sent := sent ++ [.command instance_ ("register " ++ data) response]
    if response = "" then some (db, sent ++ [.ack true response])
    else some (b.updateUserSetting id instance_ jid db, sent ++ [.ack false response])

def serveInstancesRegister (uri : String) : Outcome := do
  let b ← storage
  let instance_ := lastPart uri
  let (id, db, _) ← username storage r session db instance_
  let jid := r.var "jid"
  let uin := r.var "uin"
  let password := r.var "password"
  if uin ≠ "" ∧ password ≠ "" then
    if jid = "" then return (db, [.ack true "Insufficient data."])
    registerWith r db b id instance_ jid uin password []
  else
    -- Some networks have no registration.
    let response := r.sendCommand 0 instance_ "registration_fields"
    let sent := [.command instance_ "registration_fields" response]
    if (split '\n' response).length = 1 ∧ jid ≠ "" then
      registerWith r db b id instance_ jid "unknown" "unknown" sent
    else return (db, sent ++ [.ack true "Insufficient data."])

def serveInstancesCommands (uri : String) : Outcome := do
  let instance_ := lastPart uri
  let (_, db, username) ← username storage r session db instance_
  let response := r.sendCommand 0 instance_ "commands"
  let cmds ← listCommands session.admin username (split '\n' response)
  return (db, [.command instance_ "commands" response, .commands cmds])

def serveInstancesVariables (uri : String) : Outcome := do
  let instance_ := lastPart uri
  let (_, db, _) ← username storage r session db instance_
  let response := r.sendCommand 0 instance_ "variables"
  let vars ← listVariables session.admin (split '\n' response)
  return (db, [.command instance_ "variables" response, .variables_ vars])

/-- The loop that looks for a command in the answer to `commands`. -/
def findCommand (command : String) : List String → Option (Option (List String))
  | [] => some none
  | line :: lines => do
    let tokens ← els.tokens line
    if tokens.length ≠ 11 ∨ tokens.getD 0 "" ≠ command then findCommand command lines
    else return some tokens

/-- What was found of a command: it is refused, or its name is asked for and whether it is for a user. -/
inductive Found
  | refused
  | named (command : String) (userContext : Bool)

def lookUp (command : String) (lines : List String) : Option Found := do
  match ← findCommand command lines with
  | none => return .named "unknown" false
  | some tokens =>
    if session.admin = false ∧ tokens.getD 6 "" = "Admin" then return .refused
    return .named command (decide (tokens.getD 8 "" = "User"))

def serveInstancesCommandArgs (uri : String) : Outcome := do
  let instance_ := lastPart uri
  let response := r.sendCommand 0 instance_ "commands"
  let sent := [.command instance_ "commands" response]
  match ← lookUp session (trim (r.var "command")) (split '\n' response) with
  | .refused => return (db, sent ++ [.ack false "Only admin is able to query this command."])
  | .named command userContext =>
    let response := r.sendCommand 1 instance_ ("args " ++ command)
    let sent := sent ++ [.command instance_ ("args " ++ command) response]
    if startsWith "Error:" response then return (db, sent ++ [.ack false response])
    let list ← listArgs (split '\n' response)
    let user : List Admin.Arg :=
      if userContext ∧ session.admin then
        [{ name := "username", label := "Username", type := "" }]
      else []
    return (db, sent ++ [.args (user ++ list)])

/-- The pairs of tokens on a line of a table. -/
def tablePairs : List String → List (String × String)
  | [] => []
  | [_] => []
  | key :: value :: tokens =>
    if key = "" then tablePairs (value :: tokens) else (key, value) :: tablePairs tokens

/-- A line of a table. -/
def tableRow : List String → List (String × String)
  | [] => []
  | [key] => [("Key", key)]
  | key :: dash :: tokens =>
    ("Key", key) ::
      if dash = "-" then
        match tokens with
        | [] => []
        | desc :: tokens => ("Description", desc) :: tablePairs tokens
      else tablePairs (dash :: tokens)

/-- What is answered to a command: a table or a text. -/
def showResponse (response : String) : Option (List Effect) :=
  let fields := split '\n' response
  let first := fields.headD ""
  if contains ": " first ∨ contains ":\"" first then do
    let rows ← fields.mapM els.tokens
    return [.table (rows.map tableRow) response]
  else
    some [.ack true (.ofList (response.toList.flatMap fun c =>
      if c = '\n' then "<br/>".toList else [c]))]

def serveInstancesExecute (uri : String) : Outcome := do
  let instance_ := lastPart uri
  let response := r.sendCommand 0 instance_ "commands"
  let sent := [.command instance_ "commands" response]
  match ← lookUp session (trim (r.var "command")) (split '\n' response) with
  | .refused => return (db, sent ++ [.ack false "Only admin is able to execute."])
  | .named command userContext =>
    let (_, db, username) ← username storage r session db instance_
    if userContext ∧ session.admin = false ∧ username = "" then
      return (db, sent ++
        [.ack false "Error: You are not registered to this transport instance."])
    let command := if userContext ∧ session.admin = false then command ++ (" " ++ username) else command
    let command := command ++ r.commandArgs
    let response := r.sendCommand 1 instance_ command
    let sent := sent ++ [.command instance_ command response]
    let shown ← showResponse response
    return (db, sent ++ (if startsWith "Error:" response then [.ack false response] else []) ++ shown)

def serveUsers : Outcome :=
  allowOnlyAdmin session db (storage.map fun b => (db, [.users (b.getUsers db)]))

/-- `APIServer::serve_users_remove`. -/
def serveUsersRemove (uri : String) : Outcome :=
  allowOnlyAdmin session db (match storage with
    | none => some (db, [])
    | some b => do
      let id ← SlackRegistration.getUserId b (lastPart uri) r.junk db
      return (b.removeUser id db, [.ack false ""]))

end Handlers

/-- The account that `serve_users_add` stores. -/
def Request.account (r : Request) : Storage.UserInfo where
  id := r.junk
  jid := r.var "username"
  uin := ""
  password := (r.var "password").toUTF8.toList
  language := ""
  encoding := ""
  vip := false

/-- `APIServer::serve_users_add`. -/
def serveUsersAdd (storage : Option Storage.Backend) (r : Request) (db : Db) : Outcome :=
  let user := r.var "username"
  if user = "" ∨ r.var "password" = "" then
    some (db, [.ack true "Username or password has not been provided."])
  else
    match storage with
    | none => some (db, [.ack false "Storage backend is not configured.", .ack false ""])
    | some b =>
      match b.getUser user db with
      | .throws => none
      | .found _ => some (db, [.ack true "This user is already registered"])
      | .notFound => some ((b.setUser r.account db).1, [.ack false ""])

/-- The calls of the API. -/
inductive Api
  | start
  | stop
  | unregister
  | register
  | commands
  | variables_
  | commandArgs
  | execute
  | usersRemove
  | usersAdd
  | users
  | instances
  | unknown
  deriving DecidableEq, Repr

/-- The tests of `APIServer::handleRequest`, in their order. -/
def apiOf (uri : String) : Api :=
  if startsWith "/api/v1/instances/start/" uri then .start
  else if startsWith "/api/v1/instances/stop/" uri then .stop
  else if startsWith "/api/v1/instances/unregister/" uri then .unregister
  else if startsWith "/api/v1/instances/register/" uri then .register
  else if startsWith "/api/v1/instances/commands/" uri then .commands
  else if startsWith "/api/v1/instances/variables/" uri then .variables_
  else if startsWith "/api/v1/instances/command_args/" uri then .commandArgs
  else if startsWith "/api/v1/instances/execute/" uri then .execute
  else if startsWith "/api/v1/users/remove/" uri then .usersRemove
  else if uri = "/api/v1/users/add" then .usersAdd
  else if uri = "/api/v1/users" then .users
  else if uri = "/api/v1/instances" then .instances
  else .unknown

/-- `APIServer::handleRequest`. -/
def handleRequest (storage : Option Storage.Backend) (r : Request) (session : Option Session) (db : Db)
    (uri : String) : Outcome :=
  match apiOf uri with
  | .start => do serveInstancesStart r (← session) db uri
  | .stop => do serveInstancesStop r (← session) db uri
  | .unregister => do serveInstancesUnregister storage r (← session) db uri
  | .register => do serveInstancesRegister storage r (← session) db uri
  | .commands => do serveInstancesCommands storage r (← session) db uri
  | .variables_ => do serveInstancesVariables storage r (← session) db uri
  | .commandArgs => do serveInstancesCommandArgs r (← session) db uri
  | .execute => do serveInstancesExecute storage r (← session) db uri
  | .usersRemove => do serveUsersRemove storage r (← session) db uri
  | .usersAdd => serveUsersAdd storage r db
  | .users => do serveUsers storage (← session) db
  | .instances => do serveInstances storage r (← session) db
  | .unknown => some (db, [])

/-! ## `Server` -/

namespace State

variable (env : Env) (r : Request) (s : State)

/-- `Server::check_password`. -/
def checkPassword (user password : String) : Option Bool :=
  if env.user = user ∧ env.password = password then some true
  else
    match env.storage with
    | none => some false
    | some b =>
      match b.getUser user s.db with
      | .throws => none
      | .notFound => some false
      | .found info => some (decide (info.password = password.toUTF8.toList))

/-- `my_strlcpy` into `session->user`. -/
def truncate (user : String) : String := .ofList (user.toList.take 254)

/-- `Server::new_session`. -/
def newSession (user : String) : Session where
  id := env.md5 (toString r.random ++ truncate user)
  random := toString r.random
  user := truncate user
  expire := r.now + sessionTTL
  admin := decide (user = env.user)

/-- `Server::get_session`. -/
def getSession : Option Session :=
  (s.sessions.get r.cookie).filter fun session =>
    decide (session.expire ≠ 0 ∧ session.expire > r.now)

/-- The URIs that everyone may ask for. -/
def publicURIs : List String :=
  ["/login", "/login/", "/form.css", "/style.css", "/logo.png", "/js/config.js", "/js/app.js",
    "/users/register.shtml", "/api/v1/users/add", "/authorize"]

/-- `Server::is_authorized`: the sessions with what is written to the one of the request, or none. -/
def isAuthorized (uri : String) : Option (SortedMap String Session) :=
  if uri ∈ publicURIs then some s.sessions
  else do
    let session ← s.getSession r
    if env.md5 (session.random ++ session.user) = session.id then
      return s.sessions.set r.cookie { session with expire := r.now + sessionTTL }
    none

/-- The request is over. -/
def finish (effects : List Effect) : State := { s with done := (r, effects) :: s.done }

/-- `Server::authorize`. -/
def authorize : Option State := do
  let user := r.var "user"
  if ← s.checkPassword env user (r.var "password") then
    let session := newSession env r user
    return { s with sessions := s.sessions.set session.id session }.finish r [.loggedIn session]
  return s.finish r [.redirect "/login"]

/-- `Server::serve_logout`. -/
def serveLogout : Option State := do
  let session ← s.getSession r
  return { s with sessions := s.sessions.erase session.id }.finish r [.loggedOut session]

/-- `Server::serve_oauth2`. -/
def serveOAuth2 (uri : String) : Option State := do
  let instance_ := lastPart uri
  let cmd := "set_oauth2_code " ++ r.var "code" ++ " " ++ r.var "state"
  let response := r.sendCommand 0 instance_ cmd
  let effects := [.command instance_ cmd response, .redirect "/instances/"]
  match startsWith "Registered as " response, split ' ' response with
  | true, [_, _, jid] =>
    let session ← s.getSession r
    let b ← env.storage
    let (id, db, _) ← username env.storage r session s.db instance_
    return { s with db := b.updateUserSetting id instance_ jid db }.finish r effects
  | _, _ => return s.finish r effects

/-- The end of `Server::event_handler`: a directory is asked for with a slash at its end. -/
def serveFile (uri : String) : State :=
  if r.uri.toList.getLast? ≠ some '/' ∧ '.' ∉ uri.toList then s.finish r [.redirect (uri ++ "/")]
  else s.finish r [.file uri]

/-- The URI without the base location. -/
def stripped (uri : String) : Option String :=
  if env.baseLocation ≠ "" ∧ env.baseLocation.toList.length - 1 ≤ uri.toList.length then
    some (.ofList (uri.toList.drop (env.baseLocation.toList.length - 1)))
  else none

/-- The branches of `Server::event_handler` for a request that is authorized. -/
def serve (uri : String) : Option State :=
  if uri = "/authorize" then s.authorize env r
  else if uri = "/logout" then s.serveLogout r
  else if startsWith "/oauth2" uri then s.serveOAuth2 env r uri
  else if startsWith "/api/v1/" uri then do
    let (db, effects) ← handleRequest env.storage r (s.getSession r) s.db uri
    return { s with db }.finish r effects
  else some (s.serveFile r uri)

/-- `Server::event_handler`. -/
def eventHandler : Option State := do
  let uri ← stripped env r.uri
  match s.isAuthorized env r uri with
  | none => return s.finish r [.redirect "/login"]
  | some sessions => serve env r { s with sessions } uri

end State

/-- The manager is started on a database in which nobody is registered at an instance. -/
def machine (env : Env) : Machine State Request where
  init s := s = { db := s.db } ∧ s.db.usersSettings.rows = []
  step s r := s.eventHandler env r

end Spectrum.Manager
