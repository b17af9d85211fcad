import Spectrum.Lib.Machine
import Spectrum.Lib.SortedMap
import Spectrum.Lib.Text

/-!
# IRCNetworkPlugin

The requests of the frontend and the table of the IRC sessions. `m_sessions` is read with
`operator[]`, which inserts `NULL` for a key that is not there; a key with `NULL` is absent here. In
gateway mode without `service.irc_server` a user has one session for every server, and the server is a
part of the name of the room.

Texts are sequences of characters. An exception leaves the model.
-/

namespace Spectrum.Irc

open Lib

/-! ## Sessions -/

inductive IrcCommand
  | join (channel key : String)
  | part (channel : String)
  | message (target text : String)
  | ctcpAction (target text : String)
  | topic (channel topic : String)
  | whois (user : String)
  | away (reason : String)
  deriving DecidableEq, Repr

/-- A `MyIrcSession` with the commands that were sent on it. -/
structure Session where
  user : String
  suffix : String
  /-- The argument of `createSession`. -/
  hostname : String
  host : String
  port : Int
  secure : Bool
  nickName : String
  password : Option String := none
  identify : Option String := none
  rooms : Int := 0
  pms : SortedMap String String := {}
  whois : SortedMap String String := {}
  commands : List IrcCommand := []
  opened : Bool := false

namespace Session

variable (s : Session)

def sendCommand (c : IrcCommand) : Session := { s with commands := s.commands ++ [c] }

def addPM (name room : String) : Session := { s with pms := s.pms.set name room }

def sendWhoisCommand (channel «to» : String) : Session :=
  ({ s with whois := s.whois.set «to» channel } : Session).sendCommand (.whois «to»)

def «open» : Session := { s with opened := true }

end Session

/-- The options. `service.irc_identify` is the text that is made of the password and the nickname. -/
structure Env where
  serverMode : Bool := false
  servers : List String := []
  identify : String → String → String := fun password _ => "NickServ identify " ++ password
  sendPass : Bool := false

/-- `service.server_mode` is off and there is no `service.irc_server`. -/
structure Env.Gateway (env : Env) : Prop where
  serverMode : env.serverMode = false
  servers : env.servers = []

/-- `atoi`. -/
def atoi (s : String) : Int :=
  let digits (l : List Char) : Int :=
    (l.takeWhile Char.isDigit).foldl (fun n c => 10 * n + (c.toNat - '0'.toNat : Nat)) 0
  match s.toList.dropWhile Char.isWhitespace with
  | '-' :: l => -digits l
  | '+' :: l => digits l
  | l => digits l

/-- A port that is none is the default. -/
def portOr (default port : Int) : Int := if port < 1 ∨ port > 65535 then default else port

/-- The host, the port and whether SSL is used. -/
def hostnameParts (hostname : String) : String × Int × Bool :=
  match (hostname.toList.splitOnP fun c => c == ':' || c == '/').map String.ofList with
  | [host, portText] =>
    if host = "" ∨ portText = "" then (hostname, 6667, false)
    else
      let port := atoi portText
      if portText.toList.head? = some '+' ∨ port = 6697 then (host, portOr 6697 port, true)
      else (host, portOr 6667 port, false)
  | _ => (hostname, 6667, false)

def Env.createSession (env : Env) (user hostname nickname password suffix : String) : Session where
  user := user
  suffix := suffix
  hostname := hostname
  host := (hostnameParts hostname).1
  port := (hostnameParts hostname).2.1
  secure := (hostnameParts hostname).2.2
  nickName := nickname
  password := if password ≠ "" ∧ env.sendPass then some password else none
  identify := if password ≠ "" ∧ ¬ env.sendPass then some (env.identify password nickname) else none

/-! ## Names -/

/-- `getSessionName`: the key of the session. -/
def Env.getSessionName (env : Env) (user legacyName : String) : String :=
  if env.serverMode = false ∧ env.servers = [] then before '/' (user ++ after '@' legacyName)
  else user

def getTargetName (legacyName : String) : String :=
  if '/' ∈ legacyName.toList then after '/' legacyName else before '@' legacyName

/-- The server that a room or a participant of a room is on. -/
def serverOf (legacyName : String) : Option String :=
  if '@' ∈ legacyName.toList then some (before '/' (after '@' legacyName)) else none

/-! ## Requests -/

/-- What the plugin tells the frontend. -/
inductive Output
  | connected (user : String)
  | message (user legacyName message nickname : String)
  | roomNicknameChanged (user room nickname : String)
  | participantChanged (user nickname room newNick : String)
  deriving DecidableEq, Repr

structure State where
  sessions : SortedMap String Session := {}
  currentServer : Nat := 0
  outputs : List Output := []

namespace State

variable (s : State)

def output (o : Output) : State := { s with outputs := s.outputs ++ [o] }

def setSession (key : String) (session : Session) : State :=
  { s with sessions := s.sessions.set key session }

/-- The session is closed and deleted. -/
def close (key : String) : State := { s with sessions := s.sessions.erase key }

def tryNextServer (env : Env) : State :=
  if env.servers = [] then s
  else { s with currentServer := (s.currentServer + 1) % env.servers.length }

def handleLoginRequest (env : Env) (user legacyName password : String) : State :=
  if env.servers ≠ [] then
    match s.sessions.get user with
    | some _ => s
    | none =>
      let server := env.servers.getD s.currentServer ""
      s.setSession user (env.createSession user server legacyName password "").open
  else s.output (.connected user)

def handleLogoutRequest (user : String) : State :=
  match s.sessions.get user with
  | none => s
  | some _ => s.close user

/-- IRC does not support newlines: the lines of a message, without a newline at its start. -/
def lines (message : String) : List String :=
  let text := match message.toList with
    | '\n' :: text => text
    | text => text
  (text.splitOn '\n').map String.ofList

def startsWith (text start : String) : Bool := start.toList.isPrefixOf text.toList

/-- What is said in a room is reported back. -/
def echo (user legacyName message target : String) (session : Session) : State :=
  if startsWith target "#" then s.output (.message user legacyName message session.nickName) else s

def handleMessageSendRequest (env : Env) (user legacyName message : String) : Option State :=
  let name := env.getSessionName user legacyName
  match s.sessions.get name with
  | none => some s
  | some session =>
    let target := getTargetName legacyName
    let session :=
      if '/' ∈ legacyName.toList then session.addPM target (before '@' legacyName) else session
    if startsWith message "/me" then do
      let text ← substr message 4
      let session := session.sendCommand (.ctcpAction target text)
      return (s.setSession name session).echo user legacyName message target session
    else if startsWith message "/whois" || startsWith message ".whois" then do
      let «to» ← substr message 7
      return s.setSession name (session.sendWhoisCommand target «to»)
    else
      let session := (lines message).foldl (fun session line =>
        session.sendCommand (.message target line)) session
      some ((s.setSession name session).echo user legacyName message target session)

def handleRoomSubjectChangedRequest (env : Env) (user room message : String) : State :=
  let name := env.getSessionName user room
  match s.sessions.get name with
  | none => s
  | some session =>
    s.setSession name (session.sendCommand (.topic (getTargetName room) message))

/-- The session of a join, which is created for the first room of a server. -/
def joinSession (env : Env) (user room nickname : String) : Option Session :=
  match s.sessions.get (env.getSessionName user room) with
  | some session => some session
  | none =>
    if env.servers = [] ∧ '@' ∈ room.toList then
      some (env.createSession user (after '@' room) nickname "" ("@" ++ after '@' room)).open
    else none

def handleJoinRoomRequest (env : Env) (user room nickname password : String) : State :=
  match s.joinSession env user room nickname with
  | none => s
  | some session =>
    let session := session.sendCommand (.join (getTargetName room) password)
    let session := { session with rooms := session.rooms + 1 }
    let s := s.setSession (env.getSessionName user room) session
    if nickname ≠ session.nickName then
      (s.output (.roomNicknameChanged user room session.nickName)).output
        (.participantChanged user nickname room session.nickName)
    else s

def handleLeaveRoomRequest (env : Env) (user room : String) : State :=
  let name := env.getSessionName user room
  match s.sessions.get name with
  | none => s
  | some session =>
    let session := session.sendCommand (.part (getTargetName room))
    let session := { session with rooms := session.rooms - 1 }
    if session.rooms ≤ 0 ∧ env.servers = [] then s.close name else s.setSession name session

/-- The status is `STATUS_AWAY` or another one. -/
def handleStatusChangeRequest (user : String) (away : Bool) (statusMessage : String) : State :=
  match s.sessions.get user with
  | none => s
  | some session =>
    let reason := if away then (if statusMessage = "" then "Away" else statusMessage) else ""
    s.setSession user (session.sendCommand (.away reason))

end State

/-- The requests, and what the IRC connection under a key reports. -/
inductive Event
  | login (user legacyName password : String)
  | logout (user : String)
  | message (user legacyName message : String)
  | subject (user room message : String)
  | join (user room nickname password : String)
  | leave (user room : String)
  | status (user : String) (away : Bool) (statusMessage : String)
  | nickChanged (key nickname : String)
  | disconnected (key : String)
  deriving DecidableEq, Repr

def step (env : Env) (s : State) : Event → Option State
  | .login user legacyName password => some (s.handleLoginRequest env user legacyName password)
  | .logout user => some (s.handleLogoutRequest user)
  | .message user legacyName message => s.handleMessageSendRequest env user legacyName message
  | .subject user room message => some (s.handleRoomSubjectChangedRequest env user room message)
  | .join user room nickname password =>
    some (s.handleJoinRoomRequest env user room nickname password)
  | .leave user room => some (s.handleLeaveRoomRequest env user room)
  | .status user away statusMessage => some (s.handleStatusChangeRequest user away statusMessage)
  | .nickChanged key nickname =>
    (s.sessions.get key).map fun session => s.setSession key { session with nickName := nickname }
  | .disconnected key =>
    (s.sessions.get key).map fun session => if session.suffix = "" then s.tryNextServer env else s

def machine (env : Env) : Machine State Event where
  init s := s = {}
  step := step env

end Spectrum.Irc
