import Spectrum.Session.Model
import Spectrum.Model.Oracle
import Spectrum.Model.Conversations

/-!
# The state of the transport

The objects of a running transport: the backends of `NetworkPluginServer`, the users of
`UserManager`, the pending logins of `UserRegistry`, the client sessions of server mode and
the presence oracle. Pointers are numbers: `BackendId` and `UserId` are never reused, and a
backend is freed exactly when it leaves `clients`. An access through a pointer to a freed
backend or session sets `fault`.

`log` records what the transport has done, newest first. No operation reads it.

The model covers the configurations with `features.rawxml` off, which is the default: no
stanza is passed to a backend as raw XML.
-/

namespace Spectrum

abbrev BackendId := Nat
abbrev UserId := Nat
abbrev SessionId := Nat

/-- `NetworkPluginServer::Backend`. The field `pongReceived` is an `int` that is also used
as a truth value: -1 just connected, 0 a PING is unanswered, 1 answered. -/
structure Backend where
  pongReceived : Int := -1
  users : List UserId := []
  connection : Bool := false
  res : Nat := 0
  acceptUsers : Bool := false
  longRun : Bool := false
  willDie : Bool := true
  id : String := ""
  deriving DecidableEq, Repr

structure UserInfo where
  jid : Jid
  uin : String := ""
  password : String := ""
  vip : Bool := false
  enableTransport : Bool := true
  stayConnected : Bool := false
  deriving DecidableEq, Repr

/-- `Transport::User`. `slots` is the number of times the handlers of
`NetworkPluginServer` are connected to the signals of this user. -/
structure User where
  jid : Jid
  info : UserInfo
  data : Option BackendId := none
  connected : Bool := false
  readyForConnect : Bool := false
  ignoreDisconnect : Bool := false
  reconnectTimer : Bool := false
  resources : Nat := 0
  reconnectCounter : Int := 0
  reconnectLimit : Int := 3
  lastActivity : Int := 0
  cacheMessages : Bool := false
  joinedRooms : List Presence := []
  convs : Conversations := []
  slots : Nat := 0
  deriving DecidableEq, Repr

/-- `Swift::SpectrumErrorPayload::Error`. -/
inductive ConnectionError
  | networkError | invalidUsername | authenticationFailed | authenticationImpossible
  | noSslSupport | encryptionError | nameInUse | invalidSettings | certNotProvided
  | certUntrusted | certExpired | certNotActivated | certHostnameMismatch
  | certFingerprintMismatch | certSelfSigned | certOtherError | otherError
  deriving DecidableEq, Repr

/-- `pbnetwork::StatusType`. -/
inductive StatusType
  | ofShow (s : StatusShow)
  | invisible
  deriving DecidableEq, Repr

/-- The messages the transport writes to a backend. -/
inductive ToBackend
  | ping
  | exit
  | login (user : Jid) (legacyName password : String)
  | buddies (user : Jid)
  | logout (user : Jid) (legacyName : String)
  | statusChanged (user : Jid) (status : StatusType) (statusMessage : String)
  | joinRoom (user : Jid) (nickname room password : String)
  | leaveRoom (user : Jid) (room : String)
  deriving DecidableEq, Repr

/-- The two ways a user gets a backend. -/
inductive Assignment
  | created
  | moved
  deriving DecidableEq, Repr

/-- One thing the transport has done. An assignment is recorded with the backend as it was
just before, and an accepted login with the password it was asked with. -/
inductive Effect
  | send (b : BackendId) (m : ToBackend)
  | exec (longRun : Bool)
  | componentStart
  | connectWaitingUsers
  | pong (b : BackendId)
  | sessionFinished (b : BackendId)
  | disconnected (u : UserId)
  | assign (how : Assignment) (u : UserId) (b : BackendId) (state : Backend)
  | presenceChanged (u : UserId) (p : Presence)
  | message (toJid : Jid) (body : String)
  | adminPassword (s : SessionId) (valid : Bool)
  | passwordValid (s : SessionId) (user : Jid) (password : String)
  | session (s : SessionId) (o : Session.Output)
  deriving DecidableEq, Repr

/-- The configuration values that the model reads, the `createUser` limit of the frontend
and the text functions of Swiften. -/
structure Config where
  serverMode : Bool := false
  jid : Jid := ⟨"", "localhost", ""⟩
  adminJids : List Jid := []
  adminPassword : String := ""
  usersPerBackend : Int := 100
  reuseOldBackends : Bool := true
  loginDelay : Int := 0
  idleReconnectTime : Int := 0
  moreResources : Bool := false
  needRegistration : Option Bool := none
  needPassword : Option Bool := none
  autoRegister : Bool := false
  vipOnly : Bool := false
  vipMessage : String := ""
  sendBuddiesOnLogin : Bool := false
  reconnectLimit : Int := 3
  prep : StringPrep := StringPrep.plain
  unescapedNode : String → String := id

/-- A slot of `UserManager::m_removeTimer`, the arguments of `handleRemoveTimeout`. -/
structure RemoveSlot where
  jid : Jid
  user : UserId
  reconnect : Bool
  deriving DecidableEq, Repr

/-- `UserRegistry::Sess`. -/
structure Sess where
  password : String
  session : SessionId
  deriving DecidableEq, Repr

structure World where
  cfg : Config
  now : Int
  -- NetworkPluginServer
  clients : List BackendId
  backends : BackendId → Backend
  nextBackend : BackendId
  waitingUsers : List UserId
  isNextLongRun : Bool
  startingBackend : Bool
  lastLogin : Int
  firstPong : Bool
  loginTimer : Bool
  crashedBackends : List String
  -- UserManager
  users : Jid → Option UserId
  user : UserId → User
  nextUser : UserId
  removeSlots : List RemoveSlot
  removeTimer : Bool
  storage : Option (Jid → Option UserInfo)
  -- frontend
  oracle : Oracle
  caps : Jid → Bool
  session : SessionId → Option Session
  nextSession : SessionId
  channel : Jid → List SessionId
  -- UserRegistry
  registry : Jid → Option Sess
  registrySlots : List Jid
  registryTimer : Bool
  inRemoveLater : Bool
  -- outcome
  fault : Bool
  log : List Effect

namespace World

/-- A user object that does not exist yet. -/
def noUser : User := { jid := Jid.empty, info := { jid := Jid.empty } }

/-- The transport right after its objects are constructed: the login timer is running. -/
def start (cfg : Config) (now : Int) (storage : Option (Jid → Option UserInfo)) : World where
  cfg := cfg
  now := now
  clients := []
  backends := fun _ => {}
  nextBackend := 0
  waitingUsers := []
  isNextLongRun := false
  startingBackend := false
  lastLogin := 0
  firstPong := true
  loginTimer := true
  crashedBackends := []
  users := fun _ => none
  user := fun _ => noUser
  nextUser := 0
  removeSlots := []
  removeTimer := false
  storage := storage
  oracle := fun _ => []
  caps := fun _ => false
  session := fun _ => none
  nextSession := 0
  channel := fun _ => []
  registry := fun _ => none
  registrySlots := []
  registryTimer := false
  inRemoveLater := false
  fault := false
  log := []

def emit (e : Effect) (w : World) : World := { w with log := e :: w.log }

def modUser (u : UserId) (f : User → User) (w : World) : World :=
  { w with user := Function.update w.user u (f (w.user u)) }

def modBackend (b : BackendId) (f : Backend → Backend) (w : World) : World :=
  { w with backends := Function.update w.backends b (f (w.backends b)) }

def setData (u : UserId) (d : Option BackendId) : World → World :=
  modUser u fun x => { x with data := d }

/-- `u` is the user object that `UserManager` holds for its JID. -/
def Managed (w : World) (u : UserId) : Prop := w.users (w.user u).jid = some u

end World

end Spectrum
