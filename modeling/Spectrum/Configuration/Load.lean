import Spectrum.Lib.ProgramOptions
import Spectrum.Registration.Model

/-!
# Config

`load` fills two maps. `m_unregistered` is cleared at once and gets the options that are not described;
the variables get the others, first those of the command line. Several things can throw in between, and
only `multiple_occurrences` is caught.

The parser of the file, that of the command line and the random port are parameters.
-/

namespace Spectrum.Configuration

open Lib ProgramOptions

/-! ## The options -/

def string (key default : String) : Description := ⟨key, .string, some (.string default)⟩

def int (key : String) (default : Int) : Description := ⟨key, .int, some (.int default)⟩

def bool (key : String) (default : Bool) : Description := ⟨key, .bool, some (.bool default)⟩

def strings (key : String) : Description := ⟨key, .strings, none⟩

/-- The options that `load` adds. -/
def opts : List Description := [
  string "service.jid" "",
  string "service.server" "127.0.0.1",
  string "service.password" "",
  int "service.port" 0,
  string "service.user" "",
  string "service.group" "",
  string "service.backend" "libpurple_backend",
  string "service.protocol" "",
  string "service.pidfile" "/var/run/spectrum2/$jid.pid",
  string "service.portfile" "/var/run/spectrum2/$jid.port",
  string "service.working_dir" "/var/lib/spectrum2/$jid",
  strings "service.allowed_servers",
  bool "service.server_mode" false,
  int "service.users_per_backend" 100,
  string "service.backend_host" "127.0.0.1",
  string "service.backend_port" "0",
  string "service.cert" "",
  string "service.cert_password" "",
  strings "service.admin_jid",
  string "service.admin_password" "",
  bool "service.reuse_old_backends" true,
  int "service.idle_reconnect_time" 0,
  int "service.memory_collector_time" 0,
  bool "service.more_resources" false,
  bool "service.enable_privacy_lists" true,
  bool "service.enable_xhtml" true,
  bool "service.enable_remove_buddy" false,
  bool "service.oob_replace_body" true,
  bool "service.oob_split" false,
  int "service.max_room_list_size" 100,
  int "service.login_delay" 0,
  bool "service.jid_escaping" true,
  bool "service.vip_only" false,
  string "service.vip_message" "",
  bool "service.reconnect_all_users" false,
  string "service.frontend" "xmpp",
  string "service.web_directory" "",
  string "service.web_url" "",
  int "service.web_maximgsize" 1000000,
  strings "vhosts.vhost",
  string "identity.name" "Spectrum 2 Transport",
  string "identity.category" "gateway",
  string "identity.type" "",
  bool "registration.enable_public_registration" true,
  string "registration.language" "en",
  string "registration.instructions" "Enter your legacy network username and password.",
  string "registration.username_label" "3rd-party network username",
  string "registration.password_label" "3rd-party network password",
  string "registration.username_mask" "",
  string "registration.allowed_usernames" "",
  bool "registration.auto_register" false,
  string "registration.encoding" "utf8",
  bool "registration.require_local_account" false,
  strings "registration.notify_jid",
  string "registration.local_username_label" "Local username:",
  string "registration.local_account_server" "localhost",
  int "registration.local_account_server_timeout" 10000,
  string "gateway_responder.prompt" "Contact ID",
  string "gateway_responder.label" "Enter legacy network contact ID.",
  string "database.type" "none",
  string "database.database" "/var/lib/spectrum2/$jid/database.sql",
  string "database.server" "localhost",
  string "database.user" "",
  string "database.password" "",
  int "database.port" 0,
  string "database.prefix" "",
  string "database.encryption_key" "",
  string "database.vip_statement" "",
  string "logging.config" "",
  string "logging.backend_config" "",
  string "backend.default_avatar" "",
  string "backend.avatars_directory" "",
  bool "backend.no_vcard_fetch" false,
  string "proxy.server" "localhost",
  string "proxy.user" "",
  string "proxy.password" "",
  int "proxy.port" 0]

/-! ## Loading -/

/-- `m_argc` and `m_argv`, as `command_line_parser` reads them. -/
inductive CommandLine
  | absent
  | throws
  | options (options : List Parsed)

/-- `m_jid`, the command line and `parse_config_file`, which gives the keys with their sections and
the values, or throws an exception. -/
structure Env where
  jid : String := ""
  commandLine : CommandLine := .absent
  parse : String → Option (List (String × String))

/-- A `variable_value` of an option that is not described. -/
inductive Unregistered
  | bool (b : Bool)
  | string (s : String)
  | list (l : List String)
  deriving DecidableEq, Repr

/-- `m_file`, `m_variables` and `m_unregistered`. -/
structure Config where
  file : String := ""
  vars : Variables := {}
  unregistered : SortedMap String Unregistered := {}

/-- `load` returns true, returns false or throws an exception. -/
inductive Outcome
  | loaded
  | refused
  | thrown
  deriving DecidableEq, Repr

def isDescribed (key : String) : Bool := (describe opts key).isSome

section Load

variable (env : Env)

/-- What `$jid` stands for. -/
def jidOf (options : List (String × String)) : String :=
  match (options.filter fun o => o.1 == "service.jid").getLast? with
  | none => ""
  | some o => if env.jid = "" then o.2 else env.jid

/-- The JID and the port that an option gets instead of its value. -/
def adjust (port : String) (o : String × String) : String × String :=
  if o.1 = "service.jid" ∧ env.jid ≠ "" then (o.1, env.jid)
  else if o.1 = "service.backend_port" ∧ o.2 = "0" then (o.1, port)
  else o

/-- The options that are added where the file does not have them. -/
def added (port : String) : List (String × String) :=
  [("service.working_dir", "/var/lib/spectrum2/$jid"),
    ("service.pidfile", "/var/run/spectrum2/$jid.pid"),
    ("service.portfile", "/var/run/spectrum2/$jid.port"), ("service.backend_port", port),
    ("database.database", "/var/lib/spectrum2/$jid/database.sql")]

def complete (port : String) (options : List (String × String)) : List (String × String) :=
  options.map (adjust env port) ++
    (added port).filter fun o => decide (o.1 ∉ options.map Prod.fst)

/-- The first value of an option that is not described. -/
def unregistered (value : String) : Unregistered :=
  if value = "true" ∨ value = "1" then .bool true
  else if value = "false" ∨ value = "0" then .bool false
  else .string value

/-- The options that are not described are put into `m_unregistered`. A second value after one that
was taken for a `bool` throws an exception. -/
def collect : List String → SortedMap String Unregistered → List (String × String) →
    SortedMap String Unregistered × Bool
  | _, m, [] => (m, true)
  | hasKey, m, (key, value) :: options =>
    if key ∉ hasKey then collect (key :: hasKey) (m.set key (unregistered value)) options
    else
      match m.get key with
      | some (.list l) => collect hasKey (m.set key (.list (l ++ [value]))) options
      | some (.string s) => collect hasKey (m.set key (.list [s, value])) options
      | some (.bool _) | none => (m, false)

def collectFile (options : List (String × String)) : SortedMap String Unregistered × Bool :=
  collect [] {} (options.filter fun o => !isDescribed o.1)

/-- The described options of a file, with `$jid` replaced. -/
def fileOptions (port : String) (options : List (String × String)) : List Parsed :=
  ((complete env port options).filter fun o => isDescribed o.1).map fun o =>
    ⟨o.1, [String.ofList (Registration.replaceAll "$jid".toList (jidOf env options).toList 0
      o.2.toList)]⟩

def setUnregistered (m : SortedMap String Unregistered) (options : List Parsed) :
    SortedMap String Unregistered :=
  options.foldl (fun m o =>
    match o.values with
    | value :: _ => if o.key ≠ "" ∧ !isDescribed o.key then m.set o.key (.string value) else m
    | [] => m) m

def outcome : Option Failure → Outcome
  | none => .loaded
  | some .multipleOccurrences => .refused
  | some .invalidValue => .thrown

def Config.store (c : Config) (options : List Parsed) : Config × Outcome :=
  let r := ProgramOptions.store opts c.vars options
  ({ c with vars := r.1 }, outcome r.2)

def Config.loadCommandLine (c : Config) : Config × Outcome :=
  match env.commandLine with
  | .absent => (c, .loaded)
  | .throws => (c, .thrown)
  | .options options =>
    ({ c with unregistered := setUnregistered c.unregistered options } : Config).store options

/-- `load` of a stream. `onConfigReloaded` is not modelled. -/
def Config.loadStream (c : Config) (text port : String) : Config × Outcome :=
  match env.parse text with
  | none => ({ c with unregistered := {} }, .thrown)
  | some options =>
    match collectFile (complete env port options) with
    | (m, false) => ({ c with unregistered := m }, .thrown)
    | (m, true) =>
      match ({ c with unregistered := m } : Config).loadCommandLine env with
      | (c, .loaded) => c.store (fileOptions env port options)
      | (c, o) => (c, o)

/-- `load` of a file. `contents` is none if the file cannot be opened. -/
def Config.load (c : Config) (configfile : String) (contents : Option String) (port : String) :
    Config × Outcome :=
  if configfile = "" then (c, .refused)
  else
    match contents with
    | none => (c, .refused)
    | some text => ({ c with file := configfile } : Config).loadStream env text port

def Config.reload (c : Config) (contents : Option String) (port : String) : Config × Outcome :=
  if c.file = "" then (c, .refused) else c.load env c.file contents port

end Load

end Spectrum.Configuration
