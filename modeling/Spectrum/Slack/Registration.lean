import Mathlib.Data.List.Count
import Spectrum.Slack.Session
import Spectrum.Storage.Accounts
import Spectrum.Storage.Settings

/-!
# SlackUserRegistration

A team is registered in two steps: `createOAuth2URL` issues a state, and `handleOAuth2Code` gets the
state back with a code, asks Slack for the tokens and stores them. They are stored with
`getUserSetting`, which writes only what is not there.

The answers of Slack are part of the call. An exception of `getUser` ends the program. Anything may
happen to the database between two calls.
-/

namespace Spectrum.SlackRegistration

open Lib Storage

/-- A text that `lexical_cast` makes of a UUID. -/
structure Uuid where
  text : String
  size : text.length = 36

/-- The arguments of `handleOAuth2Code`, the answer of `requestToken`, which is an error and two
tokens, and that of `getTeamDomain`. -/
structure Call where
  code : String
  state : String
  error : String := ""
  accessToken : String := ""
  botToken : String := ""
  domain : String := ""

/-- `m_auths` together with `m_authsData`, next to the database. The states that were issued and
those of the calls that succeeded are recorded. -/
structure Registration where
  db : Db := {}
  auths : SortedMap String (List String) := {}
  issued : List String := []
  accepted : List String := []

/-- The tokens that a call obtains, with the arguments of the `createOAuth2URL` before it. -/
structure Grant where
  token : String
  accessToken : String
  data : List String

namespace Grant

variable (g : Grant)

def slackChannel : String :=
  match g.data with
  | _ :: slackChannel :: _ :: _ => slackChannel
  | _ => ""

def uin : String :=
  match g.data with
  | _ :: _ :: uin :: _ => uin
  | _ => ""

def password : String :=
  match g.data with
  | [_, _, _, password] => password
  | _ => ""

def user (domain : String) : Storage.UserInfo where
  jid := domain
  uin := g.uin
  password := g.password.toUTF8.toList
  language := "en"
  encoding := ""
  vip := false

/-- The settings with the values that they should have. -/
def settings : List (String × String) :=
  (if g.slackChannel = "" then [] else [("slack_channel", Slack.channelName g.slackChannel)]) ++
    [("bot_token", g.token), ("access_token", g.accessToken)]

end Grant

namespace Registration

variable (b : Storage.Backend) (s : Registration)

def createOAuth2URL (uuid : Uuid) (args : List String) : Registration :=
  { s with auths := s.auths.set uuid.text args, issued := uuid.text :: s.issued }

/-- The part of `handleOAuth2Code` that gets the tokens. -/
def requestToken (call : Call) : Except String Grant :=
  if call.state = "use_bot_token" then .ok ⟨call.code, call.code, []⟩
  else
    match s.auths.get call.state with
    | none =>
      .error ("Received state code '" ++ call.state ++ "' not found in state codes list.")
    | some data =>
      if call.error ≠ "" then .error call.error
      else if call.botToken = "" then .ok ⟨call.accessToken, call.accessToken, data⟩
      else .ok ⟨call.botToken, call.accessToken, data⟩

end Registration

section Storage

variable (b : Storage.Backend)

/-- The id in the argument of `getUser`, which is filled in as soon as there is a row: PostgreSQL
catches the exception of a password that cannot be read. -/
def getUserId (jid : String) (id : Int) (db : Db) : Option Int :=
  match b.getUser jid db with
  | .throws => none
  | .found _ | .notFound => some ((db.userRow jid).elim id UserRow.id)

/-- `UserRegistration::registerUser`. -/
def registerUser (user : Storage.UserInfo) (allowPasswordChange : Bool) (db : Db) : Option Db :=
  match b.getUser user.jid db with
  | .throws => none
  | .notFound => some (b.setUser user db).1
  | .found _ => some (if allowPasswordChange then (b.setUser user db).1 else db)

/-- The calls of `getUserSetting` one after the other. The type of a row that is found is the type of
the next one. -/
def getUserSettings (id : Int) : Int → List (String × String) → Db → Db
  | _, [], db => db
  | type, (name, value) :: settings, db =>
    let (db, type, _) := b.getUserSetting id name (type, value) db
    getUserSettings id type settings db

end Storage

/-- `SlackUserRegistration::handleOAuth2Code` up to `reconnectUser`. -/
def Registration.handleOAuth2Code (b : Storage.Backend) (s : Registration) (call : Call) :
    Option (Registration × Except String String) :=
  match s.requestToken call with
  | .error error => some (s, .error error)
  | .ok g =>
    if call.domain = "" then some (s, .error "The token you have provided is invalid")
    else do
      let id ← getUserId b call.domain 0 s.db
      let db ← registerUser b { g.user call.domain with id } true s.db
      let id ← getUserId b call.domain id db
      let db := getUserSettings b id typeString g.settings db
      let auths := if call.state = "use_bot_token" then s.auths else s.auths.erase call.state
      return ({ s with db, auths, accepted := call.state :: s.accepted },
        .ok ("Registered as " ++ call.domain))

/-- The settings that are stored meanwhile are such that the columns take them. -/
inductive Event (k : Columns)
  | createOAuth2URL (uuid : Uuid) (args : List String)
  | handleOAuth2Code (call : Call)
  | storage (db : Db) (h : db.HoldsSettings k)

def step (b : Storage.Backend) {k : Columns} (s : Registration) : Event k → Option Registration
  | .createOAuth2URL uuid args => some (s.createOAuth2URL uuid args)
  | .handleOAuth2Code call => (s.handleOAuth2Code b call).map Prod.fst
  | .storage db _ => some { s with db }

def machine (b : Storage.Backend) (k : Columns) : Machine Registration (Event k) where
  init s := s = { db := s.db } ∧ s.db.HoldsSettings k
  step := step b

/-! ## What a call should do -/

/-- The settings of the user are read back, whatever the default is. -/
def ReadsBack (b : Storage.Backend) (jid : String) (settings : List (String × String)) (db : Db) :
    Prop :=
  ∃ r, db.userRow jid = some r ∧
    ∀ p ∈ settings, ∀ out, (b.getUserSetting r.id p.1 out db).2.2 = p.2

/-- A state is accepted as often as it was issued, at most. -/
def Registration.Once (s : Registration) : Prop :=
  ∀ uuid : Uuid, s.accepted.count uuid.text ≤ s.issued.count uuid.text

/-- The call with its answer and what it leaves. -/
def TakesEffect (b : Storage.Backend) (s : Registration) (call : Call) : Prop :=
  ∀ s' answer, s.handleOAuth2Code b call = some (s', answer) →
    match answer with
    | .ok _ => s'.Once ∧ ∀ g, s.requestToken call = .ok g → ReadsBack b call.domain g.settings s'.db
    | .error _ => s'.db = s.db ∧ s'.auths = s.auths

/-- The id of a user who is registered now. -/
def userIdOf (kind : Kind) (jid : String) (db : Db) : Int :=
  (db.userRow jid).elim
    (match kind with
    | .sqlite3 => SQLite3.nextUser db
    | .mysql | .pqxx => db.lastUser + 1)
    UserRow.id

/-- The storage can be asked for the user. -/
def Readable (b : Storage.Backend) (jid : String) (db : Db) : Prop := b.getUser jid db ≠ .throws

/-- Where the settings of the user have rows, these have the values of the call already, and else
their column takes the values. -/
def Unset (kind : Kind) (open_ : MySQL.Undefined) (jid : String) (settings : List (String × String))
    (db : Db) : Prop :=
  ∀ p ∈ settings,
    (∀ r, db.userSetting (userIdOf kind jid db) p.1 = some r → r.value = p.2) ∧
    (db.userSetting (userIdOf kind jid db) p.1 = none →
      ((kind.columns open_).varchar 255).Takes p.2)

/-- There is a row for the user, or the columns take one with his JID. -/
def Registrable (b : Storage.Backend) (user : Storage.UserInfo) (db : Db) : Prop :=
  (db.userRow user.jid).isSome ∨ ∃ row, b.stored user = some row ∧ row.jid = user.jid

/-- The user whom a call writes. -/
def Grant.written (g : Grant) (domain : String) (db : Db) : Storage.UserInfo :=
  { g.user domain with id := (db.userRow domain).elim 0 UserRow.id }

/-- A call that is not refused finds or makes a row for the user and finds no other settings. -/
def FindsUnset (b : Storage.Backend) (kind : Kind) (open_ : MySQL.Undefined) (s : Registration)
    (call : Call) : Prop :=
  ∀ g, s.requestToken call = .ok g → call.domain ≠ "" → Readable b call.domain s.db →
    Readable b call.domain (b.setUser (g.written call.domain s.db) s.db).1 →
    Registrable b (g.written call.domain s.db) s.db ∧
      Unset kind open_ call.domain g.settings s.db

section Storage

variable {c : Storage.Config} {open_ : MySQL.Undefined} {kind : Kind} {db : Db}
  {user row : Storage.UserInfo} {jid name : String} {id : Int}

/-! ## The row of the user -/

/-- The id of the row that is written. -/
theorem setUser_userRow_id (h : (createBackend c open_ kind).stored user = some row) :
    ∃ r, ((createBackend c open_ kind).setUser user db).1.userRow row.jid = some r ∧
      r.id = userIdOf kind row.jid db := by
  unfold userIdOf
  cases kind with
  | sqlite3 =>
    refine ⟨_, SQLite3.setUser_userRow_self h, ?_⟩
    cases hrow : db.userRow row.jid with
    | none =>
      rw [SQLite3.newRow, hrow]
      rfl
    | some r => exact SQLite3.newRow_id_of_some hrow
  | mysql =>
    have hset : ((mysql c open_).setUser user db).1 = MySQL.upsertUser row db :=
      congrArg Prod.fst (MySQL.execSetUser_of_stored h)
    change ∃ r, ((mysql c open_).setUser user db).1.userRow row.jid = some r ∧ _
    rw [hset]
    refine ⟨_, MySQL.upsertUser_userRow_self, ?_⟩
    cases db.userRow row.jid <;> rfl
  | pqxx =>
    refine ⟨_, PQXX.setUser_userRow_self h, ?_⟩
    cases db.userRow row.jid <;> rfl

/-- Whether there is a row for the user afterwards, and which id it has. -/
theorem setUser_userRow_cases :
    Registrable (createBackend c open_ kind) user db ∧
      (∃ r, ((createBackend c open_ kind).setUser user db).1.userRow user.jid = some r ∧
        r.id = userIdOf kind user.jid db) ∨
    ¬ Registrable (createBackend c open_ kind) user db ∧
      ((createBackend c open_ kind).setUser user db).1.userRow user.jid = none := by
  have hkept : ((createBackend c open_ kind).setUser user db).1.userRow user.jid =
      db.userRow user.jid → (∀ row, (createBackend c open_ kind).stored user = some row →
        row.jid ≠ user.jid) → Registrable (createBackend c open_ kind) user db ∧
      (∃ r, ((createBackend c open_ kind).setUser user db).1.userRow user.jid = some r ∧
        r.id = userIdOf kind user.jid db) ∨
      ¬ Registrable (createBackend c open_ kind) user db ∧
        ((createBackend c open_ kind).setUser user db).1.userRow user.jid = none := by
    intro hsame hnever
    cases hrow : db.userRow user.jid with
    | some r =>
      have hid : r.id = userIdOf kind user.jid db := by
        unfold userIdOf
        rw [hrow]
        rfl
      exact Or.inl ⟨Or.inl (by rw [hrow]; rfl), r, hsame.trans hrow, hid⟩
    | none =>
      refine Or.inr ⟨?_, hsame.trans hrow⟩
      rintro (hsome | ⟨row, hstored, hjid⟩)
      · rw [hrow] at hsome
        cases hsome
      · exact hnever row hstored hjid
  cases hstored : (createBackend c open_ kind).stored user with
  | none =>
    refine hkept (by rw [setUser_of_refused hstored]) fun row hrow => ?_
    cases hstored.symm.trans hrow
  | some row =>
    by_cases hjid : row.jid = user.jid
    · obtain ⟨r, hr, hid⟩ := @setUser_userRow_id c open_ kind db user row hstored
      rw [hjid] at hr hid
      exact Or.inl ⟨Or.inr ⟨row, hstored, hjid⟩, r, hr, hid⟩
    · refine hkept (setUser_userRow_of_ne hstored (Ne.symm hjid)) fun row' hrow => ?_
      cases hstored.symm.trans hrow
      exact hjid

theorem setUser_usersSettings :
    ((createBackend c open_ kind).setUser user db).1.usersSettings = db.usersSettings := by
  cases kind with
  | sqlite3 =>
    show (SQLite3.setUser user db).1.usersSettings = db.usersSettings
    unfold SQLite3.setUser
    split <;> rfl
  | mysql =>
    show (MySQL.execSetUser open_.columns c user db).1.usersSettings = db.usersSettings
    unfold MySQL.execSetUser
    split <;> rfl
  | pqxx =>
    show (PQXX.setUser c user db).1.usersSettings = db.usersSettings
    unfold PQXX.setUser
    split
    · rfl
    · split <;> rfl

theorem sqlite3_readable : Readable (createBackend c open_ .sqlite3) jid db := by
  unfold Readable
  simp only [createBackend, sqlite3, SQLite3.getUser]
  split
  · exact fun h => GetUser.noConfusion h
  · exact fun h => GetUser.noConfusion h

theorem getUserId_of_readable {b : Storage.Backend} (h : Readable b jid db) :
    getUserId b jid id db = some ((db.userRow jid).elim id UserRow.id) := by
  unfold getUserId
  cases hget : b.getUser jid db with
  | throws => exact absurd hget h
  | notFound => rfl
  | found user => rfl

theorem getUserId_of_throws {b : Storage.Backend} (h : ¬ Readable b jid db) :
    getUserId b jid id db = none := by
  unfold getUserId
  rw [not_not.mp h]

/-- With `allowPasswordChange` the user is written in any case. -/
theorem registerUser_of_readable {b : Storage.Backend} (h : Readable b user.jid db) :
    registerUser b user true db = some (b.setUser user db).1 := by
  unfold registerUser
  cases hget : b.getUser user.jid db with
  | throws => exact absurd hget h
  | notFound => rfl
  | found user => rfl

/-! ## The settings -/

theorem getUserSetting_users (out : Int × String) :
    ((createBackend c open_ kind).getUserSetting id name out db).1.users = db.users := by
  rw [createBackend_getUserSetting]
  split
  · unfold Db.insertUserSetting
    split <;> rfl
  · rfl

theorem getUserSettings_cons (b : Storage.Backend) (type : Int) (p : String × String)
    (settings : List (String × String)) :
    getUserSettings b id type (p :: settings) db =
      getUserSettings b id (b.getUserSetting id p.1 (type, p.2) db).2.1 settings
        (b.getUserSetting id p.1 (type, p.2) db).1 :=
  rfl

theorem getUserSettings_users (type : Int) (settings : List (String × String)) :
    (getUserSettings (createBackend c open_ kind) id type settings db).users = db.users := by
  induction settings generalizing type db with
  | nil => rfl
  | cons p settings ih =>
    rw [getUserSettings_cons]
    exact (ih _).trans (getUserSetting_users _)

theorem holdsSettings_getUserSetting (h : db.HoldsSettings (kind.columns open_)) (name : String)
    (out : Int × String) :
    ((createBackend c open_ kind).getUserSetting id name out db).1.HoldsSettings
      (kind.columns open_) :=
  holdsSettings_step h (.getUserSetting id name out)

/-- The type that is read can be written. -/
theorem takes_type_getUserSetting (h : db.HoldsSettings (kind.columns open_)) {type : Int}
    (htype : (kind.columns open_).type.Takes type) (value : String) :
    (kind.columns open_).type.Takes
      ((createBackend c open_ kind).getUserSetting id name (type, value) db).2.1 := by
  rw [createBackend_getUserSetting]
  split
  · exact htype
  · rename_i r hr
    exact (h r (Db.userSetting_eq_some_iff.mp hr).1).2.1

/-- What the columns make of a setting whose name and type they take. -/
theorem userSetting_of_takes {k : Columns} {type : Int} {value : String}
    (hname : (k.varchar 50).Takes name) (htype : k.type.Takes type) :
    k.userSetting { userId := id, var := name, type, value } =
      ((k.varchar 255).store value).map fun value => { userId := id, var := name, type, value } := by
  unfold Columns.userSetting
  simp only [Column.store_of_takes hname, Column.store_of_takes htype, Option.bind_eq_bind,
    Option.bind_some]
  cases (k.varchar 255).store value <;> rfl

/-- The setting that is read is inserted, as its column takes it, if there is none. -/
theorem value_getUserSetting_self {type : Int} {value : String}
    (hname : ((kind.columns open_).varchar 50).Takes name)
    (htype : (kind.columns open_).type.Takes type) :
    ((((createBackend c open_ kind).getUserSetting id name (type, value) db).1.userSetting id
        name).map UserSettingRow.value) =
      ((db.userSetting id name).map UserSettingRow.value).or
        (((kind.columns open_).varchar 255).store value) := by
  rw [createBackend_getUserSetting]
  cases hold : db.userSetting id name with
  | some r => simp only [hold, Option.map_some, Option.some_or]
  | none =>
    simp only [Option.map_none, Option.none_or]
    have hrow := @userSetting_of_takes name id (kind.columns open_) type value hname htype
    cases hvalue : ((kind.columns open_).varchar 255).store value with
    | none =>
      rw [hvalue, Option.map_none] at hrow
      rw [Db.insertUserSetting_of_refused hrow, hold, Option.map_none]
    | some stored =>
      rw [hvalue, Option.map_some] at hrow
      have hself := @Db.userSetting_insertUserSetting_self _ db _ _ hrow
      rw [hold, Option.getD_none] at hself
      rw [hself, Option.map_some]

theorem userSetting_getUserSetting_of_ne {name' : String} {type : Int} {value : String}
    (hname : ((kind.columns open_).varchar 50).Takes name')
    (htype : (kind.columns open_).type.Takes type) (hne : name ≠ name') :
    ((createBackend c open_ kind).getUserSetting id name' (type, value) db).1.userSetting id name =
      db.userSetting id name := by
  rw [createBackend_getUserSetting]
  split
  · have hrow := @userSetting_of_takes name' id (kind.columns open_) type value hname htype
    cases hvalue : ((kind.columns open_).varchar 255).store value with
    | none =>
      rw [hvalue, Option.map_none] at hrow
      rw [Db.insertUserSetting_of_refused hrow]
    | some stored =>
      rw [hvalue, Option.map_some] at hrow
      exact Db.userSetting_insertUserSetting_of_ne hrow fun hkey => hne hkey.2.symm
  · rfl

theorem userSetting_getUserSettings_of_not_mem {type : Int} {settings : List (String × String)}
    (hholds : db.HoldsSettings (kind.columns open_)) (htype : (kind.columns open_).type.Takes type)
    (hnames : ∀ p ∈ settings, ((kind.columns open_).varchar 50).Takes p.1)
    (h : name ∉ settings.map Prod.fst) :
    (getUserSettings (createBackend c open_ kind) id type settings db).userSetting id name =
      db.userSetting id name := by
  induction settings generalizing type db with
  | nil => rfl
  | cons p settings ih =>
    rw [List.map_cons, List.mem_cons, not_or] at h
    rw [getUserSettings_cons]
    refine (ih (holdsSettings_getUserSetting hholds _ _) (takes_type_getUserSetting hholds htype _)
      (fun q hq => hnames q (List.mem_cons_of_mem _ hq)) h.2).trans ?_
    exact userSetting_getUserSetting_of_ne (hnames p List.mem_cons_self) htype h.1

/-- A setting has the value that it had, or else what its column makes of the new one. -/
theorem value_getUserSettings {type : Int} {settings : List (String × String)}
    (hholds : db.HoldsSettings (kind.columns open_)) (htype : (kind.columns open_).type.Takes type)
    (hnames : ∀ p ∈ settings, ((kind.columns open_).varchar 50).Takes p.1)
    (hnodup : (settings.map Prod.fst).Nodup) {p : String × String} (hp : p ∈ settings) :
    ((getUserSettings (createBackend c open_ kind) id type settings db).userSetting id p.1).map
        UserSettingRow.value =
      ((db.userSetting id p.1).map UserSettingRow.value).or
        (((kind.columns open_).varchar 255).store p.2) := by
  induction settings generalizing type db with
  | nil => cases hp
  | cons q settings ih =>
    rw [List.map_cons, List.nodup_cons] at hnodup
    have hholds' : ((createBackend c open_ kind).getUserSetting id q.1 (type, q.2)
        db).1.HoldsSettings (kind.columns open_) := holdsSettings_getUserSetting hholds _ _
    have htype' := @takes_type_getUserSetting c open_ kind db q.1 id hholds type htype q.2
    have hnames' := fun p hp => hnames p (List.mem_cons_of_mem q hp)
    rw [getUserSettings_cons]
    rcases List.mem_cons.mp hp with rfl | hp
    · refine (congrArg _
        (userSetting_getUserSettings_of_not_mem hholds' htype' hnames' hnodup.1)).trans ?_
      exact value_getUserSetting_self (hnames p List.mem_cons_self) htype
    · refine (ih hholds' htype' hnames' hnodup.2 hp).trans ?_
      rw [userSetting_getUserSetting_of_ne (hnames q List.mem_cons_self) htype]
      intro hname
      exact hnodup.1 (hname ▸ List.mem_map_of_mem hp)

/-- The names and the type of the settings fit everywhere. -/
theorem Grant.takes_name (kind : Kind) (open_ : MySQL.Undefined) {g : Grant} {p : String × String}
    (hp : p ∈ g.settings) : ((kind.columns open_).varchar 50).Takes p.1 := by
  have hnames : ∀ name ∈ ["slack_channel", "bot_token", "access_token"],
      '\x00' ∉ name.toList ∧ name.length ≤ 50 ∧ MySQL.Fits 50 name := by
    decide +kernel
  have htakes : ∀ name ∈ ["slack_channel", "bot_token", "access_token"],
      ((kind.columns open_).varchar 50).Takes name := by
    intro name hname
    obtain ⟨hnul, hlength, hfits⟩ := hnames name hname
    cases kind with
    | sqlite3 => exact hnul
    | mysql => exact hfits
    | pqxx => exact ⟨hnul, hlength⟩
  refine htakes p.1 ?_
  unfold Grant.settings at hp
  split at hp
  · exact List.mem_cons_of_mem _ (List.mem_map_of_mem (f := Prod.fst) hp)
  · exact List.mem_map_of_mem (f := Prod.fst) hp

theorem takes_typeString (kind : Kind) (open_ : MySQL.Undefined) :
    (kind.columns open_).type.Takes typeString := by
  cases kind with
  | sqlite3 => trivial
  | mysql =>
    have hfits : UnsignedSmallint typeString := by decide
    exact hfits
  | pqxx =>
    have hfits : Smallint typeString := by decide
    exact hfits

theorem Grant.settings_nodup (g : Grant) : (g.settings.map Prod.fst).Nodup := by
  unfold Grant.settings
  split
  · have hnames : ["bot_token", "access_token"].Nodup := by decide
    exact hnames
  · have hnames : ["slack_channel", "bot_token", "access_token"].Nodup := by decide
    exact hnames

/-- Whatever the default is, the value of the row is read. -/
theorem forall_getUserSetting_eq_iff {value : String} :
    (∀ out, ((createBackend c open_ kind).getUserSetting id name out db).2.2 = value) ↔
      (db.userSetting id name).map UserSettingRow.value = some value := by
  simp only [createBackend_getUserSetting]
  cases hrow : db.userSetting id name with
  | none =>
    refine iff_of_false (fun h => ?_) nofun
    have hempty : "" = value := h (0, "")
    have hother : "x" = value := h (0, "x")
    exact absurd (hempty.trans hother.symm) (by decide)
  | some r =>
    simp only [Option.map_some, Option.some_inj]
    exact forall_const _

/-- The settings are read back exactly if there are no others and their column takes them. -/
theorem readsBack_getUserSettings_iff {g : Grant} {r : UserRow} (hrow : db.userRow jid = some r)
    (hholds : db.HoldsSettings (kind.columns open_)) :
    ReadsBack (createBackend c open_ kind) jid g.settings
        (getUserSettings (createBackend c open_ kind) r.id typeString g.settings db) ↔
      ∀ p ∈ g.settings, (∀ row, db.userSetting r.id p.1 = some row → row.value = p.2) ∧
        (db.userSetting r.id p.1 = none → ((kind.columns open_).varchar 255).Takes p.2) := by
  have hrow' : (getUserSettings (createBackend c open_ kind) r.id typeString g.settings
      db).userRow jid = some r := by
    rw [Db.userRow, getUserSettings_users]
    exact hrow
  have hone : ∀ p ∈ g.settings, (∀ out, ((createBackend c open_ kind).getUserSetting r.id p.1 out
      (getUserSettings (createBackend c open_ kind) r.id typeString g.settings db)).2.2 = p.2) ↔
        (∀ row, db.userSetting r.id p.1 = some row → row.value = p.2) ∧
        (db.userSetting r.id p.1 = none → ((kind.columns open_).varchar 255).Takes p.2) := by
    intro p hp
    rw [forall_getUserSetting_eq_iff, value_getUserSettings hholds (takes_typeString kind open_)
      (fun q hq => g.takes_name kind open_ hq) g.settings_nodup hp]
    cases db.userSetting r.id p.1 with
    | none => simp [Column.store_eq_self_iff]
    | some row => simp
  constructor
  · rintro ⟨r', hr', hread⟩ p hp
    cases hrow'.symm.trans hr'
    exact (hone p hp).mp (hread p hp)
  · intro hunset
    exact ⟨r, hrow', fun p hp => (hone p hp).mpr (hunset p hp)⟩

end Storage

section Steps

variable {c : Storage.Config} {open_ : MySQL.Undefined} {kind : Kind} {s s' : Registration}
  {call : Call} {answer : Except String String}

/-- What a call that is not refused leaves, unless the storage fails. -/
def Registration.granted (b : Storage.Backend) (s : Registration) (call : Call) (g : Grant) :
    Registration :=
  let user := g.written call.domain s.db
  let db := (b.setUser user s.db).1
  { s with
    db := getUserSettings b ((db.userRow call.domain).elim user.id UserRow.id) typeString g.settings
      db
    auths := if call.state = "use_bot_token" then s.auths else s.auths.erase call.state
    accepted := call.state :: s.accepted }

/-- A call that is not refused writes the user and his settings, unless the storage fails. -/
theorem handleOAuth2Code_of_granted {b : Storage.Backend} {g : Grant}
    (hgrant : s.requestToken call = .ok g) (hdomain : call.domain ≠ "")
    (hreadable : Readable b call.domain s.db)
    (hagain : Readable b call.domain (b.setUser (g.written call.domain s.db) s.db).1) :
    s.handleOAuth2Code b call =
      some (s.granted b call g, .ok ("Registered as " ++ call.domain)) := by
  have hwritten : registerUser b (g.written call.domain s.db) true s.db =
      some (b.setUser (g.written call.domain s.db) s.db).1 := registerUser_of_readable hreadable
  unfold Registration.handleOAuth2Code
  rw [hgrant]
  simp only [if_neg hdomain, getUserId_of_readable hreadable, Option.bind_eq_bind, Option.bind_some]
  change (registerUser b (g.written call.domain s.db) true s.db).bind _ = _
  rw [hwritten, Option.bind_some, getUserId_of_readable hagain, Option.bind_some]
  rfl

/-- A call without a grant, without a domain or without an answer of the storage changes nothing. -/
theorem handleOAuth2Code_cases {b : Storage.Backend}
    (h : s.handleOAuth2Code b call = some (s', answer)) :
    (s' = s ∧ ∃ error, answer = .error error) ∨
      ∃ g, s.requestToken call = .ok g ∧ call.domain ≠ "" ∧ Readable b call.domain s.db ∧
        Readable b call.domain (b.setUser (g.written call.domain s.db) s.db).1 ∧
        answer = .ok ("Registered as " ++ call.domain) ∧ s' = s.granted b call g := by
  cases hgrant : s.requestToken call with
  | error error =>
    unfold Registration.handleOAuth2Code at h
    rw [hgrant] at h
    cases h
    exact Or.inl ⟨rfl, error, rfl⟩
  | ok g =>
    by_cases hdomain : call.domain = ""
    · unfold Registration.handleOAuth2Code at h
      rw [hgrant] at h
      simp only [if_pos hdomain] at h
      cases h
      exact Or.inl ⟨rfl, _, rfl⟩
    · by_cases hreadable : Readable b call.domain s.db
      · by_cases hagain : Readable b call.domain
            (b.setUser (g.written call.domain s.db) s.db).1
        · have hcall := handleOAuth2Code_of_granted hgrant hdomain hreadable hagain
          cases hcall.symm.trans h
          exact Or.inr ⟨g, rfl, hdomain, hreadable, hagain, rfl, rfl⟩
        · -- The row that was written cannot be read.
          have hwritten : registerUser b (g.written call.domain s.db) true s.db =
              some (b.setUser (g.written call.domain s.db) s.db).1 :=
            registerUser_of_readable hreadable
          unfold Registration.handleOAuth2Code at h
          rw [hgrant] at h
          simp only [if_neg hdomain, getUserId_of_readable hreadable, Option.bind_eq_bind,
            Option.bind_some] at h
          change (registerUser b (g.written call.domain s.db) true s.db).bind _ = _ at h
          rw [hwritten, Option.bind_some, getUserId_of_throws hagain, Option.bind_none] at h
          cases h
      · unfold Registration.handleOAuth2Code at h
        rw [hgrant] at h
        simp only [if_neg hdomain, getUserId_of_throws hreadable, Option.bind_eq_bind,
          Option.bind_none] at h
        cases h

/-! ## States -/

/-- A state that waits for a call was issued once more often than it was accepted. -/
def Registration.Ledger (s : Registration) : Prop :=
  ∀ uuid : Uuid, s.accepted.count uuid.text + (if (s.auths.get uuid.text).isSome then 1 else 0) ≤
    s.issued.count uuid.text

theorem Registration.Ledger.once (h : s.Ledger) : s.Once :=
  fun uuid => Nat.le_trans (Nat.le_add_right _ _) (h uuid)

theorem Registration.Ledger.createOAuth2URL (h : s.Ledger) (uuid : Uuid) (args : List String) :
    (s.createOAuth2URL uuid args).Ledger := by
  intro other
  have hother := h other
  simp only [Registration.createOAuth2URL, SortedMap.get_set, List.count_cons, beq_iff_eq]
  by_cases heq : other.text = uuid.text
  · rw [if_pos heq, if_pos heq.symm, Option.isSome_some, if_pos rfl]
    omega
  · rw [if_neg heq, if_neg (Ne.symm heq)]
    omega

/-- What a call uses up had been issued: only a state that waits is granted. -/
theorem Registration.Ledger.accept (h : s.Ledger) {g : Grant} (hgrant : s.requestToken call = .ok g)
    (db : Db) : ({ s with
      db
      auths := if call.state = "use_bot_token" then s.auths else s.auths.erase call.state
      accepted := call.state :: s.accepted } : Registration).Ledger := by
  intro other
  have hother := h other
  have hother' : other.text ≠ "use_bot_token" := by
    intro heq
    have hsize := other.size
    rw [heq] at hsize
    exact absurd hsize (by decide)
  simp only [List.count_cons, beq_iff_eq]
  by_cases heq : call.state = other.text
  · have hwaits : (s.auths.get other.text).isSome := by
      unfold Registration.requestToken at hgrant
      rw [heq, if_neg hother'] at hgrant
      cases hget : s.auths.get other.text with
      | none =>
        rw [hget] at hgrant
        cases hgrant
      | some data => rfl
    rw [heq, if_neg hother', if_pos rfl, SortedMap.get_erase_self]
    rw [if_pos hwaits] at hother
    simpa using hother
  · rw [if_neg heq]
    split
    · exact hother
    · rw [SortedMap.get_erase_of_ne (Ne.symm heq)]
      exact hother

theorem Registration.Ledger.handleOAuth2Code {b : Storage.Backend} (h : s.Ledger)
    (hs : s.handleOAuth2Code b call = some (s', answer)) : s'.Ledger := by
  rcases handleOAuth2Code_cases hs with ⟨rfl, -⟩ | ⟨g, hgrant, -, -, -, -, rfl⟩
  · exact h
  · exact h.accept hgrant _

theorem ledger_of_run {b : Storage.Backend} {k : Columns} {tr : List (Registration × Event k)}
    (h : (machine b k).Run tr s) : s.Ledger := by
  refine Machine.Run.invariant (I := Registration.Ledger) (fun s hinit => ?_)
    (fun s e s' hs hinv => ?_) h
  · rw [hinit.1]
    intro uuid
    exact Nat.le_refl 0
  · cases e with
    | createOAuth2URL uuid args =>
      cases hs
      exact hinv.createOAuth2URL uuid args
    | handleOAuth2Code call =>
      obtain ⟨⟨s₁, answer⟩, hcall, rfl⟩ := Option.map_eq_some_iff.mp hs
      exact hinv.handleOAuth2Code hcall
    | storage db hholds =>
      cases hs
      exact hinv

/-! ## Settings -/

theorem holdsSettings_setUser (h : s.db.HoldsSettings (kind.columns open_))
    (user : Storage.UserInfo) :
    ((createBackend c open_ kind).setUser user s.db).1.HoldsSettings (kind.columns open_) := by
  unfold Db.HoldsSettings
  rw [setUser_usersSettings]
  exact h

theorem holdsSettings_getUserSettings {db : Db} (h : db.HoldsSettings (kind.columns open_))
    (id type : Int) (settings : List (String × String)) :
    (getUserSettings (createBackend c open_ kind) id type settings db).HoldsSettings
      (kind.columns open_) := by
  induction settings generalizing type db with
  | nil => exact h
  | cons p settings ih => exact ih (holdsSettings_getUserSetting h _ _) _

theorem holdsSettings_of_run {tr : List (Registration × Event (kind.columns open_))}
    (h : (machine (createBackend c open_ kind) (kind.columns open_)).Run tr s) :
    s.db.HoldsSettings (kind.columns open_) := by
  refine Machine.Run.invariant (I := fun s => s.db.HoldsSettings (kind.columns open_))
    (fun s hinit => ?_) (fun s e s' hs hinv => ?_) h
  · exact hinit.2
  cases e with
  | createOAuth2URL uuid args =>
    cases hs
    exact hinv
  | handleOAuth2Code call =>
    obtain ⟨⟨s₁, answer⟩, hcall, rfl⟩ := Option.map_eq_some_iff.mp hs
    rcases handleOAuth2Code_cases hcall with ⟨rfl, -⟩ | ⟨g, -, -, -, -, -, rfl⟩
    · exact hinv
    · exact holdsSettings_getUserSettings (holdsSettings_setUser hinv _) _ _ _
  | storage db hholds =>
    cases hs
    exact hholds

/-- After a call that is not refused the settings are read back exactly if it found no others, and a
row for the user. -/
theorem readsBack_granted_iff (hholds : s.db.HoldsSettings (kind.columns open_)) (g : Grant) :
    ReadsBack (createBackend c open_ kind) call.domain g.settings
        (s.granted (createBackend c open_ kind) call g).db ↔
      Registrable (createBackend c open_ kind) (g.written call.domain s.db) s.db ∧
        Unset kind open_ call.domain g.settings s.db := by
  let user := g.written call.domain s.db
  have hjid : user.jid = call.domain := rfl
  have hsettings : ∀ id name, ((createBackend c open_ kind).setUser user s.db).1.userSetting id
      name = s.db.userSetting id name := by
    intro id name
    rw [Db.userSetting, setUser_usersSettings]
    rfl
  rcases @setUser_userRow_cases c open_ kind s.db user with ⟨hregistrable, r, hrow, hid⟩ |
    ⟨hnot, hnone⟩
  · rw [hjid] at hrow hid
    have hgranted : (s.granted (createBackend c open_ kind) call g).db =
        getUserSettings (createBackend c open_ kind) r.id typeString g.settings
          ((createBackend c open_ kind).setUser user s.db).1 := by
      change getUserSettings _ (Option.elim (Db.userRow call.domain
        ((createBackend c open_ kind).setUser user s.db).1) user.id UserRow.id) _ _ _ = _
      rw [hrow]
      rfl
    rw [hgranted, readsBack_getUserSettings_iff hrow (holdsSettings_setUser hholds user),
      and_iff_right hregistrable]
    simp only [hsettings, hid]
    rfl
  · refine iff_of_false ?_ fun h => hnot h.1
    rintro ⟨r, hr, -⟩
    have hgone : (s.granted (createBackend c open_ kind) call g).db.userRow call.domain = none := by
      change Db.userRow call.domain (getUserSettings _ _ _ _ _) = none
      rw [Db.userRow, getUserSettings_users]
      exact hnone
    cases hgone.symm.trans hr

/-- A call takes effect exactly when it finds no other settings. -/
theorem takesEffect_iff (h : s.Ledger) (hholds : s.db.HoldsSettings (kind.columns open_)) :
    TakesEffect (createBackend c open_ kind) s call ↔
      FindsUnset (createBackend c open_ kind) kind open_ s call := by
  constructor
  · intro heffect g hgrant hdomain hreadable hagain
    have hcall := handleOAuth2Code_of_granted hgrant hdomain hreadable hagain
    exact (readsBack_granted_iff hholds g).mp ((heffect _ _ hcall).2 g hgrant)
  · intro hunset s' answer hcall
    rcases handleOAuth2Code_cases hcall with ⟨rfl, error, rfl⟩ |
      ⟨g, hgrant, hdomain, hreadable, hagain, rfl, rfl⟩
    · exact ⟨rfl, rfl⟩
    · refine ⟨(h.accept hgrant _).once, fun g' hgrant' => ?_⟩
      cases hgrant.symm.trans hgrant'
      exact (readsBack_granted_iff hholds g).mpr (hunset g hgrant hdomain hreadable hagain)

end Steps

/-- After every history a call takes effect exactly when the settings that it writes are not set to
other values and fit. States are accepted as often as they were issued and a refused call changes
nothing. -/
theorem takesEffect_iff_findsUnset (c : Storage.Config) (open_ : MySQL.Undefined) (kind : Kind)
    {tr : List (Registration × Event (kind.columns open_))} {s : Registration}
    (h : (machine (createBackend c open_ kind) (kind.columns open_)).Run tr s) (call : Call) :
    TakesEffect (createBackend c open_ kind) s call ↔
      FindsUnset (createBackend c open_ kind) kind open_ s call :=
  takesEffect_iff (ledger_of_run h) (holdsSettings_of_run h)

namespace Sample

def uuid (last : Char) : Uuid where
  text := "6ba7b810-9dad-11d1-80b4-00c04fd430c" ++ String.singleton last
  size := by
    rw [String.length_append, String.length_singleton]
    rfl

/-- The team registers with a token, in the channel that is given. -/
def call (last : Char) (token : String) : Call where
  code := "code"
  state := (uuid last).text
  accessToken := token
  domain := "team"

def register (last : Char) (token : String) : List (Event SQLite3.columns) :=
  [.createOAuth2URL (uuid last) ["", "#spectrum", "bot@example.com"],
    .handleOAuth2Code (call last token)]

theorem init : (machine sqlite3 SQLite3.columns).init {} := ⟨rfl, nofun⟩

end Sample

open SlackRegistration.Sample in
/-- A team that registers for the first time. -/
theorem takesEffect_iff_findsUnset_first :
    ∃ s, (∃ tr, (machine sqlite3 SQLite3.columns).Run tr s) ∧
      TakesEffect sqlite3 s (call '8' "xoxp") := by
  let call := call '8' "xoxp"
  have hexec : ((machine sqlite3 SQLite3.columns).exec {} ((register '8' "xoxp").take 1)).any
      (fun s => match s.requestToken call with
        | .ok g => decide ((∀ p ∈ g.settings, (SQLite3.columns.varchar 255).Takes p.2) ∧
            (sqlite3.stored (g.written call.domain s.db)).map Storage.UserInfo.jid =
              some call.domain ∧
            s.db.usersSettings.rows = [])
        | .error _ => false) = true := by decide +kernel
  obtain ⟨s, hs, hfacts⟩ := (Option.any_eq_true _ _).mp hexec
  obtain ⟨tr, hrun, -⟩ := Machine.exists_run_of_exec init hs
  refine ⟨s, ⟨tr, hrun⟩, ?_⟩
  refine (takesEffect_iff_findsUnset {} {} .sqlite3 hrun _).mpr ?_
  intro g hgrant _ _ _
  change s.requestToken call = .ok g at hgrant
  simp only [hgrant] at hfacts
  obtain ⟨htakes, hstored, hempty⟩ := of_decide_eq_true hfacts
  obtain ⟨row, hrow, hjid⟩ := Option.map_eq_some_iff.mp hstored
  have hnone : ∀ id name, s.db.userSetting id name = none := by
    intro id name
    rw [Db.userSetting, hempty]
    rfl
  refine ⟨Or.inr ⟨row, hrow, hjid⟩, fun p hp => ⟨fun r hr => ?_, fun _ => htakes p hp⟩⟩
  rw [hnone] at hr
  cases hr

open SlackRegistration.Sample in
/-- The tokens of a team that registers again are not stored. -/
theorem not_takesEffect_of_again : ¬ ∀ tr s call, (machine sqlite3 SQLite3.columns).Run tr s →
    TakesEffect sqlite3 s call := by
  intro h
  have hfinal : ((machine sqlite3 SQLite3.columns).exec {}
      (register '8' "xoxp" ++ (register '9' "xoxb").take 1)).map
      (fun s => (match s.requestToken (call '9' "xoxb") with
        | .ok g => g.settings
        | .error _ => [], (s.db.userSetting (userIdOf .sqlite3 "team" s.db) "bot_token").map
          UserSettingRow.value)) =
      some ([("slack_channel", "spectrum"), ("bot_token", "xoxb"), ("access_token", "xoxb")],
        some "xoxp") := by
    decide +kernel
  obtain ⟨s, hs, hfinal⟩ := Option.map_eq_some_iff.mp hfinal
  obtain ⟨tr, hrun, -⟩ := Machine.exists_run_of_exec init hs
  have hledger : s.Ledger := ledger_of_run hrun
  have hholds := @holdsSettings_of_run {} {} .sqlite3 s tr hrun
  have hunset := (@takesEffect_iff {} {} .sqlite3 s (call '9' "xoxb") hledger hholds).mp
    (h tr s (call '9' "xoxb") hrun)
  obtain ⟨hsettings, hstored⟩ := Prod.mk.inj hfinal
  obtain ⟨r, hr, hvalue⟩ := Option.map_eq_some_iff.mp hstored
  cases hgrant : s.requestToken (call '9' "xoxb") with
  | error error =>
    rw [hgrant] at hsettings
    cases hsettings
  | ok g =>
    rw [hgrant] at hsettings
    have hsettings : g.settings = _ := hsettings
    have hmem : ("bot_token", "xoxb") ∈ g.settings := by
      rw [hsettings]
      exact List.mem_cons_of_mem _ List.mem_cons_self
    have hnew := ((hunset g hgrant (by decide +kernel) sqlite3_readable sqlite3_readable).2 _
      hmem).1 r hr
    rw [hvalue] at hnew
    exact absurd hnew (by decide +kernel)

end Spectrum.SlackRegistration
