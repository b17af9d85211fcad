import Spectrum.Storage.MySQL
import Spectrum.Storage.PQXX
import Spectrum.Storage.SQLite3

/-!
# Users

What `setUser` makes of the row of a user, which `getUser` reads afterwards. SQLite resets `online`,
MySQL keeps the language, the encoding and the VIP flag of a row that exists, and PostgreSQL refuses
to write such a row.
-/

namespace Spectrum.Storage

open Lib Wire

/-- The backends that `StorageBackend::createBackend` knows. -/
inductive Kind
  | sqlite3
  | mysql
  | pqxx
  deriving DecidableEq, Repr

/-- The columns that `createDatabase` makes. -/
def Kind.columns (open_ : MySQL.Undefined) : Kind → Columns
  | .sqlite3 => SQLite3.columns
  | .mysql => open_.columns
  | .pqxx => PQXX.columns

/-- `StorageBackend::createBackend`. -/
def createBackend (c : Config) (open_ : MySQL.Undefined) : Kind → Backend
  | .sqlite3 => sqlite3
  | .mysql => mysql c open_
  | .pqxx => pqxx c

/-! ## Rows of users -/

namespace Db

variable {db db' : Db} {jid : String} {r : UserRow}

theorem userRow_eq_some_iff : db.userRow jid = some r ↔ r ∈ db.users.rows ∧ r.jid = jid := by
  constructor
  · intro h
    exact ⟨List.mem_of_find?_eq_some h, by simpa using List.find?_some h⟩
  · rintro ⟨hr, hjid⟩
    refine db.users.find?_of_mem ?_ hr (by simpa using hjid)
    intro r s hr hs
    simp only [decide_eq_true_eq] at hr hs
    exact Or.inr (hr.trans hs.symm)

theorem userRow_eq_none_iff : db.userRow jid = none ↔ ∀ r ∈ db.users.rows, r.jid ≠ jid := by
  simp [userRow, List.find?_eq_none]

/-- The row of a user is found by what the table says about his JID. -/
theorem userRow_congr
    (h : ∀ r, r.jid = jid → (r ∈ db'.users.rows ↔ r ∈ db.users.rows)) :
    db'.userRow jid = db.userRow jid := by
  refine Option.ext fun r => ?_
  rw [userRow_eq_some_iff, userRow_eq_some_iff]
  constructor
  · rintro ⟨hr, hjid⟩
    exact ⟨(h r hjid).mp hr, hjid⟩
  · rintro ⟨hr, hjid⟩
    exact ⟨(h r hjid).mpr hr, hjid⟩

/-- No row has the next id of the counter. -/
theorem ne_succ_lastUser (hr : r ∈ db.users.rows) : db.lastUser + 1 ≠ r.id := by
  have := db.users_le r hr
  omega

theorem writeOnline_userRow (id : Int) (online : Bool) :
    (db.writeOnline id online).userRow jid =
      (db.userRow jid).map fun r => if r.id = id then { r with online } else r := by
  refine (Table.find?_map_ite (p := fun r => decide (r.id = id)) (f := fun r => { r with online })
    (q := fun r => decide (r.jid = jid)) (fun r => rfl) db.users.rows).trans ?_
  simp only [decide_eq_true_eq]
  rfl

end Db

/-! ## The row after `setUser` -/

namespace SQLite3

variable {db : Db} {user : UserInfo} {jid : String}

theorem newRow_id_of_some {r : UserRow} (h : db.userRow user.jid = some r) :
    (newRow user db).id = r.id := by
  rw [newRow, h, Option.map_some, Option.getD_some]

theorem newRow_id_of_none (h : db.userRow user.jid = none) :
    ∀ r ∈ db.users.rows, (newRow user db).id ≠ r.id := by
  intro r hr heq
  have hle := le_top (List.mem_map_of_mem (f := UserRow.id) hr)
  rw [newRow, h, Option.map_none, Option.getD_none] at heq
  simp only [nextUser] at heq
  omega

/-- The new row clashes with the old row of the user only. -/
theorem clash_newRow_iff {r : UserRow} (hr : r ∈ db.users.rows) :
    Keyed.Clash (newRow user db) r ↔ r.jid = user.jid := by
  constructor
  · rintro (hid | hjid)
    · cases hrow : db.userRow user.jid with
      | none => exact absurd hid (newRow_id_of_none hrow r hr)
      | some s =>
        rw [newRow_id_of_some hrow] at hid
        rw [Db.userRow_eq_some_iff] at hrow
        rw [← db.users.eq_of_clash hrow.1 hr (Or.inl hid)]
        exact hrow.2
    · exact hjid.symm
  · intro hjid
    exact Or.inr hjid.symm

theorem user_ne_none (user : UserInfo) : ∃ row, columns.user user = some row := by
  have hstore : ∀ {α : Type} (col : Column α) (v : α), (∀ v, col.instead v ≠ none) →
      ∃ w, col.store v = some w := by
    intro α col v hinstead
    unfold Column.store
    split
    · exact ⟨v, rfl⟩
    · exact Option.ne_none_iff_exists'.mp (hinstead v)
  have htext : ∀ n s, ∃ t, (columns.varchar n).store s = some t := fun n s => hstore _ s nofun
  obtain ⟨jid, hjid⟩ := htext 255 user.jid
  obtain ⟨uin, huin⟩ := htext 4095 user.uin
  obtain ⟨password, hpassword⟩ := hstore columns.password user.password nofun
  obtain ⟨language, hlanguage⟩ := htext 25 user.language
  obtain ⟨encoding, hencoding⟩ := htext 50 user.encoding
  exact ⟨_, by simp [Columns.user, hjid, huin, hpassword, hlanguage, hencoding]; rfl⟩

theorem setUser_of_stored {row : UserInfo} (h : columns.user user = some row) :
    setUser user db = (db.setUsers (db.users.replace (newRow row db)) db.lastUser, true) := by
  simp only [setUser, h]

theorem setUser_userRow_self {row : UserInfo} (h : columns.user user = some row) :
    (setUser user db).1.userRow row.jid = some (newRow row db) := by
  rw [setUser_of_stored h, Db.userRow_eq_some_iff]
  exact ⟨Table.mem_replace.mpr (Or.inr rfl), rfl⟩

theorem setUser_userRow_of_ne {row : UserInfo} (h : columns.user user = some row)
    (hne : jid ≠ row.jid) : (setUser user db).1.userRow jid = db.userRow jid := by
  rw [setUser_of_stored h]
  refine Db.userRow_congr fun r hjid => ?_
  simp only [Db.setUsers_users, Table.mem_replace]
  constructor
  · rintro (⟨hr, -⟩ | rfl)
    · exact hr
    · exact absurd hjid (Ne.symm hne)
  · intro hr
    refine Or.inl ⟨hr, ?_⟩
    rw [clash_newRow_iff hr, hjid]
    exact hne

end SQLite3

namespace MySQL

variable {k : Columns} {c : Config} {db : Db} {user : UserInfo} {jid : String}

theorem clash_newRow_iff {r : UserRow} (hr : r ∈ db.users.rows) :
    Keyed.Clash (newRow user db) r ↔ r.jid = user.jid := by
  constructor
  · rintro (hid | hjid)
    · exact absurd hid (Db.ne_succ_lastUser hr)
    · exact hjid.symm
  · intro hjid
    exact Or.inr hjid.symm

/-- A JID without a row. -/
theorem upsertUser_rows_of_none (h : db.userRow user.jid = none) :
    (upsertUser user db).users.rows = db.users.rows ++ [newRow user db] := by
  rw [Db.userRow_eq_none_iff] at h
  refine Table.rows_upsert_of_new fun r hr => ?_
  rw [clash_newRow_iff hr]
  exact h r hr

/-- A JID with a row. -/
theorem upsertUser_rows_of_some {r : UserRow} (h : db.userRow user.jid = some r) :
    (upsertUser user db).users.rows =
      db.users.rows.map fun s => if s.jid = user.jid then changedRow user s else s := by
  rw [Db.userRow_eq_some_iff] at h
  have hclash : Keyed.Clash (newRow user db) r := Or.inr h.2.symm
  rw [upsertUser, Db.setUsers_users, Table.upsert_of_clash h.1 hclash]
  refine List.map_congr_left fun s hs => ?_
  simp only [decide_eq_true_eq, clash_newRow_iff hs]

theorem upsertUser_userRow_self :
    (upsertUser user db).userRow user.jid =
      some ((db.userRow user.jid).elim (newRow user db) (changedRow user)) := by
  rw [Db.userRow_eq_some_iff]
  cases hrow : db.userRow user.jid with
  | none =>
    rw [upsertUser_rows_of_none hrow]
    exact ⟨List.mem_append_right _ (List.mem_singleton_self _), rfl⟩
  | some r =>
    rw [upsertUser_rows_of_some hrow]
    rw [Db.userRow_eq_some_iff] at hrow
    refine ⟨List.mem_map.mpr ⟨r, hrow.1, if_pos hrow.2⟩, hrow.2⟩

theorem upsertUser_userRow_of_ne (h : jid ≠ user.jid) :
    (upsertUser user db).userRow jid = db.userRow jid := by
  refine Db.userRow_congr fun r hjid => ?_
  cases hrow : db.userRow user.jid with
  | none =>
    rw [upsertUser_rows_of_none hrow, List.mem_append, List.mem_singleton]
    constructor
    · rintro (hr | rfl)
      · exact hr
      · exact absurd hjid.symm h
    · exact Or.inl
  | some s =>
    rw [upsertUser_rows_of_some hrow, List.mem_map]
    constructor
    · rintro ⟨s, hs, rfl⟩
      split at hjid
      · rename_i hself
        exact absurd (hjid.symm.trans hself) h
      · rename_i hother
        rw [if_neg hother]
        exact hs
    · intro hr
      exact ⟨r, hr, if_neg (hjid ▸ h)⟩

theorem execSetUser_of_stored {row : UserInfo} (h : k.user (c.lockUser user) = some row) :
    execSetUser k c user db = (upsertUser row db, true) := by
  simp only [execSetUser, h]

theorem execSetUser_of_refused (h : k.user (c.lockUser user) = none) :
    execSetUser k c user db = (db, false) := by
  simp only [execSetUser, h]

end MySQL

namespace PQXX

variable {c : Config} {db : Db} {user row : UserInfo} {jid : String}

theorem setUser_of_refused (h : columns.user (c.lockUser user) = none) :
    setUser c user db = (db, false) := by
  simp only [setUser, h]

theorem setUser_of_some {r : UserRow} (hrow : columns.user (c.lockUser user) = some row)
    (h : db.userRow row.jid = some r) :
    setUser c user db = (db.setUsers db.users (db.lastUser + 1), false) := by
  rw [Db.userRow_eq_some_iff] at h
  simp only [setUser, hrow]
  rw [Table.insert_eq_none h.1 (Or.inr h.2.symm)]

theorem setUser_of_none (hrow : columns.user (c.lockUser user) = some row)
    (h : db.userRow row.jid = none) :
    ∃ t, setUser c user db = (db.setUsers t (db.lastUser + 1), true) ∧
      t.rows = db.users.rows ++ [newRow row db] := by
  rw [Db.userRow_eq_none_iff] at h
  have hnew : ∀ r ∈ db.users.rows, ¬ Keyed.Clash (newRow row db) r := by
    rintro r hr (hid | hjid)
    · exact Db.ne_succ_lastUser hr hid
    · exact h r hr hjid.symm
  obtain ⟨t, hinsert, hrows⟩ := Table.insert_eq_some hnew
  exact ⟨t, by simp only [setUser, hrow, hinsert], hrows⟩

theorem setUser_userRow_self (hrow : columns.user (c.lockUser user) = some row) :
    (setUser c user db).1.userRow row.jid = some ((db.userRow row.jid).getD (newRow row db)) := by
  cases hold : db.userRow row.jid with
  | none =>
    obtain ⟨t, hset, hrows⟩ := setUser_of_none hrow hold
    rw [hset, Db.userRow_eq_some_iff, Db.setUsers_users, hrows]
    exact ⟨List.mem_append_right _ (List.mem_singleton_self _), rfl⟩
  | some r =>
    rw [setUser_of_some hrow hold]
    exact hold

theorem setUser_userRow_of_ne (hrow : columns.user (c.lockUser user) = some row)
    (h : jid ≠ row.jid) : (setUser c user db).1.userRow jid = db.userRow jid := by
  cases hold : db.userRow row.jid with
  | none =>
    obtain ⟨t, hset, hrows⟩ := setUser_of_none hrow hold
    refine Db.userRow_congr fun r hjid => ?_
    rw [hset, Db.setUsers_users, hrows, List.mem_append, List.mem_singleton]
    constructor
    · rintro (hr | rfl)
      · exact hr
      · exact absurd hjid.symm h
    · exact Or.inl
  | some r =>
    rw [setUser_of_some hrow hold]
    rfl

end PQXX

/-! ## What `getUser` reads -/

/-- The data of a user without his id. -/
def UserInfo.data (user : UserInfo) : String × String × Bytes × String × String × Bool :=
  (user.jid, user.uin, user.password, user.language, user.encoding, user.vip)

/-- The answer without the id. -/
def GetUser.data : GetUser → Option (String × String × Bytes × String × String × Bool)
  | .found user => some user.data
  | .notFound => none
  | .throws => none

/-- What the statement for VIPs says. -/
def Config.vipAnswer (c : Config) (jid : String) : Option Bool :=
  c.vipStatement.bind fun ask => ask jid

theorem MySQL.finish_askVip (c : Config) (jid : String) (user : UserInfo) (ret : Bool) (db : Db) :
    (askVip c jid user ret).finish db =
      (db, { user with vip := (c.vipAnswer jid).getD user.vip }, some ret) := by
  unfold askVip Config.vipAnswer
  cases c.vipStatement <;> rfl

theorem sqlite3_getUser_data (jid : String) (db : Db) :
    (sqlite3.getUser jid db).data = (db.userRow jid).map fun r =>
      (r.jid, r.uin, r.password, r.language, r.encoding, r.vip) := by
  simp only [sqlite3, SQLite3.getUser]
  cases db.userRow jid <;> rfl

theorem mysql_getUser_data (c : Config) (open_ : MySQL.Undefined) (jid : String) (db : Db) :
    ((mysql c open_).getUser jid db).data = (db.userRow jid).bind fun r =>
      (c.unlock r.password).map fun password =>
        (r.jid, r.uin, password, r.language, r.encoding,
          (c.vipAnswer jid).getD (r.vip || open_.vipRest 0)) := by
  simp only [mysql, MySQL.getUser, Script.finish, MySQL.select]
  cases db.userRow jid with
  | none => simp only [MySQL.finish_askVip, GetUser.data, Option.bind_none]
  | some r =>
    simp only [Option.bind_some]
    cases c.unlock r.password with
    | none => rfl
    | some password =>
      simp only [MySQL.finish_askVip]
      rfl

theorem pqxx_getUser_data (c : Config) (jid : String) (db : Db) :
    ((pqxx c).getUser jid db).data = (db.userRow jid).bind fun r =>
      (c.unlock r.password).map fun password =>
        (r.jid, r.uin, password, r.language, r.encoding, r.vip) := by
  simp only [pqxx, PQXX.getUser]
  cases db.userRow jid with
  | none => rfl
  | some r =>
    simp only [Option.bind_some]
    cases c.unlock r.password <;> rfl

theorem GetUser.data_eq_some_iff (answer : GetUser)
    (data : String × String × Bytes × String × String × Bool) :
    answer.data = some data ↔ ∃ user, answer = .found user ∧ user.data = data := by
  cases answer with
  | found user => simp [GetUser.data]
  | notFound => simp [GetUser.data]
  | throws => simp [GetUser.data]

/-! ## One call -/

/-- After `setUser` has succeeded, `getUser` gives the data of the user, and a row that existed keeps
its id and `online`. -/
def WritesUser (b : Backend) (user : UserInfo) (db : Db) : Prop :=
  (b.setUser user db).2 = true →
    (∃ read, b.getUser user.jid (b.setUser user db).1 = .found read ∧ read.data = user.data) ∧
    ∀ r, db.userRow user.jid = some r →
      ∃ r', (b.setUser user db).1.userRow user.jid = some r' ∧ r'.id = r.id ∧ r'.online = r.online

/-- No JID is in the table that its column does not take. -/
def Db.Holds (k : Columns) (db : Db) : Prop := ∀ r ∈ db.users.rows, (k.varchar 255).Takes r.jid

/-- The password comes back: the column takes it and it survives, or what is stored instead of it is
read as the password. -/
def PasswordKept (c : Config) (k : Columns) (password : Bytes) : Prop :=
  k.password.Takes (c.lock password) ∧ PasswordSurvives password c.encryptionKey ∨
    ¬ k.password.Takes (c.lock password) ∧
      ∃ stored ∈ k.password.instead (c.lock password), c.unlock stored = some password

/-- The flag of the user is read when `vip` is in the table: the statement for VIPs says it, or it
says nothing and the bytes of the flag do. -/
def VipReads (c : Config) (open_ : MySQL.Undefined) (user : UserInfo) (vip : Bool) : Prop :=
  match c.vipAnswer user.jid with
  | none => (vip || open_.vipRest 0) = user.vip
  | some answer => answer = user.vip

/-- What the user, and the row of the user, must be like for `setUser`. A user whom a column refuses
is not set, and PostgreSQL sets nobody who has a row. -/
def UserFits (c : Config) (open_ : MySQL.Undefined) (user : UserInfo) (db : Db) : Kind → Prop
  | .sqlite3 =>
    SQLite3.columns.TakesUser user ∧ ∀ r, db.userRow user.jid = some r → r.online = false
  | .mysql =>
    open_.columns.user (c.lockUser user) = none ∨
    (open_.columns.varchar 255).Takes user.jid ∧ (open_.columns.varchar 4095).Takes user.uin ∧
    PasswordKept c open_.columns user.password ∧
    match db.userRow user.jid with
    | none => (open_.columns.varchar 25).Takes user.language ∧
      (open_.columns.varchar 50).Takes user.encoding ∧ VipReads c open_ user user.vip
    | some r => r.language = user.language ∧ r.encoding = user.encoding ∧
      VipReads c open_ user r.vip
  | .pqxx =>
    (∀ row ∈ PQXX.columns.user (c.lockUser user), ∃ r, db.userRow row.jid = some r) ∨
    (PQXX.columns.varchar 255).Takes user.jid ∧ (PQXX.columns.varchar 4095).Takes user.uin ∧
    PasswordKept c PQXX.columns user.password ∧ (PQXX.columns.varchar 25).Takes user.language ∧
    (PQXX.columns.varchar 50).Takes user.encoding

section OneCall

variable {c : Config} {open_ : MySQL.Undefined} {k : Columns} {user row : UserInfo} {db : Db}

theorem passwordKept_iff {stored password : Bytes}
    (h : k.password.store (c.lock password) = some stored) :
    c.unlock stored = some password ↔ PasswordKept c k password := by
  by_cases htakes : k.password.Takes (c.lock password)
  · rw [Column.eq_of_store htakes h, c.unlock_lock_eq_iff]
    simp [PasswordKept, htakes]
  · have hinstead : k.password.instead (c.lock password) = some stored := by
      rw [← h, Column.store, if_neg htakes]
    simp [PasswordKept, htakes, hinstead]

/-- The flag that MySQL reads is that of the user. -/
theorem vipAnswer_getD_eq_iff (vip : Bool) :
    (c.vipAnswer user.jid).getD (vip || open_.vipRest 0) = user.vip ↔
      VipReads c open_ user vip := by
  unfold VipReads
  cases c.vipAnswer user.jid <;> rfl

/-- A JID that the column does not take is not found. -/
theorem Db.Holds.userRow_eq_none {jid : String} (h : db.Holds k)
    (hjid : ¬ (k.varchar 255).Takes jid) : db.userRow jid = none := by
  rw [Db.userRow_eq_none_iff]
  rintro r hr rfl
  exact hjid (h r hr)

/-- The three answers are a record only if there is a row. -/
theorem createBackend_getUser_data_of_none (kind : Kind) {jid : String}
    (h : db.userRow jid = none) : ((createBackend c open_ kind).getUser jid db).data = none := by
  cases kind with
  | sqlite3 =>
    refine (sqlite3_getUser_data jid db).trans ?_
    rw [h, Option.map_none]
  | mysql =>
    refine (mysql_getUser_data c open_ jid db).trans ?_
    rw [h, Option.bind_none]
  | pqxx =>
    refine (pqxx_getUser_data c jid db).trans ?_
    rw [h, Option.bind_none]

/-- If the user is read his JID is the one that was stored. -/
theorem eq_jid_of_data (c : Config) (open_ : MySQL.Undefined) (kind : Kind) {db' : Db}
    {jid jid' : String}
    {data : String × String × Bytes × String × String × Bool} (hholds : db.Holds k)
    (hstore : (k.varchar 255).store jid = some jid')
    (hother : ∀ {jid}, jid ≠ jid' → db'.userRow jid = db.userRow jid)
    (hdata : ((createBackend c open_ kind).getUser jid db').data = some data) : jid' = jid := by
  by_contra hne
  have hunfit : ¬ (k.varchar 255).Takes jid := fun htakes =>
    hne (Column.eq_of_store htakes hstore)
  have hnone := (hother (Ne.symm hne)).trans (hholds.userRow_eq_none hunfit)
  rw [createBackend_getUser_data_of_none kind hnone] at hdata
  cases hdata

theorem writesUser_sqlite3_iff (hholds : db.Holds SQLite3.columns) :
    WritesUser sqlite3 user db ↔ UserFits c open_ user db .sqlite3 := by
  obtain ⟨row, hstored⟩ := SQLite3.user_ne_none user
  have hself : (sqlite3.setUser user db).1.userRow row.jid = some (SQLite3.newRow row db) :=
    SQLite3.setUser_userRow_self hstored
  have hok : (sqlite3.setUser user db).2 = true :=
    congrArg Prod.snd (SQLite3.setUser_of_stored hstored)
  have hwrites := Columns.user_eq_some hstored
  constructor
  · intro h
    obtain ⟨hread, hrow⟩ := h hok
    have hdata := (GetUser.data_eq_some_iff _ _).mpr hread
    have hjid : row.jid = user.jid := eq_jid_of_data c open_ .sqlite3
      hholds hwrites.jid (SQLite3.setUser_userRow_of_ne hstored) hdata
    rw [← hjid, sqlite3_getUser_data, hself, Option.map_some, Option.some_inj] at hdata
    simp only [UserInfo.data, SQLite3.newRow, Prod.mk.injEq] at hdata
    obtain ⟨-, huin, hpassword, hlanguage, hencoding, -⟩ := hdata
    refine ⟨⟨(Column.eq_iff_takes hwrites.jid).mp hjid, (Column.eq_iff_takes hwrites.uin).mp huin,
      (Column.eq_iff_takes hwrites.password).mp hpassword,
      (Column.eq_iff_takes hwrites.language).mp hlanguage,
      (Column.eq_iff_takes hwrites.encoding).mp hencoding⟩, fun r hr => ?_⟩
    obtain ⟨r', hr', -, honline⟩ := hrow r hr
    rw [← hjid, hself] at hr'
    rw [← Option.some.inj hr'] at honline
    exact honline.symm
  · rintro ⟨htakes, honline⟩ -
    have hrow : row = user :=
      Option.some.inj (hstored.symm.trans (Columns.user_of_takes htakes))
    subst hrow
    refine ⟨(GetUser.data_eq_some_iff _ _).mp ?_, fun r hr => ⟨_, hself, ?_, ?_⟩⟩
    · rw [sqlite3_getUser_data]
      exact congrArg (Option.map _) hself
    · exact SQLite3.newRow_id_of_some hr
    · exact (honline r hr).symm

/-- What MySQL reads after `setUser`. -/
theorem mysql_getUser_setUser_data_iff (hholds : db.Holds open_.columns)
    (hstored : open_.columns.user (c.lockUser user) = some row) :
    ((mysql c open_).getUser user.jid ((mysql c open_).setUser user db).1).data =
      some user.data ↔
    (open_.columns.varchar 255).Takes user.jid ∧ (open_.columns.varchar 4095).Takes user.uin ∧
    PasswordKept c open_.columns user.password ∧
    match db.userRow user.jid with
    | none => (open_.columns.varchar 25).Takes user.language ∧
      (open_.columns.varchar 50).Takes user.encoding ∧ VipReads c open_ user user.vip
    | some r => r.language = user.language ∧ r.encoding = user.encoding ∧
      VipReads c open_ user r.vip := by
  have hwrites := Columns.user_eq_some hstored
  have huin : (open_.columns.varchar 4095).store user.uin = some row.uin := hwrites.uin
  have hlanguage : (open_.columns.varchar 25).store user.language = some row.language :=
    hwrites.language
  have hencoding : (open_.columns.varchar 50).store user.encoding = some row.encoding :=
    hwrites.encoding
  have hflag : row.vip = user.vip := hwrites.vip
  have hset : ((mysql c open_).setUser user db).1 = MySQL.upsertUser row db :=
    congrArg Prod.fst (MySQL.execSetUser_of_stored hstored)
  rw [hset, ← passwordKept_iff hwrites.password, ← Column.eq_iff_takes huin]
  have hread : row.jid = user.jid →
      (((mysql c open_).getUser user.jid (MySQL.upsertUser row db)).data = some user.data ↔
        row.uin = user.uin ∧ c.unlock row.password = some user.password ∧
        match db.userRow user.jid with
        | none => (open_.columns.varchar 25).Takes user.language ∧
          (open_.columns.varchar 50).Takes user.encoding ∧ VipReads c open_ user user.vip
        | some r => r.language = user.language ∧ r.encoding = user.encoding ∧
          VipReads c open_ user r.vip) := by
    intro hjid
    rw [mysql_getUser_data, ← hjid, MySQL.upsertUser_userRow_self, Option.bind_some,
      Option.map_eq_some_iff]
    cases hold : db.userRow row.jid with
    | none =>
      simp only [UserInfo.data, Option.elim_none, MySQL.newRow, Prod.mk.injEq]
      rw [← vipAnswer_getD_eq_iff, ← Column.eq_iff_takes hlanguage,
        ← Column.eq_iff_takes hencoding, hjid, hflag]
      constructor
      · rintro ⟨password, hunlock, -, huin, rfl, hlanguage, hencoding, hvip⟩
        exact ⟨huin, hunlock, hlanguage, hencoding, hvip⟩
      · rintro ⟨huin, hunlock, hlanguage, hencoding, hvip⟩
        exact ⟨_, hunlock, rfl, huin, rfl, hlanguage, hencoding, hvip⟩
    | some r =>
      have hr := (Db.userRow_eq_some_iff.mp hold).2
      simp only [UserInfo.data, Option.elim_some, MySQL.changedRow, Prod.mk.injEq]
      rw [← vipAnswer_getD_eq_iff, hjid]
      constructor
      · rintro ⟨password, hunlock, -, huin, rfl, hlanguage, hencoding, hvip⟩
        exact ⟨huin, hunlock, hlanguage, hencoding, hvip⟩
      · rintro ⟨huin, hunlock, hlanguage, hencoding, hvip⟩
        exact ⟨_, hunlock, hr.trans hjid, huin, rfl, hlanguage, hencoding, hvip⟩
  constructor
  · intro hdata
    have hjid : row.jid = user.jid := eq_jid_of_data c open_ .mysql hholds hwrites.jid
      MySQL.upsertUser_userRow_of_ne hdata
    exact ⟨(Column.eq_iff_takes hwrites.jid).mp hjid, (hread hjid).mp hdata⟩
  · rintro ⟨htakes, hfits⟩
    exact (hread (Column.eq_of_store htakes hwrites.jid)).mpr hfits

theorem writesUser_mysql_iff (hholds : db.Holds open_.columns) :
    WritesUser (mysql c open_) user db ↔ UserFits c open_ user db .mysql := by
  cases hstored : open_.columns.user (c.lockUser user) with
  | none =>
    have hrefused : ((mysql c open_).setUser user db).2 = false :=
      congrArg Prod.snd (MySQL.execSetUser_of_refused hstored)
    refine iff_of_true (fun hok => ?_) (Or.inl hstored)
    rw [hrefused] at hok
    cases hok
  | some row =>
    have hset : (mysql c open_).setUser user db = (MySQL.upsertUser row db, true) :=
      MySQL.execSetUser_of_stored hstored
    have hiff := mysql_getUser_setUser_data_iff hholds hstored
    rw [UserFits, hstored, ← hiff, GetUser.data_eq_some_iff]
    constructor
    · intro h
      exact Or.inr (h (congrArg Prod.snd hset)).1
    · rintro (h | h) -
      · cases h
      refine ⟨h, fun r hr => ?_⟩
      have hjid : row.jid = user.jid := Column.eq_of_store
        (hiff.mp ((GetUser.data_eq_some_iff _ _).mpr h)).1 (Columns.user_eq_some hstored).jid
      refine ⟨MySQL.changedRow row r, ?_, rfl, rfl⟩
      have hself := @MySQL.upsertUser_userRow_self db row
      rw [hjid, hr] at hself
      rw [hset]
      exact hself

theorem writesUser_pqxx_iff (hholds : db.Holds PQXX.columns) :
    WritesUser (pqxx c) user db ↔ UserFits c open_ user db .pqxx := by
  cases hstored : PQXX.columns.user (c.lockUser user) with
  | none =>
    have hrefused : ((pqxx c).setUser user db).2 = false :=
      congrArg Prod.snd (PQXX.setUser_of_refused hstored)
    refine iff_of_true (fun hok => ?_) (Or.inl ?_)
    · rw [hrefused] at hok
      cases hok
    · rw [hstored]
      exact nofun
  | some row =>
    have hwrites := Columns.user_eq_some hstored
    cases hold : db.userRow row.jid with
    | some r =>
      have hfail : ((pqxx c).setUser user db).2 = false :=
        congrArg Prod.snd (PQXX.setUser_of_some hstored hold)
      refine iff_of_true (fun hok => ?_) (Or.inl fun row' hrow' => ?_)
      · rw [hfail] at hok
        cases hok
      · rw [hstored] at hrow'
        cases hrow'
        exact ⟨r, hold⟩
    | none =>
      obtain ⟨t, hset, -⟩ := PQXX.setUser_of_none hstored hold
      have hself : ((pqxx c).setUser user db).1.userRow row.jid = some (PQXX.newRow row db) := by
        refine (PQXX.setUser_userRow_self hstored).trans ?_
        rw [hold, Option.getD_none]
      have hread : ((pqxx c).getUser row.jid ((pqxx c).setUser user db).1).data = some user.data ↔
          row.jid = user.jid ∧ row.uin = user.uin ∧ c.unlock row.password = some user.password ∧
            row.language = user.language ∧ row.encoding = user.encoding := by
        rw [pqxx_getUser_data, hself, Option.bind_some, Option.map_eq_some_iff]
        simp only [UserInfo.data, PQXX.newRow, Prod.mk.injEq, hwrites.vip]
        constructor
        · rintro ⟨password, hunlock, hjid, huin, rfl, hlanguage, hencoding, -⟩
          exact ⟨hjid, huin, hunlock, hlanguage, hencoding⟩
        · rintro ⟨hjid, huin, hunlock, hlanguage, hencoding⟩
          exact ⟨_, hunlock, hjid, huin, rfl, hlanguage, hencoding, rfl⟩
      have htakes : row.jid = user.jid ∧ row.uin = user.uin ∧
          c.unlock row.password = some user.password ∧ row.language = user.language ∧
          row.encoding = user.encoding ↔ _ :=
        and_congr (Column.eq_iff_takes hwrites.jid) (and_congr (Column.eq_iff_takes hwrites.uin)
          (and_congr (passwordKept_iff hwrites.password)
            (and_congr (Column.eq_iff_takes hwrites.language)
              (Column.eq_iff_takes hwrites.encoding))))
      replace hread := hread.trans htakes
      constructor
      · intro h
        have hdata := (GetUser.data_eq_some_iff _ _).mpr (h (congrArg Prod.snd hset)).1
        have hjid : row.jid = user.jid := eq_jid_of_data c open_ .pqxx hholds
          hwrites.jid (PQXX.setUser_userRow_of_ne hstored) hdata
        exact Or.inr (hread.mp (hjid.symm ▸ hdata))
      · rintro (h | h) -
        · obtain ⟨r, hr⟩ := h row hstored
          rw [hold] at hr
          cases hr
        · have hjid := Column.eq_of_store h.1 hwrites.jid
          refine ⟨(GetUser.data_eq_some_iff _ _).mp (hjid ▸ hread.mpr h), fun r hr => ?_⟩
          rw [← hjid] at hr
          cases hold.symm.trans hr

/-- The rows of MySQL are those that there were, some of them changed, and at most a new one. -/
theorem MySQL.jid_of_upsertUser {r : UserRow} (hr : r ∈ (upsertUser row db).users.rows) :
    (∃ r₀ ∈ db.users.rows, r.jid = r₀.jid) ∨ r.jid = row.jid := by
  cases hold : db.userRow row.jid with
  | none =>
    rw [upsertUser_rows_of_none hold, List.mem_append, List.mem_singleton] at hr
    rcases hr with hr | rfl
    · exact Or.inl ⟨r, hr, rfl⟩
    · exact Or.inr rfl
  | some r₁ =>
    rw [upsertUser_rows_of_some hold, List.mem_map] at hr
    obtain ⟨r₀, hr₀, rfl⟩ := hr
    refine Or.inl ⟨r₀, hr₀, ?_⟩
    split <;> rfl

theorem PQXX.jid_of_setUser {r : UserRow} (hstored : columns.user (c.lockUser user) = some row)
    (hr : r ∈ (setUser c user db).1.users.rows) :
    (∃ r₀ ∈ db.users.rows, r.jid = r₀.jid) ∨ r.jid = row.jid := by
  cases hold : db.userRow row.jid with
  | none =>
    obtain ⟨t, hset, hrows⟩ := setUser_of_none hstored hold
    rw [hset, Db.setUsers_users, hrows, List.mem_append, List.mem_singleton] at hr
    rcases hr with hr | rfl
    · exact Or.inl ⟨r, hr, rfl⟩
    · exact Or.inr rfl
  | some r₁ =>
    rw [setUser_of_some hstored hold] at hr
    exact Or.inl ⟨r, hr, rfl⟩

theorem Db.Holds.of_jids {db' : Db} (h : db.Holds k) {jid : String}
    (hjid : (k.varchar 255).Takes jid)
    (hrows : ∀ r ∈ db'.users.rows, (∃ r₀ ∈ db.users.rows, r.jid = r₀.jid) ∨ r.jid = jid) :
    db'.Holds k := by
  intro r hr
  rcases hrows r hr with ⟨r₀, hr₀, heq⟩ | heq
  · rw [heq]
    exact h r₀ hr₀
  · rw [heq]
    exact hjid

theorem setUser_holds (kind : Kind) (h : db.Holds (kind.columns open_)) :
    ((createBackend c open_ kind).setUser user db).1.Holds (kind.columns open_) := by
  cases kind with
  | sqlite3 =>
    obtain ⟨row, hstored⟩ := SQLite3.user_ne_none user
    refine h.of_jids (Column.takes_of_store (Columns.user_eq_some hstored).jid) fun r hr => ?_
    have hr : r ∈ (SQLite3.setUser user db).1.users.rows := hr
    rw [SQLite3.setUser_of_stored hstored] at hr
    rcases Table.mem_replace.mp hr with ⟨hr, -⟩ | rfl
    · exact Or.inl ⟨r, hr, rfl⟩
    · exact Or.inr rfl
  | mysql =>
    change (MySQL.execSetUser open_.columns c user db).1.Holds open_.columns
    cases hstored : open_.columns.user (c.lockUser user) with
    | none =>
      rw [MySQL.execSetUser_of_refused hstored]
      exact h
    | some row =>
      rw [MySQL.execSetUser_of_stored hstored]
      exact h.of_jids (Column.takes_of_store (Columns.user_eq_some hstored).jid)
        fun r hr => MySQL.jid_of_upsertUser hr
  | pqxx =>
    change (PQXX.setUser c user db).1.Holds PQXX.columns
    cases hstored : PQXX.columns.user (c.lockUser user) with
    | none =>
      rw [PQXX.setUser_of_refused hstored]
      exact h
    | some row =>
      exact h.of_jids (Column.takes_of_store (Columns.user_eq_some hstored).jid)
        fun r hr => PQXX.jid_of_setUser hstored hr

theorem Db.Holds.writeOnline (h : db.Holds k) (id : Int) (online : Bool) :
    (db.writeOnline id online).Holds k := by
  intro r hr
  change r ∈ db.users.rows.map _ at hr
  obtain ⟨r₀, hr₀, rfl⟩ := List.mem_map.mp hr
  have htakes := h r₀ hr₀
  split <;> exact htakes

end OneCall

/-! ## Sequences of calls -/

/-- The calls for users. A caller knows the id of a user from `getUser`. -/
inductive UserCall
  | setUser (user : UserInfo)
  | setUserOnline (jid : String) (online : Bool)
  | getUser (jid : String)

/-- The ids are those of the database. -/
def GetUser.withoutId : GetUser → GetUser
  | .found user => .found { user with id := 0 }
  | .notFound => .notFound
  | .throws => .throws

namespace UserCall

def step (b : Backend) : UserCall → Db → Db
  | .setUser user, db => (b.setUser user db).1
  | .setUserOnline jid online, db =>
    match b.getUser jid db with
    | .found user => b.setUserOnline user.id online db
    | _ => db
  | .getUser _, db => db

/-- What the calls of `getUser` answer. -/
def answers (b : Backend) : List UserCall → Db → List GetUser
  | [], _ => []
  | .getUser jid :: calls, db => (b.getUser jid db).withoutId :: answers b calls db
  | call :: calls, db => answers b calls (call.step b db)

/-- The user is new or has the same data, and every database takes and gives back what he has. -/
structure Repeats (c : Config) (open_ : MySQL.Undefined) (user : UserInfo) (s : Db) : Prop where
  same : ∀ data, (sqlite3.getUser user.jid s).data = some data → data = user.data
  plain : SQLite3.columns.TakesUser user
  takes : ∀ kind : Kind, kind ≠ .sqlite3 → (kind.columns open_).TakesUser (c.lockUser user)
  survives : PasswordSurvives user.password c.encryptionKey
  vip : VipReads c open_ user user.vip

/-- Every `setUser` of the sequence repeats what is stored or is for a new user. -/
def Regular (c : Config) (open_ : MySQL.Undefined) : List UserCall → Db → Prop
  | [], _ => True
  | .setUser user :: calls, s =>
    Repeats c open_ user s ∧ Regular c open_ calls (sqlite3.setUser user s).1
  | call :: calls, s => Regular c open_ calls (call.step sqlite3 s)

end UserCall

/-- A JID is in none of the three databases, or the backends read the same data for it. -/
def Alike (c : Config) (open_ : MySQL.Undefined) (s m p : Db) : Prop :=
  ∀ jid, s.userRow jid = none ∧ m.userRow jid = none ∧ p.userRow jid = none ∨
    ∃ data, (sqlite3.getUser jid s).data = some data ∧
      ((mysql c open_).getUser jid m).data = some data ∧ ((pqxx c).getUser jid p).data = some data

section Sequences

variable {c : Config} {open_ : MySQL.Undefined} {s m p : Db}

theorem GetUser.withoutId_congr {answer answer' : GetUser}
    {data : String × String × Bytes × String × String × Bool} (h : answer.data = some data)
    (h' : answer'.data = some data) : answer.withoutId = answer'.withoutId := by
  obtain ⟨user, rfl, rfl⟩ := (GetUser.data_eq_some_iff _ _).mp h
  obtain ⟨user', rfl, hdata⟩ := (GetUser.data_eq_some_iff _ _).mp h'
  simp only [UserInfo.data, Prod.mk.injEq] at hdata
  obtain ⟨hjid, huin, hpassword, hlanguage, hencoding, hvip⟩ := hdata
  simp only [GetUser.withoutId, hjid, huin, hpassword, hlanguage, hencoding, hvip]

/-- The answers of the three backends are the same. -/
theorem Alike.withoutId_eq (h : Alike c open_ s m p) (jid : String) :
    ((mysql c open_).getUser jid m).withoutId = (sqlite3.getUser jid s).withoutId ∧
      ((pqxx c).getUser jid p).withoutId = (sqlite3.getUser jid s).withoutId := by
  rcases h jid with ⟨hs, hm, hp⟩ | ⟨data, hs, hm, hp⟩
  · have hsqlite : sqlite3.getUser jid s = .notFound := by
      simp only [sqlite3, SQLite3.getUser, hs]
    have hmysql : (mysql c open_).getUser jid m = .notFound := by
      simp only [mysql, MySQL.getUser, Script.finish, MySQL.select, hm, MySQL.finish_askVip]
    have hpqxx : (pqxx c).getUser jid p = .notFound := by
      simp only [pqxx, PQXX.getUser, hp]
    rw [hsqlite, hmysql, hpqxx]
    exact ⟨rfl, rfl⟩
  · exact ⟨GetUser.withoutId_congr hm hs, GetUser.withoutId_congr hp hs⟩

/-- What the backends read depends on the row of the user only. -/
theorem Alike.of_rows {s' m' p' : Db} (h : Alike c open_ s m p) {jid : String}
    (hs : s'.userRow jid = s.userRow jid) (hm : m'.userRow jid = m.userRow jid)
    (hp : p'.userRow jid = p.userRow jid) :
    s'.userRow jid = none ∧ m'.userRow jid = none ∧ p'.userRow jid = none ∨
      ∃ data, (sqlite3.getUser jid s').data = some data ∧
        ((mysql c open_).getUser jid m').data = some data ∧
        ((pqxx c).getUser jid p').data = some data := by
  rw [sqlite3_getUser_data, mysql_getUser_data, pqxx_getUser_data, hs, hm, hp,
    ← sqlite3_getUser_data, ← mysql_getUser_data c open_, ← pqxx_getUser_data]
  exact h jid

theorem sqlite3_getUser_setUser_data {user : UserInfo} (h : SQLite3.columns.TakesUser user)
    (db : Db) :
    (sqlite3.getUser user.jid (sqlite3.setUser user db).1).data = some user.data := by
  rw [sqlite3_getUser_data]
  exact congrArg (Option.map _) (SQLite3.setUser_userRow_self (Columns.user_of_takes h))

/-- A row that reads as the user fits him. -/
theorem vipReads_of_data {user : UserInfo} {r : UserRow} (hr : m.userRow user.jid = some r)
    (h : ((mysql c open_).getUser user.jid m).data = some user.data) :
    r.language = user.language ∧ r.encoding = user.encoding ∧ VipReads c open_ user r.vip := by
  rw [mysql_getUser_data, hr, Option.bind_some, Option.map_eq_some_iff] at h
  obtain ⟨password, -, hdata⟩ := h
  simp only [UserInfo.data, Prod.mk.injEq] at hdata
  obtain ⟨-, -, -, hlanguage, hencoding, hvip⟩ := hdata
  exact ⟨hlanguage, hencoding, (vipAnswer_getD_eq_iff r.vip).mp hvip⟩

theorem UserCall.Repeats.passwordKept {user : UserInfo} (h : UserCall.Repeats c open_ user s)
    (kind : Kind) (hkind : kind ≠ .sqlite3) : PasswordKept c (kind.columns open_) user.password :=
  Or.inl ⟨(h.takes kind hkind).2.2.1, h.survives⟩

theorem Alike.setUser (h : Alike c open_ s m p) {user : UserInfo}
    (hrepeats : UserCall.Repeats c open_ user s) (hm : m.Holds open_.columns)
    (hp : p.Holds PQXX.columns) :
    Alike c open_ (sqlite3.setUser user s).1 ((mysql c open_).setUser user m).1
      ((pqxx c).setUser user p).1 := by
  obtain ⟨mjid, muin, -, mlanguage, mencoding⟩ := hrepeats.takes .mysql nofun
  obtain ⟨pjid, puin, -, planguage, pencoding⟩ := hrepeats.takes .pqxx nofun
  have hmysql := Columns.user_of_takes (hrepeats.takes .mysql nofun)
  have hpqxx := Columns.user_of_takes (hrepeats.takes .pqxx nofun)
  intro jid
  by_cases hjid : jid = user.jid
  · subst hjid
    refine Or.inr ⟨user.data, sqlite3_getUser_setUser_data hrepeats.plain s, ?_⟩
    rw [mysql_getUser_setUser_data_iff hm hmysql]
    have hkept := hrepeats.passwordKept .mysql nofun
    rcases h user.jid with ⟨-, hmrow, hprow⟩ | ⟨data, hs, hmdata, hpdata⟩
    · rw [hmrow]
      refine ⟨⟨mjid, muin, hkept, mlanguage, mencoding, hrepeats.vip⟩, ?_⟩
      obtain ⟨t, hset, -⟩ := PQXX.setUser_of_none hpqxx hprow
      have hfits : UserFits c open_ user p .pqxx :=
        Or.inr ⟨pjid, puin, hrepeats.passwordKept .pqxx nofun, planguage, pencoding⟩
      have hwrites := (writesUser_pqxx_iff hp).mpr hfits
      exact (GetUser.data_eq_some_iff _ _).mpr (hwrites (congrArg Prod.snd hset)).1
    · rw [hrepeats.same data hs] at hmdata hpdata
      constructor
      · refine ⟨mjid, muin, hkept, ?_⟩
        cases hrow : m.userRow user.jid with
        | none =>
          rw [mysql_getUser_data, hrow] at hmdata
          cases hmdata
        | some r => exact vipReads_of_data hrow hmdata
      · -- The row exists, so PostgreSQL leaves it as it is.
        cases hrow : p.userRow user.jid with
        | none =>
          rw [pqxx_getUser_data, hrow] at hpdata
          cases hpdata
        | some r =>
          have hset : ((pqxx c).setUser user p).1 = p.setUsers p.users (p.lastUser + 1) :=
            congrArg Prod.fst (PQXX.setUser_of_some hpqxx hrow)
          rw [hset, pqxx_getUser_data]
          rw [pqxx_getUser_data] at hpdata
          exact hpdata
  · have hset : ((mysql c open_).setUser user m).1 = MySQL.upsertUser (c.lockUser user) m :=
      congrArg Prod.fst (MySQL.execSetUser_of_stored hmysql)
    rw [hset]
    exact h.of_rows
      (SQLite3.setUser_userRow_of_ne (Columns.user_of_takes hrepeats.plain) hjid)
      (MySQL.upsertUser_userRow_of_ne hjid) (PQXX.setUser_userRow_of_ne hpqxx hjid)

/-- `online` is not read. -/
theorem Alike.setUserOnline (h : Alike c open_ s m p) (i j k : Int) (online : Bool) :
    Alike c open_ (s.writeOnline i online) (m.writeOnline j online) (p.writeOnline k online) := by
  have hdata : ∀ (i : Int) (r : UserRow), (if r.id = i then { r with online } else r) =
      { r with online := if r.id = i then online else r.online } := by
    intro i r
    split <;> rfl
  intro jid
  have h := h jid
  rw [sqlite3_getUser_data, mysql_getUser_data, pqxx_getUser_data] at h ⊢
  simp only [Db.writeOnline_userRow, hdata, Option.map_eq_none_iff, Option.map_map,
    Option.bind_map, Function.comp_def] at h ⊢
  exact h

/-- A call of `setUserOnline` for a JID that is found. -/
theorem UserCall.step_setUserOnline_of_data {b : Backend} {db : Db} {jid : String}
    {data : String × String × Bytes × String × String × Bool}
    (h : (b.getUser jid db).data = some data) (online : Bool) :
    ∃ id, (UserCall.setUserOnline jid online).step b db = b.setUserOnline id online db := by
  obtain ⟨user, hfound, -⟩ := (GetUser.data_eq_some_iff _ _).mp h
  exact ⟨user.id, by rw [UserCall.step, hfound]⟩

theorem UserCall.step_setUserOnline_of_data_none {b : Backend} {db : Db} {jid : String}
    {online : Bool} (h : (b.getUser jid db).data = none) :
    (UserCall.setUserOnline jid online).step b db = db := by
  rw [UserCall.step]
  cases hget : b.getUser jid db with
  | found user =>
    rw [hget] at h
    cases h
  | notFound => rfl
  | throws => rfl

theorem Alike.step_setUserOnline (h : Alike c open_ s m p) (jid : String) (online : Bool) :
    Alike c open_ ((UserCall.setUserOnline jid online).step sqlite3 s)
      ((UserCall.setUserOnline jid online).step (mysql c open_) m)
      ((UserCall.setUserOnline jid online).step (pqxx c) p) := by
  rcases h jid with ⟨hs, hm, hp⟩ | ⟨data, hs, hm, hp⟩
  · rw [UserCall.step_setUserOnline_of_data_none, UserCall.step_setUserOnline_of_data_none,
      UserCall.step_setUserOnline_of_data_none]
    · exact h
    · rw [pqxx_getUser_data, hp, Option.bind_none]
    · rw [mysql_getUser_data, hm, Option.bind_none]
    · rw [sqlite3_getUser_data, hs, Option.map_none]
  · obtain ⟨i, hi⟩ := UserCall.step_setUserOnline_of_data hs online
    obtain ⟨j, hj⟩ := UserCall.step_setUserOnline_of_data hm online
    obtain ⟨k, hk⟩ := UserCall.step_setUserOnline_of_data hp online
    rw [hi, hj, hk]
    exact h.setUserOnline i j k online

theorem UserCall.step_holds (c : Config) (open_ : MySQL.Undefined) (kind : Kind) (call : UserCall)
    {db : Db} (h : db.Holds (kind.columns open_)) :
    (call.step (createBackend c open_ kind) db).Holds (kind.columns open_) := by
  cases call with
  | setUser user => exact setUser_holds kind h
  | getUser jid => exact h
  | setUserOnline jid online =>
    simp only [UserCall.step]
    split
    · cases kind <;> exact h.writeOnline _ _
    · exact h

/-- Over a regular sequence the three backends give the same answers. -/
theorem Alike.answers_eq (h : Alike c open_ s m p) (hm : m.Holds open_.columns)
    (hp : p.Holds PQXX.columns) {calls : List UserCall}
    (hregular : UserCall.Regular c open_ calls s) :
    UserCall.answers (mysql c open_) calls m = UserCall.answers sqlite3 calls s ∧
      UserCall.answers (pqxx c) calls p = UserCall.answers sqlite3 calls s := by
  induction calls generalizing s m p with
  | nil => exact ⟨rfl, rfl⟩
  | cons call calls ih =>
    have hm' : (call.step (mysql c open_) m).Holds open_.columns :=
      UserCall.step_holds c open_ .mysql call hm
    have hp' : (call.step (pqxx c) p).Holds PQXX.columns :=
      UserCall.step_holds c open_ .pqxx call hp
    cases call with
    | setUser user => exact ih (h.setUser hregular.1 hm hp) hm' hp' hregular.2
    | setUserOnline jid online => exact ih (h.step_setUserOnline jid online) hm' hp' hregular
    | getUser jid =>
      obtain ⟨hmysql, hpqxx⟩ := ih h hm' hp' hregular
      obtain ⟨hreadm, hreadp⟩ := h.withoutId_eq jid
      simp only [UserCall.answers, hreadm, hreadp, hmysql, hpqxx, and_self]

end Sequences

/-- `setUser` is read back exactly when the user fits, and the backends agree on every sequence in
which `setUser` is called for new users or repeats what is stored. -/
theorem setUser_readBack_and_backends_agree (c : Config) (open_ : MySQL.Undefined) :
    (∀ kind user (db : Db), db.Holds (kind.columns open_) →
      (WritesUser (createBackend c open_ kind) user db ↔ UserFits c open_ user db kind)) ∧
    ∀ calls s (m p : Db), Alike c open_ s m p → m.Holds open_.columns → p.Holds PQXX.columns →
      UserCall.Regular c open_ calls s →
      UserCall.answers (mysql c open_) calls m = UserCall.answers sqlite3 calls s ∧
        UserCall.answers (pqxx c) calls p = UserCall.answers sqlite3 calls s := by
  refine ⟨fun kind user db hholds => ?_, fun calls s m p h hm hp hregular => ?_⟩
  · cases kind with
    | sqlite3 => exact writesUser_sqlite3_iff hholds
    | mysql => exact writesUser_mysql_iff hholds
    | pqxx => exact writesUser_pqxx_iff hholds
  · exact h.answers_eq hm hp hregular

namespace UserSample

def romeo : UserInfo :=
  { jid := "romeo@example.net", uin := "romeo", password := [97, 98], language := "en",
    encoding := "utf8", vip := false }

/-- The row of Romeo. -/
def row (online : Bool) : UserRow :=
  { id := 1, jid := romeo.jid, uin := romeo.uin, password := romeo.password,
    language := romeo.language, encoding := romeo.encoding, vip := romeo.vip, online }

/-- Romeo is registered and online. -/
def online : Db := sqlite3.setUserOnline 1 true (sqlite3.setUser romeo .empty).1

end UserSample

open UserSample in
/-- A user who registers, logs in, registers again with the same data and is looked up. -/
theorem setUser_readBack_and_backends_agree_romeo :
    WritesUser (createBackend {} {} .sqlite3) romeo {} ∧
    UserCall.answers (mysql {} {}) [.setUser romeo, .setUserOnline romeo.jid true, .setUser romeo,
      .getUser romeo.jid] {} = [.found romeo] := by
  have hplain : SQLite3.columns.TakesUser romeo := by decide +kernel
  have htakes : ∀ kind : Kind, kind ≠ .sqlite3 →
      (kind.columns {}).TakesUser (({} : Config).lockUser romeo) := by
    rintro (_ | _ | _) hkind
    · cases hkind rfl
    · decide +kernel
    · decide +kernel
  refine ⟨((setUser_readBack_and_backends_agree {} {}).1 .sqlite3 romeo {} nofun).mpr
    ⟨hplain, nofun⟩, ?_⟩
  rw [((setUser_readBack_and_backends_agree {} {}).2 [.setUser romeo, .setUserOnline romeo.jid true,
    .setUser romeo, .getUser romeo.jid] {} {} {} (fun _ => Or.inl ⟨rfl, rfl, rfl⟩) nofun nofun ?_).1]
  · decide +kernel
  · refine ⟨⟨nofun, hplain, htakes, Or.inl rfl, rfl⟩,
      ⟨fun data h => ?_, hplain, htakes, Or.inl rfl, rfl⟩, trivial⟩
    have hread : (sqlite3.getUser romeo.jid online).data = some romeo.data := by decide +kernel
    exact Option.some.inj (h.symm.trans hread)

open UserSample in
/-- SQLite resets `online` when an online user registers again. -/
theorem not_forall_writesUser :
    ¬ ∀ kind c open_ user db, WritesUser (createBackend c open_ kind) user db := by
  intro h
  obtain ⟨r', hr', -, honline⟩ :=
    (h .sqlite3 {} {} romeo online (by decide +kernel)).2 (row true) (by decide +kernel)
  have hoff : ((createBackend {} {} .sqlite3).setUser romeo online).1.userRow romeo.jid =
      some (row false) := by
    decide +kernel
  rw [← Option.some.inj (hoff.symm.trans hr')] at honline
  cases honline

end Spectrum.Storage
