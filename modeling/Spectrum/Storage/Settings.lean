import Spectrum.Storage.Users

/-!
# Settings of users

`getUserSetting` inserts the default that it is given when there is no row. `updateUserSetting` only
updates. So a value that is written before the setting was ever read is lost, and so is one that is
too long for its column.
-/

namespace Spectrum.Storage

open Lib

/-! ## Rows of settings -/

namespace Db

variable {k : Columns} {db : Db} {id : Int} {name : String} {r row setting : UserSettingRow}

theorem userSetting_eq_some_iff : db.userSetting id name = some r ↔
    r ∈ db.usersSettings.rows ∧ r.userId = id ∧ r.var = name := by
  constructor
  · intro h
    exact ⟨List.mem_of_find?_eq_some h, by simpa using List.find?_some h⟩
  · rintro ⟨hr, hkey⟩
    refine db.usersSettings.find?_of_mem ?_ hr (decide_eq_true hkey)
    intro r s hr hs
    obtain ⟨huser, hvar⟩ := of_decide_eq_true hr
    obtain ⟨huser', hvar'⟩ := of_decide_eq_true hs
    exact ⟨huser.trans huser'.symm, hvar.trans hvar'.symm⟩

theorem userSetting_eq_none_iff : db.userSetting id name = none ↔
    ∀ r ∈ db.usersSettings.rows, r.userId = id → r.var ≠ name := by
  simp [userSetting, List.find?_eq_none]

theorem insertUserSetting_of_refused (h : k.userSetting setting = none) :
    db.insertUserSetting k setting = db := by
  simp only [insertUserSetting, h]

/-- A setting that there is not inserted. -/
theorem insertUserSetting_of_some (hrow : k.userSetting setting = some row)
    (h : db.userSetting row.userId row.var = some r) : db.insertUserSetting k setting = db := by
  obtain ⟨hr, huser, hvar⟩ := userSetting_eq_some_iff.mp h
  simp only [insertUserSetting, hrow, Table.insert_eq_none hr ⟨huser.symm, hvar.symm⟩]
  rfl

theorem insertUserSetting_rows (hrow : k.userSetting setting = some row)
    (h : db.userSetting row.userId row.var = none) :
    (db.insertUserSetting k setting).usersSettings.rows = db.usersSettings.rows ++ [row] := by
  rw [userSetting_eq_none_iff] at h
  have hnew : ∀ r ∈ db.usersSettings.rows, ¬ Keyed.Clash row r :=
    fun r hr hclash => h r hr hclash.1.symm hclash.2.symm
  obtain ⟨t, hinsert, hrows⟩ := Table.insert_eq_some hnew
  simp only [insertUserSetting, hrow, setUsersSettings_usersSettings, hinsert, Option.getD_some,
    hrows]

theorem userSetting_insertUserSetting_self (hrow : k.userSetting setting = some row) :
    (db.insertUserSetting k setting).userSetting row.userId row.var =
      some ((db.userSetting row.userId row.var).getD row) := by
  cases h : db.userSetting row.userId row.var with
  | none =>
    rw [userSetting_eq_some_iff, insertUserSetting_rows hrow h]
    exact ⟨List.mem_append_right _ (List.mem_singleton_self row), rfl, rfl⟩
  | some r =>
    rw [insertUserSetting_of_some hrow h]
    exact h

theorem userSetting_insertUserSetting_of_ne (hrow : k.userSetting setting = some row)
    (hne : ¬ (row.userId = id ∧ row.var = name)) :
    (db.insertUserSetting k setting).userSetting id name = db.userSetting id name := by
  cases h : db.userSetting row.userId row.var with
  | none =>
    rw [userSetting, insertUserSetting_rows hrow h, List.find?_append, List.find?_singleton,
      decide_eq_false hne]
    exact Option.or_none
  | some r => rw [insertUserSetting_of_some hrow h]

/-- What a setting is after an update. -/
theorem userSetting_writeUserSetting (k : Columns) (id' : Int) (name' value : String) :
    (db.writeUserSetting k id' name' value).userSetting id name =
      (db.userSetting id name).map fun r =>
        if r.userId = id' ∧ r.var = name' then
          { r with value := ((k.varchar 255).store value).getD r.value }
        else r := by
  unfold writeUserSetting
  cases (k.varchar 255).store value with
  | none =>
    cases db.userSetting id name with
    | none => rfl
    | some r => simp
  | some value =>
    refine (Table.find?_map_ite (p := fun r => decide (r.userId = id' ∧ r.var = name'))
      (f := fun r => { r with value }) (q := fun r => decide (r.userId = id ∧ r.var = name))
      (fun r => rfl) db.usersSettings.rows).trans ?_
    simp only [decide_eq_true_eq, Option.getD_some]
    rfl

end Db

/-- The calls for settings. The default of `getUserSetting` is its type and its value. -/
inductive SettingCall
  | getUserSetting (id : Int) (name : String) (out : Int × String)
  | updateUserSetting (id : Int) (name value : String)
  | getAllSettings (id : Int)

namespace SettingCall

def step (b : Backend) (db : Db) : SettingCall → Db
  | .getUserSetting id name out => (b.getUserSetting id name out db).1
  | .updateUserSetting id name value => b.updateUserSetting id name value db
  | .getAllSettings _ => db

def run (b : Backend) (db : Db) (calls : List SettingCall) : Db := calls.foldl (step b) db

/-- The call reads the setting and gives a default that the columns do not refuse. What the column for
the names makes of its name is the name of the setting. -/
def Reads (k : Columns) (id : Int) (name : String) : SettingCall → Prop
  | .getUserSetting id' name' out => ∃ row, row.userId = id ∧ row.var = name ∧
      k.userSetting { userId := id', var := name', type := out.1, value := out.2 } = some row
  | _ => False

end SettingCall

/-- No setting is in the table that its columns do not take. -/
def Db.HoldsSettings (k : Columns) (db : Db) : Prop :=
  ∀ r ∈ db.usersSettings.rows,
    (k.varchar 50).Takes r.var ∧ k.type.Takes r.type ∧ (k.varchar 255).Takes r.value

section Calls

variable (c : Config) (open_ : MySQL.Undefined) (kind : Kind)

/-! The three backends treat settings in the same way. -/

theorem createBackend_getUserSetting (id : Int) (name : String) (out : Int × String) (db : Db) :
    (createBackend c open_ kind).getUserSetting id name out db =
      match db.userSetting id name with
      | none => (db.insertUserSetting (kind.columns open_)
          { userId := id, var := name, type := out.1, value := out.2 }, out)
      | some r => (db, (r.type, r.value)) := by
  cases kind with
  | sqlite3 => rfl
  | mysql =>
    simp only [createBackend, mysql, MySQL.getUserSetting, Script.finish, MySQL.select]
    cases db.userSetting id name <;> rfl
  | pqxx => rfl

theorem createBackend_updateUserSetting (id : Int) (name value : String) (db : Db) :
    (createBackend c open_ kind).updateUserSetting id name value db =
      db.writeUserSetting (kind.columns open_) id name value := by
  cases kind <;> rfl

variable {c open_ kind} {db : Db} {id : Int} {name value : String}

theorem holdsSettings_insertUserSetting {k : Columns} {setting : UserSettingRow}
    (h : db.HoldsSettings k) : (db.insertUserSetting k setting).HoldsSettings k := by
  cases hrow : k.userSetting setting with
  | none =>
    rw [Db.insertUserSetting_of_refused hrow]
    exact h
  | some row =>
    cases hold : db.userSetting row.userId row.var with
    | some r =>
      rw [Db.insertUserSetting_of_some hrow hold]
      exact h
    | none =>
      intro r hr
      rw [Db.insertUserSetting_rows hrow hold, List.mem_append, List.mem_singleton] at hr
      rcases hr with hr | rfl
      · exact h r hr
      · have hwrites := Columns.userSetting_eq_some hrow
        exact ⟨Column.takes_of_store hwrites.var, Column.takes_of_store hwrites.type,
          Column.takes_of_store hwrites.value⟩

theorem holdsSettings_writeUserSetting {k : Columns} (id : Int) (name value : String)
    (h : db.HoldsSettings k) : (db.writeUserSetting k id name value).HoldsSettings k := by
  unfold Db.writeUserSetting
  cases hvalue : (k.varchar 255).store value with
  | none => exact h
  | some stored =>
    intro r hr
    obtain ⟨r₀, hr₀, rfl⟩ := List.mem_map.mp hr
    have htakes := h r₀ hr₀
    split
    · exact ⟨htakes.1, htakes.2.1, Column.takes_of_store hvalue⟩
    · exact htakes

theorem holdsSettings_step (hholds : db.HoldsSettings (kind.columns open_)) (call : SettingCall) :
    (call.step (createBackend c open_ kind) db).HoldsSettings (kind.columns open_) := by
  cases call with
  | getUserSetting id' name' out =>
    rw [SettingCall.step, createBackend_getUserSetting]
    split
    · exact holdsSettings_insertUserSetting hholds
    · exact hholds
  | updateUserSetting id' name' value' =>
    rw [SettingCall.step, createBackend_updateUserSetting]
    exact holdsSettings_writeUserSetting id' name' value' hholds
  | getAllSettings id' => exact hholds

end Calls

end Spectrum.Storage
