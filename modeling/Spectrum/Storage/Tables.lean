import Spectrum.Lib.Table
import Spectrum.Wire.Message

/-!
# The database

The tables of `createDatabase` and the records of `StorageBackend.h`. The three databases have the
same tables. They take their ids from a counter, except for SQLite, which takes one more than the
largest id in the table; for SQLite the counter only records the largest id that was ever used.

`last_login` is written and never read.
-/

namespace Spectrum.Storage

open Lib Wire

/-! ## Records -/

/-- `UserInfo`, except for the settings. Passwords are encrypted byte by byte. -/
structure UserInfo where
  id : Int := 0
  jid : String
  uin : String
  password : Bytes
  language : String
  encoding : String
  vip : Bool
  deriving DecidableEq, Repr

/-- `SettingType`, as far as it is read. -/
def typeBoolean : Int := 4

def typeString : Int := 13

/-- `SettingVariableInfo`. -/
structure SettingVariableInfo where
  type : Int := 0
  s : String := ""
  b : Bool := false
  deriving DecidableEq, Repr

/-- `BuddyInfo`. The id is -1 for a buddy that is not stored. -/
structure BuddyInfo where
  id : Int := -1
  aliasName : String := ""
  legacyName : String
  subscription : String
  groups : List String := []
  settings : String → Option SettingVariableInfo := fun _ => none
  flags : Int := 0

/-! ## Tables -/

structure UserRow where
  id : Int
  jid : String
  uin : String
  password : Bytes
  language : String
  encoding : String
  vip : Bool
  online : Bool := false
  deriving DecidableEq, Repr

structure BuddyRow where
  id : Int
  userId : Int
  uin : String
  subscription : String
  nickname : String
  groups : String
  flags : Int
  deriving DecidableEq, Repr

structure BuddySettingRow where
  userId : Int
  buddyId : Int
  var : String
  type : Int
  value : String
  deriving DecidableEq, Repr

structure UserSettingRow where
  userId : Int
  var : String
  type : Int
  value : String
  deriving DecidableEq, Repr

instance : Keyed UserRow where
  Clash r s := r.id = s.id ∨ r.jid = s.jid
  decClash _ _ := inferInstanceAs (Decidable (_ ∨ _))
  symm h := h.imp Eq.symm Eq.symm

instance : Keyed BuddyRow where
  Clash r s := r.id = s.id ∨ r.userId = s.userId ∧ r.uin = s.uin
  decClash _ _ := inferInstanceAs (Decidable (_ ∨ _ ∧ _))
  symm h := h.imp Eq.symm (And.imp Eq.symm Eq.symm)

instance : Keyed BuddySettingRow where
  Clash r s := r.buddyId = s.buddyId ∧ r.var = s.var
  decClash _ _ := inferInstanceAs (Decidable (_ ∧ _))
  symm h := h.imp Eq.symm Eq.symm

instance : Keyed UserSettingRow where
  Clash r s := r.userId = s.userId ∧ r.var = s.var
  decClash _ _ := inferInstanceAs (Decidable (_ ∧ _))
  symm h := h.imp Eq.symm Eq.symm

/-- The largest id, 0 if there is none. -/
def top (ids : List Int) : Int := ids.max?.getD 0

theorem le_top {ids : List Int} {i : Int} (h : i ∈ ids) : i ≤ top ids := by
  cases hmax : ids.max? with
  | none =>
    rw [List.max?_eq_none_iff] at hmax
    subst hmax
    cases h
  | some m =>
    rw [top, hmax, Option.getD_some]
    exact (List.max?_eq_some_iff.mp hmax).2 i h

@[ext]
structure Db where
  users : Table UserRow := .empty
  buddies : Table BuddyRow := .empty
  buddiesSettings : Table BuddySettingRow := .empty
  usersSettings : Table UserSettingRow := .empty
  lastUser : Int := 0
  lastBuddy : Int := 0
  users_le : ∀ r ∈ users.rows, r.id ≤ lastUser := by exact nofun
  buddies_le : ∀ r ∈ buddies.rows, r.id ≤ lastBuddy := by exact nofun

namespace Db

/-- No table has a row. -/
def empty : Db := {}

/-- The table of the users is changed. The counter has got to `n`. -/
def setUsers (t : Table UserRow) (n : Int) (db : Db) : Db :=
  { db with
    users := t
    lastUser := max (max db.lastUser n) (top (t.rows.map UserRow.id))
    users_le := fun _ hr =>
      Int.le_trans (le_top (List.mem_map_of_mem hr)) (Int.le_max_right _ _) }

def setBuddies (t : Table BuddyRow) (n : Int) (db : Db) : Db :=
  { db with
    buddies := t
    lastBuddy := max (max db.lastBuddy n) (top (t.rows.map BuddyRow.id))
    buddies_le := fun _ hr =>
      Int.le_trans (le_top (List.mem_map_of_mem hr)) (Int.le_max_right _ _) }

def setBuddiesSettings (t : Table BuddySettingRow) (db : Db) : Db := { db with buddiesSettings := t }

def setUsersSettings (t : Table UserSettingRow) (db : Db) : Db := { db with usersSettings := t }

@[simp]
theorem setUsers_users (db : Db) (t : Table UserRow) (n : Int) : (db.setUsers t n).users = t := rfl

@[simp]
theorem setBuddies_buddies (db : Db) (t : Table BuddyRow) (n : Int) :
    (db.setBuddies t n).buddies = t := rfl

@[simp]
theorem setBuddiesSettings_buddiesSettings (db : Db) (t : Table BuddySettingRow) :
    (db.setBuddiesSettings t).buddiesSettings = t := rfl

@[simp]
theorem setUsersSettings_usersSettings (db : Db) (t : Table UserSettingRow) :
    (db.setUsersSettings t).usersSettings = t := rfl

/-- The row of a user. -/
def userRow (jid : String) (db : Db) : Option UserRow :=
  db.users.rows.find? fun r => decide (r.jid = jid)

end Db

end Spectrum.Storage
