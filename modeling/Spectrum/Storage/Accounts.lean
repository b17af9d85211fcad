import Spectrum.Storage.Users

/-!
# What the methods do to the tables

The three backends agree on which rows their methods touch: a user is written in his own row, a buddy
does not change the table of the users, and a user is removed by his id from all tables.
-/

namespace Spectrum.Storage

open Lib

variable {c : Config} {open_ : MySQL.Undefined} {kind : Kind} {db : Db} {user row : UserInfo}
  {jid : String} {id : Int}

theorem getUser_found (h : (createBackend c open_ kind).getUser jid db = .found user) :
    ∃ r, db.userRow jid = some r ∧ user.id = r.id ∧ user.jid = jid := by
  cases kind with
  | sqlite3 =>
    simp only [createBackend, sqlite3, SQLite3.getUser] at h
    cases hrow : db.userRow jid with
    | none =>
      rw [hrow] at h
      cases h
    | some r =>
      rw [hrow] at h
      cases h
      exact ⟨r, rfl, rfl, (Db.userRow_eq_some_iff.mp hrow).2⟩
  | mysql =>
    simp only [createBackend, mysql, MySQL.getUser, Script.finish, MySQL.select] at h
    cases hrow : db.userRow jid with
    | none =>
      simp only [hrow, MySQL.finish_askVip] at h
      cases h
    | some r =>
      rw [hrow] at h
      simp only at h
      cases hpassword : c.unlock r.password with
      | none =>
        rw [hpassword] at h
        cases h
      | some password =>
        simp only [hpassword, MySQL.finish_askVip] at h
        cases h
        exact ⟨r, rfl, rfl, (Db.userRow_eq_some_iff.mp hrow).2⟩
  | pqxx =>
    simp only [createBackend, pqxx, PQXX.getUser] at h
    cases hrow : db.userRow jid with
    | none =>
      rw [hrow] at h
      cases h
    | some r =>
      rw [hrow] at h
      simp only at h
      cases hpassword : c.unlock r.password with
      | none =>
        rw [hpassword] at h
        cases h
      | some password =>
        rw [hpassword] at h
        cases h
        exact ⟨r, rfl, rfl, (Db.userRow_eq_some_iff.mp hrow).2⟩

/-- A user whom a column refuses is not written. -/
theorem setUser_of_refused (h : (createBackend c open_ kind).stored user = none) :
    ((createBackend c open_ kind).setUser user db).1 = db := by
  cases kind with
  | sqlite3 =>
    obtain ⟨row, hrow⟩ := SQLite3.user_ne_none user
    cases hrow.symm.trans h
  | mysql => exact congrArg Prod.fst (MySQL.execSetUser_of_refused h)
  | pqxx => exact congrArg Prod.fst (PQXX.setUser_of_refused h)

theorem setUser_userRow_of_ne (h : (createBackend c open_ kind).stored user = some row)
    (hne : jid ≠ row.jid) :
    ((createBackend c open_ kind).setUser user db).1.userRow jid = db.userRow jid := by
  cases kind with
  | sqlite3 => exact SQLite3.setUser_userRow_of_ne h hne
  | mysql =>
    have hset : ((mysql c open_).setUser user db).1 = MySQL.upsertUser row db :=
      congrArg Prod.fst (MySQL.execSetUser_of_stored h)
    change ((mysql c open_).setUser user db).1.userRow jid = _
    rw [hset]
    exact MySQL.upsertUser_userRow_of_ne hne
  | pqxx => exact PQXX.setUser_userRow_of_ne h hne

/-- The user has a row afterwards: with his name, or, if PostgreSQL refuses, the one he had. -/
theorem setUser_userRow_self (h : (createBackend c open_ kind).stored user = some row) :
    ∃ r, ((createBackend c open_ kind).setUser user db).1.userRow row.jid = some r ∧
      (r.uin = row.uin ∨ db.userRow row.jid = some r) := by
  cases kind with
  | sqlite3 => exact ⟨_, SQLite3.setUser_userRow_self h, Or.inl rfl⟩
  | mysql =>
    have hset : ((mysql c open_).setUser user db).1 = MySQL.upsertUser row db :=
      congrArg Prod.fst (MySQL.execSetUser_of_stored h)
    change ∃ r, ((mysql c open_).setUser user db).1.userRow row.jid = some r ∧ _
    rw [hset]
    refine ⟨_, MySQL.upsertUser_userRow_self, Or.inl ?_⟩
    cases db.userRow row.jid <;> rfl
  | pqxx =>
    refine ⟨_, PQXX.setUser_userRow_self h, ?_⟩
    cases db.userRow row.jid with
    | none => exact Or.inl rfl
    | some r => exact Or.inr rfl

theorem setUserOnline_userRow (online : Bool) :
    ((createBackend c open_ kind).setUserOnline id online db).userRow jid =
      (db.userRow jid).map fun r => if r.id = id then { r with online } else r := by
  cases kind <;> exact Db.writeOnline_userRow id online

theorem setUserOnline_buddies (online : Bool) :
    ((createBackend c open_ kind).setUserOnline id online db).buddies = db.buddies := by
  cases kind <;> rfl

theorem updateBuddy_users (userId : Int) (info : BuddyInfo) :
    ((createBackend c open_ kind).updateBuddy userId info db).users = db.users := by
  cases kind with
  | sqlite3 =>
    change (SQLite3.replaceBuddySetting _ (db.writeBuddy _ userId info)).users = _
    rw [SQLite3.replaceBuddySetting_users, Db.writeBuddy_users]
  | mysql => exact Db.writeBuddy_users
  | pqxx => exact Db.writeBuddy_users

theorem pqxx_writeIcon_users {userId : Int} {info : BuddyInfo} {db' : Db}
    (h : PQXX.writeIcon userId id info db = some db') : db'.users = db.users := by
  unfold PQXX.writeIcon at h
  split at h
  · cases h
  · simp only at h
    split at h
    · obtain ⟨t, -, rfl⟩ := Option.map_eq_some_iff.mp h
      rfl
    · obtain ⟨t, -, rfl⟩ := Option.map_eq_some_iff.mp h
      rfl

theorem addBuddy_users (userId : Int) (info : BuddyInfo) :
    ((createBackend c open_ kind).addBuddy userId info db).1.users = db.users := by
  cases kind with
  | sqlite3 =>
    simp only [createBackend, sqlite3, SQLite3.addBuddy]
    split
    · rfl
    · exact SQLite3.replaceBuddySetting_users _ _
  | mysql =>
    have hexec : (MySQL.execAddBuddy open_.columns userId info db).1.users = db.users := by
      unfold MySQL.execAddBuddy
      simp only
      split <;> rfl
    simp only [createBackend, mysql, MySQL.addBuddy, Script.finish]
    split
    · exact hexec
    · exact (MySQL.execUpdateBuddySetting_users _ _ _).trans hexec
  | pqxx =>
    simp only [createBackend, pqxx, PQXX.addBuddy]
    split
    · rfl
    · split
      · rfl
      · rename_i hicon
        exact (pqxx_writeIcon_users hicon).trans rfl

/-- The user and everything that belongs to him is deleted by his id. -/
theorem removeUser_tables (c : Config) (open_ : MySQL.Undefined) (kind : Kind) (id : Int) (db : Db) :
    let db' := (createBackend c open_ kind).removeUser id db
    db'.users = db.users.delete (fun r => decide (r.id = id)) ∧
    db'.buddies = db.buddies.delete (fun r => decide (r.userId = id)) ∧
    db'.usersSettings = db.usersSettings.delete (fun r => decide (r.userId = id)) ∧
    db'.buddiesSettings = db.buddiesSettings.delete (fun r => decide (r.userId = id)) := by
  cases kind <;> exact ⟨rfl, rfl, rfl, rfl⟩

theorem removeUser_buddiesOf (c : Config) (open_ : MySQL.Undefined) (kind : Kind) (id : Int)
    (db : Db) : ((createBackend c open_ kind).removeUser id db).buddiesOf id = [] := by
  refine List.eq_nil_iff_forall_not_mem.mpr fun r hr => ?_
  obtain ⟨hmem, hid⟩ := Table.mem_selectBy.mp hr
  rw [(removeUser_tables c open_ kind id db).2.1, Table.mem_delete, hid] at hmem
  exact Bool.noConfusion hmem.2

theorem foldl_giveSetting_nil (settings : List BuddySettingRow) :
    settings.foldl PQXX.giveSetting [] = [] := by
  induction settings with
  | nil => rfl
  | cons r settings ih =>
    have hgive : PQXX.giveSetting [] r = [] := by
      unfold PQXX.giveSetting
      split <;> rfl
    rw [List.foldl_cons, hgive, ih]

theorem getBuddies_of_none (h : db.buddiesOf id = []) :
    (createBackend c open_ kind).getBuddies id [] db = [] := by
  cases kind with
  | sqlite3 =>
    simp only [createBackend, sqlite3, SQLite3.getBuddies, h]
    rfl
  | mysql =>
    simp only [createBackend, mysql, MySQL.getBuddies, Script.finish, MySQL.select, h]
    rfl
  | pqxx =>
    simp only [createBackend, pqxx, PQXX.getBuddies, h]
    exact foldl_giveSetting_nil _

theorem getLegacyNetworkUsers_eq :
    (createBackend c open_ kind).getLegacyNetworkUsers db = db.uins := by
  cases kind <;> rfl

end Spectrum.Storage
