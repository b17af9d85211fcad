import Spectrum.Storage.Settings

/-!
# Lost connections

A method of `MySQLBackend` that loses the connection reconnects and calls itself again. For most
methods nobody can tell. `addBuddy` cannot repeat its `INSERT`, `getBuddies` has already filled its
list when it asks for the settings, and `getUser` does not start again at the statement for VIPs.
-/

namespace Spectrum.Storage

open Lib

/-- The tables are the same. The counters may differ. -/
structure Db.SameTables (db db' : Db) : Prop where
  users : db.users = db'.users
  buddies : db.buddies = db'.buddies
  buddiesSettings : db.buddiesSettings = db'.buddiesSettings
  usersSettings : db.usersSettings = db'.usersSettings

/-- The tables have the same rows, in whatever order. -/
structure Db.SameRows (db db' : Db) : Prop where
  users : db.users.SameRows db'.users
  buddies : db.buddies.SameRows db'.buddies
  buddiesSettings : db.buddiesSettings.SameRows db'.buddiesSettings
  usersSettings : db.usersSettings.SameRows db'.usersSettings

namespace Db.SameTables

variable {db db' db'' : Db}

theorem refl (db : Db) : db.SameTables db := ⟨rfl, rfl, rfl, rfl⟩

theorem symm (h : db.SameTables db') : db'.SameTables db :=
  ⟨h.users.symm, h.buddies.symm, h.buddiesSettings.symm, h.usersSettings.symm⟩

theorem trans (h : db.SameTables db') (h' : db'.SameTables db'') : db.SameTables db'' :=
  ⟨h.users.trans h'.users, h.buddies.trans h'.buddies,
    h.buddiesSettings.trans h'.buddiesSettings, h.usersSettings.trans h'.usersSettings⟩

theorem sameRows (h : db.SameTables db') : db.SameRows db' := by
  refine ⟨fun r => ?_, fun r => ?_, fun r => ?_, fun r => ?_⟩
  · rw [h.users]
  · rw [h.buddies]
  · rw [h.buddiesSettings]
  · rw [h.usersSettings]

end Db.SameTables

namespace Db.SameRows

variable {db db' db'' : Db}

theorem symm (h : db.SameRows db') : db'.SameRows db :=
  ⟨fun r => (h.users r).symm, fun r => (h.buddies r).symm, fun r => (h.buddiesSettings r).symm,
    fun r => (h.usersSettings r).symm⟩

theorem trans (h : db.SameRows db') (h' : db'.SameRows db'') : db.SameRows db'' :=
  ⟨fun r => (h.users r).trans (h'.users r), fun r => (h.buddies r).trans (h'.buddies r),
    fun r => (h.buddiesSettings r).trans (h'.buddiesSettings r),
    fun r => (h.usersSettings r).trans (h'.usersSettings r)⟩

end Db.SameRows

namespace MySQL

open Script

/-! ## Methods -/

/-- The methods that use `EXEC`. -/
inductive Op
  | setUser (user : UserInfo)
  | getAllSettings (id : Int)
  | getUser (barejid : String)
  | setUserOnline (id : Int) (online : Bool)
  | getOnlineUsers
  | getUsers
  | getLegacyNetworkUsers
  | addBuddy (userId : Int) (info : BuddyInfo)
  | updateBuddySetting (row : BuddySettingRow)
  | getBuddySetting (userId buddyId : Int) (name : String)
  | removeBuddy (id : Int)
  | updateBuddy (userId : Int) (info : BuddyInfo)
  | getBuddies (id : Int)
  | removeUser (id : Int)
  | getUserSetting (id : Int) (name : String)
  | updateUserSetting (id : Int) (name value : String)

/-- The type of the reference parameters. -/
def Op.Out : Op → Type
  | .getAllSettings _ => String → Option String
  | .getUser _ => UserInfo
  | .getOnlineUsers | .getUsers | .getLegacyNetworkUsers => List String
  | .getBuddySetting _ _ _ | .getUserSetting _ _ => Int × String
  | .getBuddies _ => List BuddyInfo
  | _ => Unit

def Op.Result : Op → Type
  | .getUser _ => Option Bool
  | .setUser _ | .getOnlineUsers | .getUsers | .getLegacyNetworkUsers | .getBuddies _
  | .removeUser _ => Bool
  | .addBuddy _ _ => Int
  | _ => Unit

/-- The method on the connection with the given number. -/
def Op.method (c : Config) (open_ : Undefined) (n : Nat) :
    (op : Op) → op.Out → Script Db op.Out op.Result
  | .setUser user => MySQL.setUser open_.columns c user
  | .getAllSettings id => MySQL.getAllSettings id
  | .getUser barejid => MySQL.getUser c open_ barejid n
  | .setUserOnline id online => MySQL.setUserOnline id online
  | .getOnlineUsers => MySQL.getOnlineUsers
  | .getUsers => MySQL.getUsers
  | .getLegacyNetworkUsers => MySQL.getLegacyNetworkUsers
  | .addBuddy userId info => MySQL.addBuddy open_ userId info
  | .updateBuddySetting row => MySQL.updateBuddySetting open_.columns row
  | .getBuddySetting userId buddyId name => MySQL.getBuddySetting open_ userId buddyId name
  | .removeBuddy id => MySQL.removeBuddy id
  | .updateBuddy userId info => MySQL.updateBuddy open_.columns userId info
  | .getBuddies id => MySQL.getBuddies id
  | .removeUser id => MySQL.removeUser id
  | .getUserSetting id name => MySQL.getUserSetting open_.columns id name
  | .updateUserSetting id name value => MySQL.updateUserSetting open_.columns id name value

theorem sameTables_execUpdateBuddySetting (k : Columns) (row : BuddySettingRow) {db db' : Db}
    (h : db'.SameTables (execUpdateBuddySetting k row db)) :
    (execUpdateBuddySetting k row db').SameTables (execUpdateBuddySetting k row db) := by
  unfold execUpdateBuddySetting at h ⊢
  cases hrow : k.buddySetting row with
  | none =>
    rw [hrow] at h
    exact h
  | some stored =>
    rw [hrow] at h
    refine ⟨h.users, h.buddies, ?_, h.usersSettings⟩
    simp only [Db.setBuddiesSettings_buddiesSettings, h.buddiesSettings]
    exact Table.upsert_upsert ⟨rfl, rfl⟩ rfl (fun _ => rfl) fun _ _ => Iff.rfl

/-! ## Methods of several statements -/

theorem Db.setUsers_setUsers_self (db : Db) (t : Table UserRow) (n : Int) :
    (db.setUsers t n).setUsers t (db.setUsers t n).lastUser = db.setUsers t n := by
  refine Db.ext rfl rfl rfl rfl ?_ rfl
  simp only [Db.setUsers]
  omega

theorem Db.setBuddies_setBuddies_self (db : Db) (t : Table BuddyRow) (n : Int) :
    (db.setBuddies t n).setBuddies t (db.setBuddies t n).lastBuddy = db.setBuddies t n := by
  refine Db.ext rfl rfl rfl rfl rfl ?_
  simp only [Db.setBuddies]
  omega

theorem deleteUser_deleteUser (id : Int) (db : Db) :
    (db.deleteUser id).deleteUser id = db.deleteUser id := by
  rw [Db.deleteUser, Db.deleteUser, Db.setUsers_users, Table.delete_delete]
  exact Db.setUsers_setUsers_self db _ _

theorem deleteUserBuddies_deleteUserBuddies (id : Int) (db : Db) :
    (db.deleteUserBuddies id).deleteUserBuddies id = db.deleteUserBuddies id := by
  rw [Db.deleteUserBuddies, Db.deleteUserBuddies, Db.setBuddies_buddies, Table.delete_delete]
  exact Db.setBuddies_setBuddies_self db _ _

theorem deleteUserSettings_deleteUserSettings (id : Int) (db : Db) :
    (db.deleteUserSettings id).deleteUserSettings id = db.deleteUserSettings id := by
  rw [Db.deleteUserSettings, Db.deleteUserSettings, Db.setUsersSettings_usersSettings,
    Table.delete_delete]
  rfl

theorem deleteUserBuddiesSettings_deleteUserBuddiesSettings (id : Int) (db : Db) :
    (db.deleteUserBuddiesSettings id).deleteUserBuddiesSettings id =
      db.deleteUserBuddiesSettings id := by
  rw [Db.deleteUserBuddiesSettings, Db.deleteUserBuddiesSettings,
    Db.setBuddiesSettings_buddiesSettings, Table.delete_delete]
  rfl

section GetUserSetting

variable {k : Columns} {id : Int} {name : String} {out : Int × String} {fates : List Fate} {db : Db}
  {row : UserSettingRow} {n : Nat}

end GetUserSetting

/-! ## `getBuddies` -/

/-- `getBuddies` when the buddies are in the list. -/
def listed (id : Int) (roster : List BuddyInfo) : Script Db (List BuddyInfo) Bool :=
  .exec roster (select fun db => db.buddiesSettingsOf id) fun settings =>
    .done (Cursor.attach { rest := settings } roster) true

section GetBuddies

variable {id : Int} {roster : List BuddyInfo} {fates : List Fate} {db : Db} {n : Nat}

end GetBuddies

/-! ## `getUser` -/

section GetUser

variable {c : Config} {open_ : Undefined} {barejid : String} {fates : List Fate} {db : Db}
  {out : UserInfo} {n : Nat}

/-- What the statement for VIPs says if its connection is not lost. -/
def heard (c : Config) (barejid : String) (lost : Bool) : Option Bool :=
  if lost then none else c.vipAnswer barejid

/-- The answer for a row, or for none. -/
def answer (c : Config) (open_ : Undefined) (barejid : String) (n : Nat) (lost : Bool)
    (out : UserInfo) : Option UserRow → UserInfo × Option Bool
  | none => ({ out with vip := (heard c barejid lost).getD out.vip }, some false)
  | some r =>
    match c.unlock r.password with
    | none => (readUser open_ n r, none)
    | some password =>
      ({ readUser open_ n r with
          password, vip := (heard c barejid lost).getD (r.vip || open_.vipRest n) }, some true)

end GetUser

/-! ## `addBuddy` -/

/-- The columns refuse the buddy, or the user already has a buddy of the name that they take. -/
def InsertFails (k : Columns) (userId : Int) (info : BuddyInfo) (db : Db) : Prop :=
  ∀ row ∈ k.buddy (buddyRow 0 userId info), ∃ r ∈ db.buddies.rows, r.userId = userId ∧ r.uin = row.uin

section AddBuddy

variable {k : Columns} {open_ : Undefined} {userId id : Int} {info : BuddyInfo} {fates : List Fate}
  {db db' : Db} {n : Nat}

/-- What is inserted depends on the id only in the id. -/
theorem buddy_buddyRow (k : Columns) (id userId : Int) (info : BuddyInfo) :
    k.buddy (buddyRow id userId info) =
      (k.buddy (buddyRow 0 userId info)).map fun row => { row with id } := by
  unfold Columns.buddy Columns.details buddyRow
  simp only
  cases (k.varchar 255).store info.legacyName <;> cases (k.varchar 255).store info.aliasName <;>
    cases (k.varchar 255).store (serializeGroups info.groups) <;> cases k.flags.store info.flags <;>
    rfl

theorem userId_of_buddy {row : BuddyRow} (h : k.buddy (buddyRow id userId info) = some row) :
    row.userId = userId := by
  unfold Columns.buddy at h
  obtain ⟨uin, -, h⟩ := Option.bind_eq_some_iff.mp h
  exact (Columns.details_eq_some h).2.1

theorem execAddBuddy_of_fails (h : InsertFails k userId info db) :
    (execAddBuddy k userId info db).1.SameTables db ∧ (execAddBuddy k userId info db).2 = none := by
  have hinsert : (k.buddy (buddyRow (db.lastBuddy + 1) userId info)).bind db.buddies.insert =
      none := by
    rw [buddy_buddyRow]
    cases hrow : k.buddy (buddyRow 0 userId info) with
    | none => rfl
    | some row =>
      obtain ⟨r, hr, huser, hname⟩ := h row hrow
      refine Table.insert_eq_none hr (Or.inr ⟨?_, hname.symm⟩)
      exact (userId_of_buddy hrow).trans huser.symm
  simp only [execAddBuddy, hinsert, and_true]
  exact ⟨rfl, rfl, rfl, rfl⟩

theorem InsertFails.congr (h : InsertFails k userId info db)
    (hsame : db'.buddies.SameRows db.buddies) : InsertFails k userId info db' := by
  intro row hrow
  obtain ⟨r, hr, hkey⟩ := h row hrow
  exact ⟨r, (hsame r).mpr hr, hkey⟩

theorem execUpdateBuddySetting_congr (k : Columns) (row : BuddySettingRow)
    (h : db'.SameTables db) :
    (execUpdateBuddySetting k row db').SameTables (execUpdateBuddySetting k row db) := by
  unfold execUpdateBuddySetting
  cases k.buddySetting row with
  | none => exact h
  | some stored =>
    refine ⟨h.users, h.buddies, ?_, h.usersSettings⟩
    simp only [Db.setBuddiesSettings_buddiesSettings, h.buddiesSettings]

/-- What is left of `addBuddy` after the first statement. -/
def added (k : Columns) (userId : Int) (info : BuddyInfo) (id : Int) : Script Db Unit Int :=
  if info.iconHash = "" then .done () id
  else .exec () (write (execUpdateBuddySetting k (iconRow userId id info))) fun _ => .done () id

/-- The icon hash is written, unless it is empty. -/
def withIcon (k : Columns) (userId : Int) (info : BuddyInfo) (id : Int) (db : Db) : Db :=
  if info.iconHash = "" then db else execUpdateBuddySetting k (iconRow userId id info) db

theorem withIcon_buddies : (withIcon k userId info id db).buddies = db.buddies := by
  unfold withIcon
  split
  · rfl
  · exact execUpdateBuddySetting_buddies _ _ _

theorem withIcon_congr (h : db'.SameTables db) :
    (withIcon k userId info id db').SameTables (withIcon k userId info id db) := by
  unfold withIcon
  split
  · exact h
  · exact execUpdateBuddySetting_congr k _ h

theorem withIcon_withIcon (h : db'.SameTables (withIcon k userId info id db)) :
    (withIcon k userId info id db').SameTables (withIcon k userId info id db) := by
  unfold withIcon at h ⊢
  split
  · rename_i hempty
    rwa [if_pos hempty] at h
  · rename_i hne
    rw [if_neg hne] at h
    exact sameTables_execUpdateBuddySetting k _ h

/-- No buddy was added. The icon hash may have been written for the id that MySQL leaves open. -/
def Unadded (open_ : Undefined) (userId : Int) (info : BuddyInfo) (db db' : Db) : Prop :=
  db'.SameTables db ∨ db'.SameTables (withIcon open_.columns userId info open_.insertId db)

theorem Unadded.execAddBuddy (h : InsertFails open_.columns userId info db)
    (hdb : Unadded open_ userId info db db') :
    Unadded open_ userId info db (execAddBuddy open_.columns userId info db').1 ∧
      (execAddBuddy open_.columns userId info db').2 = none := by
  rcases hdb with hsame | hsame
  · obtain ⟨htables, hnone⟩ := execAddBuddy_of_fails (h.congr hsame.sameRows.buddies)
    exact ⟨Or.inl (htables.trans hsame), hnone⟩
  · have hbuddies : db'.buddies = db.buddies := hsame.buddies.trans withIcon_buddies
    have hfails : InsertFails open_.columns userId info db' := h.congr fun r => by rw [hbuddies]
    obtain ⟨htables, hnone⟩ := execAddBuddy_of_fails hfails
    exact ⟨Or.inr (htables.trans hsame), hnone⟩

theorem Unadded.withIcon (hdb : Unadded open_ userId info db db') :
    (withIcon open_.columns userId info open_.insertId db').SameTables
      (withIcon open_.columns userId info open_.insertId db) :=
  hdb.elim withIcon_congr withIcon_withIcon

/-- Where the method starts again after the `INSERT` was executed: a row has been added, and it cannot
be added again. -/
structure AddedBefore (k : Columns) (userId : Int) (info : BuddyInfo) (db db' : Db) : Prop where
  fails : InsertFails k userId info db'
  row : ¬ InsertFails k userId info db → ∃ r ∈ db'.buddies.rows, r.id = db.lastBuddy + 1

theorem AddedBefore.of_buddies (h : AddedBefore k userId info db db') {db'' : Db}
    (hbuddies : db''.buddies = db'.buddies) : AddedBefore k userId info db db'' := by
  refine ⟨h.fails.congr fun r => by rw [hbuddies], fun hnew => ?_⟩
  rw [hbuddies]
  exact h.row hnew

end AddBuddy

end MySQL

end Spectrum.Storage
