import Spectrum.Storage.Columns
import Spectrum.Storage.Encoding

/-!
# What the backends share

The virtual methods of `StorageBackend`, the selections of the rows of a user and the loop that gives
the settings to the buddies in `SQLite3Backend::getBuddies` and `MySQLBackend::getBuddies`. A
statement with a value that a column refuses changes nothing. The JIDs and names that rows are looked
up by come from XML, which has no NUL.
-/

namespace Spectrum.Storage

open Lib Wire

/-- The answer of `getUser`: the user it fills in and `true`, or `false`, or an exception. -/
inductive GetUser
  | found (user : UserInfo)
  | notFound
  | throws
  deriving DecidableEq, Repr

/-- `StorageBackend`, and what `users` gets for a user. `setUser` says whether the statement succeeded,
which the code only logs. The maps and lists that `getBuddies`, `getAllSettings` and `getUserSetting`
fill are passed in. -/
structure Backend where
  stored : UserInfo → Option UserInfo
  setUser : UserInfo → Db → Db × Bool
  getUser : String → Db → GetUser
  setUserOnline : Int → Bool → Db → Db
  getOnlineUsers : Db → List String
  getUsers : Db → List String
  getLegacyNetworkUsers : Db → List String
  addBuddy : Int → BuddyInfo → Db → Db × Int
  updateBuddy : Int → BuddyInfo → Db → Db
  removeBuddy : Int → Db → Db
  getBuddies : Int → List BuddyInfo → Db → List BuddyInfo
  removeUser : Int → Db → Db
  getAllSettings : Int → (String → Option String) → Db → String → Option String
  getUserSetting : Int → String → Int × String → Db → Db × (Int × String)
  updateUserSetting : Int → String → String → Db → Db

/-! ## Selections -/

namespace Db

variable (k : Columns) (db : Db)

/-- `SELECT … FROM buddies WHERE user_id=? ORDER BY id ASC`. -/
def buddiesOf (id : Int) : List BuddyRow :=
  db.buddies.selectBy (fun r => decide (r.userId = id)) BuddyRow.id

/-- `SELECT … FROM buddies_settings WHERE user_id=? ORDER BY buddy_id ASC`. -/
def buddiesSettingsOf (id : Int) : List BuddySettingRow :=
  db.buddiesSettings.selectBy (fun r => decide (r.userId = id)) BuddySettingRow.buddyId

/-- `SELECT … FROM users_settings WHERE user_id=?`. -/
def usersSettingsOf (id : Int) : List UserSettingRow :=
  db.usersSettings.rows.filter fun r => decide (r.userId = id)

/-- `SELECT … FROM users_settings WHERE user_id=? AND var=?`. -/
def userSetting (id : Int) (name : String) : Option UserSettingRow :=
  db.usersSettings.rows.find? fun r => decide (r.userId = id ∧ r.var = name)

def onlineUsers : List String := (db.users.rows.filter UserRow.online).map UserRow.jid

def jids : List String := db.users.rows.map UserRow.jid

def uins : List String := db.users.rows.map UserRow.uin

/-! ## Statements that the three backends have in common -/

/-- `UPDATE users SET online=? WHERE id=?`. -/
def writeOnline (id : Int) (online : Bool) : Db :=
  db.setUsers (db.users.update (fun r => decide (r.id = id)) (fun r => { r with online })
    (.intro fun _ _ => Iff.rfl)) db.lastUser

/-- `UPDATE users_settings SET value=? WHERE user_id=? AND var=?`. -/
def writeUserSetting (id : Int) (name value : String) : Db :=
  match (k.varchar 255).store value with
  | none => db
  | some value => db.setUsersSettings (db.usersSettings.update
      (fun r => decide (r.userId = id ∧ r.var = name)) (fun r => { r with value })
      (.intro fun _ _ => Iff.rfl))

/-- `INSERT INTO users_settings`, which fails if there is such a row. -/
def insertUserSetting (row : UserSettingRow) : Db :=
  match k.userSetting row with
  | none => db
  | some row => db.setUsersSettings ((db.usersSettings.insert row).getD db.usersSettings)

def deleteUser (id : Int) : Db :=
  db.setUsers (db.users.delete fun r => decide (r.id = id)) db.lastUser

def deleteUserSettings (id : Int) : Db :=
  db.setUsersSettings (db.usersSettings.delete fun r => decide (r.userId = id))

def deleteUserBuddies (id : Int) : Db :=
  db.setBuddies (db.buddies.delete fun r => decide (r.userId = id)) db.lastBuddy

def deleteUserBuddiesSettings (id : Int) : Db :=
  db.setBuddiesSettings (db.buddiesSettings.delete fun r => decide (r.userId = id))

def deleteBuddy (id : Int) : Db :=
  db.setBuddies (db.buddies.delete fun r => decide (r.id = id)) db.lastBuddy

def deleteBuddySettings (id : Int) : Db :=
  db.setBuddiesSettings (db.buddiesSettings.delete fun r => decide (r.buddyId = id))

end Db

/-- The columns of a new buddy. -/
def buddyRow (id userId : Int) (info : BuddyInfo) : BuddyRow where
  id := id
  userId := userId
  uin := info.legacyName
  subscription := info.subscription
  nickname := info.aliasName
  groups := serializeGroups info.groups
  flags := info.flags

/-- `UPDATE buddies SET groups=?, nickname=?, flags=?, subscription=? WHERE user_id=? AND uin=?`. -/
def Db.writeBuddy (k : Columns) (db : Db) (userId : Int) (info : BuddyInfo) : Db :=
  match k.details (buddyRow info.id userId info) with
  | none => db
  | some row => db.setBuddies (db.buddies.update
      (fun r => decide (r.userId = userId ∧ r.uin = info.legacyName))
      (fun r => { r with
        groups := row.groups, nickname := row.nickname, flags := row.flags,
        subscription := row.subscription })
      (.intro fun _ _ => Iff.rfl)) db.lastBuddy

section WriteBuddy

variable {k : Columns} {db : Db} {userId : Int} {info : BuddyInfo}

@[simp]
theorem Db.writeBuddy_users : (db.writeBuddy k userId info).users = db.users := by
  unfold Db.writeBuddy
  split <;> rfl

@[simp]
theorem Db.writeBuddy_buddiesSettings :
    (db.writeBuddy k userId info).buddiesSettings = db.buddiesSettings := by
  unfold Db.writeBuddy
  split <;> rfl

@[simp]
theorem Db.writeBuddy_usersSettings :
    (db.writeBuddy k userId info).usersSettings = db.usersSettings := by
  unfold Db.writeBuddy
  split <;> rfl

/-- A buddy is updated with values that the columns take. -/
theorem Db.writeBuddy_of_details {row : BuddyRow}
    (h : k.details (buddyRow info.id userId info) = some row) :
    db.writeBuddy k userId info = db.setBuddies (db.buddies.update
      (fun r => decide (r.userId = userId ∧ r.uin = info.legacyName))
      (fun r => { r with
        groups := row.groups, nickname := row.nickname, flags := row.flags,
        subscription := row.subscription })
      (.intro fun _ _ => Iff.rfl)) db.lastBuddy := by
  simp only [Db.writeBuddy, h]

end WriteBuddy

/-- The icon hash of a buddy. `RosterStorage` always sets one. -/
def BuddyInfo.iconHash (info : BuddyInfo) : String :=
  ((info.settings "icon_hash").map SettingVariableInfo.s).getD ""

/-- The row that holds the icon hash of a buddy. -/
def iconRow (userId buddyId : Int) (info : BuddyInfo) : BuddySettingRow where
  userId := userId
  buddyId := buddyId
  var := "icon_hash"
  type := typeString
  value := info.iconHash

/-- A row of `buddies` as `getBuddies` reads it. -/
def readBuddy (r : BuddyRow) : BuddyInfo where
  id := r.id
  legacyName := r.uin
  subscription := r.subscription
  aliasName := r.nickname
  groups := deserializeGroups r.groups
  flags := r.flags

/-- The assignment `userSettings[var] = val`. -/
def putSetting (settings : String → Option String) (r : UserSettingRow) : String → Option String :=
  fun key => if key = r.var then some r.value else settings key

/-! ## The settings of the buddies -/

/-- Whether `atoi` gives something else than 0. -/
def atoi (val : String) : Bool :=
  let digits := val.toList.dropWhile Char.isWhitespace
  let digits := if digits.head? = some '-' ∨ digits.head? = some '+' then digits.tail else digits
  (digits.takeWhile Char.isDigit).any fun c => c != '0'

/-- The assignment `b.settings[key] = var`. -/
def BuddyInfo.setSetting (b : BuddyInfo) (key : String) (var : SettingVariableInfo) : BuddyInfo :=
  { b with settings := fun k => if k = key then some var else b.settings k }

/-- The variables of the loop in `getBuddies` and the rows that are still to be fetched. The row that
was fetched last is waiting for its buddy unless `buddyId` is -1. -/
structure Cursor where
  var : SettingVariableInfo := {}
  buddyId : Int := -1
  key : String := ""
  rest : List BuddySettingRow

/-- The type decides which part of the variable gets the value. -/
def SettingVariableInfo.read (var : SettingVariableInfo) (r : BuddySettingRow) :
    SettingVariableInfo :=
  if r.type = typeBoolean then { var with type := r.type, b := atoi r.value }
  else if r.type = typeString then { var with type := r.type, s := r.value }
  else { var with type := r.type }

namespace Cursor

/-- The inner loop: `while (buddy_id == -1 && fetch() == 0)`. -/
def fetch (b : BuddyInfo) (var : SettingVariableInfo) (buddyId : Int) (key : String) :
    List BuddySettingRow → BuddyInfo × Cursor
  | [] => (b, { var, buddyId, key, rest := [] })
  | r :: rest =>
    if buddyId = -1 then
      let var := var.read r
      if r.buddyId = b.id then
        -- A setting of another type is skipped.
        if r.type = typeBoolean ∨ r.type = typeString then
          fetch (b.setSetting r.var var) var (-1) r.var rest
        else fetch b var (-1) r.var rest
      else fetch b var r.buddyId r.var rest
    else (b, { var, buddyId, key, rest := r :: rest })

/-- One round of the outer loop. -/
def give (c : Cursor) (b : BuddyInfo) : BuddyInfo × Cursor :=
  if c.buddyId = b.id then fetch (b.setSetting c.key c.var) c.var (-1) c.key c.rest
  else fetch b c.var c.buddyId c.key c.rest

/-- The outer loop. -/
def attach : Cursor → List BuddyInfo → List BuddyInfo
  | _, [] => []
  | c, b :: bs => (c.give b).1 :: attach (c.give b).2 bs

end Cursor

end Spectrum.Storage
