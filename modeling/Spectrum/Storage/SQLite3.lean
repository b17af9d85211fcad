import Spectrum.Storage.Backend

/-!
# SQLite3Backend

`setUser` replaces the whole row and takes over only its id. A new row gets the largest id of the
table plus one.
-/

namespace Spectrum.Storage.SQLite3

open Lib Wire

/-- The id of a new row of the users. -/
def nextUser (db : Db) : Int := top (db.users.rows.map UserRow.id) + 1

def nextBuddy (db : Db) : Int := top (db.buddies.rows.map BuddyRow.id) + 1

/-- The row that `setUser` writes. It does not name `online`, which becomes 0. -/
def newRow (user : UserInfo) (db : Db) : UserRow where
  id := ((db.userRow user.jid).map UserRow.id).getD (nextUser db)
  jid := user.jid
  uin := user.uin
  password := user.password
  language := user.language
  encoding := user.encoding
  vip := user.vip

def setUser (user : UserInfo) (db : Db) : Db × Bool :=
  match columns.user user with
  | none => (db, false)
  | some user => (db.setUsers (db.users.replace (newRow user db)) db.lastUser, true)

def getUser (barejid : String) (db : Db) : GetUser :=
  match db.userRow barejid with
  | none => .notFound
  | some r => .found
    { id := r.id, jid := r.jid, uin := r.uin, password := r.password, language := r.language,
      encoding := r.encoding, vip := r.vip }

/-- `INSERT OR REPLACE INTO buddies_settings`. -/
def replaceBuddySetting (row : BuddySettingRow) (db : Db) : Db :=
  match columns.buddySetting row with
  | none => db
  | some row => db.setBuddiesSettings (db.buddiesSettings.replace row)

@[simp]
theorem replaceBuddySetting_users (row : BuddySettingRow) (db : Db) :
    (replaceBuddySetting row db).users = db.users := by
  unfold replaceBuddySetting
  split <;> rfl

def addBuddy (userId : Int) (info : BuddyInfo) (db : Db) : Db × Int :=
  match (columns.buddy (buddyRow (nextBuddy db) userId info)).bind db.buddies.insert with
  | none => (db, -1)
  | some t =>
    let id := nextBuddy db
    (replaceBuddySetting (iconRow userId id info) (db.setBuddies t id), id)

def updateBuddy (userId : Int) (info : BuddyInfo) (db : Db) : Db :=
  replaceBuddySetting (iconRow userId info.id info) (db.writeBuddy columns userId info)

/-- The settings are fetched while the buddies are read. -/
def getBuddies (id : Int) (roster : List BuddyInfo) (db : Db) : List BuddyInfo :=
  roster ++ Cursor.attach { rest := db.buddiesSettingsOf id } ((db.buddiesOf id).map readBuddy)

def removeBuddy (id : Int) (db : Db) : Db := (db.deleteBuddy id).deleteBuddySettings id

def removeUser (id : Int) (db : Db) : Db :=
  (((db.deleteUser id).deleteUserSettings id).deleteUserBuddies id).deleteUserBuddiesSettings id

def getAllSettings (id : Int) (settings : String → Option String) (db : Db) :
    String → Option String :=
  (db.usersSettingsOf id).foldl putSetting settings

def getUserSetting (id : Int) (name : String) (out : Int × String) (db : Db) :
    Db × (Int × String) :=
  match db.userSetting id name with
  | none =>
    (db.insertUserSetting columns { userId := id, var := name, type := out.1, value := out.2 }, out)
  | some r => (db, (r.type, r.value))

end Spectrum.Storage.SQLite3

namespace Spectrum.Storage

/-- `SQLite3Backend`. It does not encrypt passwords. -/
def sqlite3 : Backend where
  stored := SQLite3.columns.user
  setUser := SQLite3.setUser
  getUser := SQLite3.getUser
  setUserOnline id online db := db.writeOnline id online
  getOnlineUsers := Db.onlineUsers
  getUsers := Db.jids
  getLegacyNetworkUsers := Db.uins
  addBuddy := SQLite3.addBuddy
  updateBuddy := SQLite3.updateBuddy
  removeBuddy := SQLite3.removeBuddy
  getBuddies := SQLite3.getBuddies
  removeUser := SQLite3.removeUser
  getAllSettings := SQLite3.getAllSettings
  getUserSetting := SQLite3.getUserSetting
  updateUserSetting id name value db := db.writeUserSetting SQLite3.columns id name value

end Spectrum.Storage
