import Spectrum.Storage.Backend

/-!
# PQXXBackend

`setUser` only inserts. `removeBuddy` is empty. An exception of a statement is logged and the method
ends. An `INSERT` that fails uses up an id.
-/

namespace Spectrum.Storage.PQXX

open Lib Wire

def newRow (user : UserInfo) (db : Db) : UserRow where
  id := db.lastUser + 1
  jid := user.jid
  uin := user.uin
  password := user.password
  language := user.language
  encoding := user.encoding
  vip := user.vip

def setUser (c : Config) (user : UserInfo) (db : Db) : Db × Bool :=
  match columns.user (c.lockUser user) with
  | none => (db, false)
  | some user =>
    match db.users.insert (newRow user db) with
    | none => (db.setUsers db.users (db.lastUser + 1), false)
    | some t => (db.setUsers t (db.lastUser + 1), true)

/-- The exception of `decryptPassword` is caught. -/
def getUser (c : Config) (barejid : String) (db : Db) : GetUser :=
  match db.userRow barejid with
  | none => .notFound
  | some r =>
    match c.unlock r.password with
    | none => .notFound
    | some password => .found
      { id := r.id, jid := r.jid, uin := r.uin, password, language := r.language,
        encoding := r.encoding, vip := r.vip }

/-- The icon hash is written over the settings that the buddy already has, and inserted if it has
none. Either can fail. -/
def writeIcon (userId id : Int) (info : BuddyInfo) (db : Db) : Option Db :=
  let old := fun r : BuddySettingRow => decide (r.userId = userId ∧ r.buddyId = id)
  match columns.buddySetting (iconRow userId id info) with
  | none => none
  | some row =>
    if db.buddiesSettings.rows.any old then
      (db.buddiesSettings.rekey old fun r => { r with
        var := row.var, type := row.type, value := row.value }).map fun t => db.setBuddiesSettings t
    else (db.buddiesSettings.insert row).map fun t => db.setBuddiesSettings t

def addBuddy (userId : Int) (info : BuddyInfo) (db : Db) : Db × Int :=
  let id := db.lastBuddy + 1
  match (columns.buddy (buddyRow id userId info)).bind db.buddies.insert with
  | none => (db.setBuddies db.buddies id, -1)
  | some t =>
    let db := db.setBuddies t id
    match writeIcon userId id info db with
    | none => (db, -1)
    | some db => (db, id)

/-- A setting goes to the first buddy with its id. -/
def giveSetting (roster : List BuddyInfo) (r : BuddySettingRow) : List BuddyInfo :=
  if r.type = typeBoolean ∨ r.type = typeString then
    match roster with
    | [] => []
    | b :: bs =>
      if r.buddyId = b.id then b.setSetting r.var (SettingVariableInfo.read {} r) :: bs
      else b :: giveSetting bs r
  else roster

def getBuddies (id : Int) (roster : List BuddyInfo) (db : Db) : List BuddyInfo :=
  (db.buddiesSettingsOf id).foldl giveSetting (roster ++ (db.buddiesOf id).map readBuddy)

def removeUser (id : Int) (db : Db) : Db :=
  (((db.deleteUser id).deleteUserBuddies id).deleteUserSettings id).deleteUserBuddiesSettings id

def getAllSettings (id : Int) (settings : String → Option String) (db : Db) :
    String → Option String :=
  (db.usersSettingsOf id).foldl putSetting settings

def getUserSetting (id : Int) (name : String) (out : Int × String) (db : Db) :
    Db × (Int × String) :=
  match db.userSetting id name with
  | none =>
    (db.insertUserSetting columns { userId := id, var := name, type := out.1, value := out.2 }, out)
  | some r => (db, (r.type, r.value))

end Spectrum.Storage.PQXX

namespace Spectrum.Storage

/-- `PQXXBackend`. -/
def pqxx (c : Config) : Backend where
  stored user := PQXX.columns.user (c.lockUser user)
  setUser := PQXX.setUser c
  getUser := PQXX.getUser c
  setUserOnline id online db := db.writeOnline id online
  getOnlineUsers := Db.onlineUsers
  getUsers := Db.jids
  getLegacyNetworkUsers := Db.uins
  addBuddy := PQXX.addBuddy
  updateBuddy userId info db := db.writeBuddy PQXX.columns userId info
  removeBuddy _ db := db
  getBuddies := PQXX.getBuddies
  removeUser := PQXX.removeUser
  getAllSettings := PQXX.getAllSettings
  getUserSetting := PQXX.getUserSetting
  updateUserSetting id name value db := db.writeUserSetting PQXX.columns id name value

end Spectrum.Storage
