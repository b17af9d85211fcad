import Spectrum.Lib.Retry
import Spectrum.Storage.Backend

/-!
# MySQLBackend

Every method is a script of statements, each of which is an `EXEC`: when the connection is lost the
whole method is called again. Only the statement for VIPs is sent without `EXEC`. The methods of the
backend are the scripts without any loss.

Some things are left open. `mysql_insert_id` is undefined after an `INSERT` that failed.
`getBuddySetting` writes the id of the buddy into the buffer of a text whose length is never set. The
flag for VIPs is one byte, which is written to a buffer of four, all of which are read. And the mode
of the server says what happens to values that a column does not take.
-/

namespace Spectrum.Storage.MySQL

open Lib Wire

/-- What is left open: the id after a failed `INSERT`, the id that the server reads from the buffer of
the text, whether the other bytes of the flag, which each connection allocates, are not all zero, and
the mode. -/
structure Undefined where
  insertId : Int := 0
  boundText : Int → Int := fun id => id
  vipRest : Nat → Bool := fun _ => false
  mode : Mode := .strict

def Undefined.columns (open_ : Undefined) : Columns := MySQL.columns open_.mode

/-! ## Statements -/

/-- The row that `setUser` inserts. -/
def newRow (user : UserInfo) (db : Db) : UserRow where
  id := db.lastUser + 1
  jid := user.jid
  uin := user.uin
  password := user.password
  language := user.language
  encoding := user.encoding
  vip := user.vip

/-- The row that `setUser` makes of one that exists. -/
def changedRow (user : UserInfo) (r : UserRow) : UserRow :=
  { r with uin := user.uin, password := user.password }

/-- `INSERT INTO users … ON DUPLICATE KEY UPDATE uin=?, password=?`, with values that are taken. -/
def upsertUser (user : UserInfo) (db : Db) : Db :=
  db.setUsers (db.users.upsert (newRow user db) (changedRow user) (.intro fun _ _ => Iff.rfl))
    (db.lastUser + 1)

/-- The statement of `setUser`. It says whether it succeeds. -/
def execSetUser (k : Columns) (c : Config) (user : UserInfo) (db : Db) : Db × Bool :=
  match k.user (c.lockUser user) with
  | none => (db, false)
  | some user => (upsertUser user db, true)

/-- `INSERT INTO buddies`. A failed one uses up an id too. -/
def execAddBuddy (k : Columns) (userId : Int) (info : BuddyInfo) (db : Db) : Db × Option Int :=
  let id := db.lastBuddy + 1
  match (k.buddy (buddyRow id userId info)).bind db.buddies.insert with
  | none => (db.setBuddies db.buddies id, none)
  | some t => (db.setBuddies t id, some id)

/-- `INSERT INTO buddies_settings … ON DUPLICATE KEY UPDATE value=?`. -/
def execUpdateBuddySetting (k : Columns) (row : BuddySettingRow) (db : Db) : Db :=
  match k.buddySetting row with
  | none => db
  | some row => db.setBuddiesSettings
      (db.buddiesSettings.upsert row (fun r => { r with value := row.value })
        (.intro fun _ _ => Iff.rfl))

@[simp]
theorem execUpdateBuddySetting_users (k : Columns) (row : BuddySettingRow) (db : Db) :
    (execUpdateBuddySetting k row db).users = db.users := by
  unfold execUpdateBuddySetting
  split <;> rfl

@[simp]
theorem execUpdateBuddySetting_buddies (k : Columns) (row : BuddySettingRow) (db : Db) :
    (execUpdateBuddySetting k row db).buddies = db.buddies := by
  unfold execUpdateBuddySetting
  split <;> rfl

@[simp]
theorem execUpdateBuddySetting_usersSettings (k : Columns) (row : BuddySettingRow) (db : Db) :
    (execUpdateBuddySetting k row db).usersSettings = db.usersSettings := by
  unfold execUpdateBuddySetting
  split <;> rfl

/-- `SELECT type, value FROM buddies_settings WHERE user_id=? AND buddy_id=? AND var=?`. -/
def buddySetting (userId buddyId : Int) (name : String) (db : Db) : Option BuddySettingRow :=
  db.buddiesSettings.rows.find? fun r =>
    decide (r.userId = userId ∧ r.buddyId = buddyId ∧ r.var = name)

/-! ## Methods -/

/-- A statement that answers nothing. -/
def write (f : Db → Db) (db : Db) : Db × Unit := (f db, ())

/-- A statement that changes nothing. -/
def select {γ : Type} (f : Db → γ) (db : Db) : Db × γ := (db, f db)

/-- The result, which the code only logs, is whether the statement succeeds. -/
def setUser (k : Columns) (c : Config) (user : UserInfo) : Unit → Script Db Unit Bool :=
  Script.single (execSetUser k c user) fun _ ok => ((), ok)

def getAllSettings (id : Int) :
    (String → Option String) → Script Db (String → Option String) Unit :=
  Script.single (select fun db => db.usersSettingsOf id) fun settings rows =>
    (rows.foldl putSetting settings, ())

/-- The row as it is read. Any byte of the flag that is not zero makes a VIP. -/
def readUser (open_ : Undefined) (n : Nat) (r : UserRow) : UserInfo where
  id := r.id
  jid := r.jid
  uin := r.uin
  password := r.password
  language := r.language
  encoding := r.encoding
  vip := r.vip || open_.vipRest n

/-- The statement for VIPs overwrites the flag if it does not fail. -/
def askVip (c : Config) (barejid : String) (user : UserInfo) (ret : Bool) :
    Script Db UserInfo (Option Bool) :=
  match c.vipStatement with
  | none => .done user (some ret)
  | some ask => .once user (select fun _ => ask barejid) fun answer =>
    .done { user with vip := answer.join.getD user.vip } (some ret)

/-- The result is `none` if `decryptPassword` throws. -/
def getUser (c : Config) (open_ : Undefined) (barejid : String) (n : Nat) (user : UserInfo) :
    Script Db UserInfo (Option Bool) :=
  .exec user (select fun db => db.userRow barejid) fun row =>
    match row with
    | none => askVip c barejid user false
    | some r =>
      match c.unlock r.password with
      | none => .done (readUser open_ n r) none
      | some password => askVip c barejid { readUser open_ n r with password } true

def setUserOnline (id : Int) (online : Bool) : Unit → Script Db Unit Unit :=
  Script.single (write fun db => db.writeOnline id online) fun _ _ => ((), ())

/-- `getOnlineUsers`, `getUsers` and `getLegacyNetworkUsers` append a column to the list. -/
def getColumn (column : Db → List String) : List String → Script Db (List String) Bool :=
  Script.single (select column) fun users rows => (users ++ rows, true)

def getOnlineUsers : List String → Script Db (List String) Bool := getColumn Db.onlineUsers

def getUsers : List String → Script Db (List String) Bool := getColumn Db.jids

def getLegacyNetworkUsers : List String → Script Db (List String) Bool := getColumn Db.uins

/-- The result of the first statement is not looked at. An empty icon hash is not written. -/
def addBuddy (open_ : Undefined) (userId : Int) (info : BuddyInfo) (_ : Unit) :
    Script Db Unit Int :=
  .exec () (execAddBuddy open_.columns userId info) fun inserted =>
    let id := inserted.getD open_.insertId
    if info.iconHash = "" then .done () id
    else .exec () (write (execUpdateBuddySetting open_.columns (iconRow userId id info))) fun _ =>
      .done () id

def updateBuddySetting (k : Columns) (row : BuddySettingRow) : Unit → Script Db Unit Unit :=
  Script.single (write (execUpdateBuddySetting k row)) fun _ _ => ((), ())

def getBuddySetting (open_ : Undefined) (userId buddyId : Int) (name : String) :
    Int × String → Script Db (Int × String) Unit :=
  Script.single (select (buddySetting userId (open_.boundText buddyId) name)) fun out row =>
    (row.elim out fun r => (r.type, r.value), ())

def removeBuddy (id : Int) (_ : Unit) : Script Db Unit Unit :=
  .exec () (write fun db => db.deleteBuddy id) fun _ =>
    .exec () (write fun db => db.deleteBuddySettings id) fun _ => .done () ()

/-- The settings are not written. -/
def updateBuddy (k : Columns) (userId : Int) (info : BuddyInfo) : Unit → Script Db Unit Unit :=
  Script.single (write fun db => db.writeBuddy k userId info) fun _ _ => ((), ())

/-- The buddies are already in the list when the settings are asked for. -/
def getBuddies (id : Int) (roster : List BuddyInfo) : Script Db (List BuddyInfo) Bool :=
  .exec roster (select fun db => db.buddiesOf id) fun rows =>
    let roster := roster ++ rows.map readBuddy
    .exec roster (select fun db => db.buddiesSettingsOf id) fun settings =>
      .done (Cursor.attach { rest := settings } roster) true

def removeUser (id : Int) (_ : Unit) : Script Db Unit Bool :=
  .exec () (write fun db => db.deleteUser id) fun _ =>
    .exec () (write fun db => db.deleteUserSettings id) fun _ =>
      .exec () (write fun db => db.deleteUserBuddies id) fun _ =>
        .exec () (write fun db => db.deleteUserBuddiesSettings id) fun _ => .done () true

def getUserSetting (k : Columns) (id : Int) (name : String) (out : Int × String) :
    Script Db (Int × String) Unit :=
  .exec out (select fun db => db.userSetting id name) fun row =>
    match row with
    | none =>
      .exec out (write fun db => db.insertUserSetting k
        { userId := id, var := name, type := out.1, value := out.2 }) fun _ => .done out ()
    | some r => .done (r.type, r.value) ()

def updateUserSetting (k : Columns) (id : Int) (name value : String) :
    Unit → Script Db Unit Unit :=
  Script.single (write fun db => db.writeUserSetting k id name value) fun _ _ => ((), ())

end Spectrum.Storage.MySQL

namespace Spectrum.Storage

open Lib

/-- `MySQLBackend`, while the connection is not lost. -/
def mysql (c : Config) (open_ : MySQL.Undefined) : Backend where
  stored user := open_.columns.user (c.lockUser user)
  setUser user db :=
    let r := (MySQL.setUser open_.columns c user ()).finish db
    (r.1, r.2.2)
  getUser barejid db :=
    let user : UserInfo :=
      { jid := "", uin := "", password := [], language := "", encoding := "", vip := false }
    match (MySQL.getUser c open_ barejid 0 user).finish db with
    | (_, user, some true) => .found user
    | (_, _, some false) => .notFound
    | (_, _, none) => .throws
  setUserOnline id online db := ((MySQL.setUserOnline id online ()).finish db).1
  getOnlineUsers db := (MySQL.getOnlineUsers []).finish db |>.2.1
  getUsers db := (MySQL.getUsers []).finish db |>.2.1
  getLegacyNetworkUsers db := (MySQL.getLegacyNetworkUsers []).finish db |>.2.1
  addBuddy userId info db :=
    let r := (MySQL.addBuddy open_ userId info ()).finish db
    (r.1, r.2.2)
  updateBuddy userId info db := ((MySQL.updateBuddy open_.columns userId info ()).finish db).1
  removeBuddy id db := ((MySQL.removeBuddy id ()).finish db).1
  getBuddies id roster db := (MySQL.getBuddies id roster).finish db |>.2.1
  removeUser id db := ((MySQL.removeUser id ()).finish db).1
  getAllSettings id settings db := (MySQL.getAllSettings id settings).finish db |>.2.1
  getUserSetting id name out db :=
    let r := (MySQL.getUserSetting open_.columns id name out).finish db
    (r.1, r.2.1)
  updateUserSetting id name value db :=
    ((MySQL.updateUserSetting open_.columns id name value ()).finish db).1

end Spectrum.Storage
