import Spectrum.Lib.Column
import Spectrum.Storage.Tables

/-!
# What the columns take

The columns that `createDatabase` makes have widths, which SQLite ignores. PostgreSQL refuses a text
that is too long, unless only spaces are too much, which it cuts. MySQL refuses it or cuts it, as its
mode says, and does the same with characters that take four bytes. The libraries of all three read
texts as C strings, which end at a NUL.
-/

namespace Spectrum.Storage

open Lib Wire

/-- The columns of `createDatabase`: texts by their widths, the passwords, which are texts of 255
characters, the flags of the buddies and the types of the settings. -/
structure Columns where
  varchar : Nat → Column String
  password : Column Bytes
  flags : Column Int
  type : Column Int

namespace Columns

variable (k : Columns)

/-- What `users` gets. -/
def user (user : UserInfo) : Option UserInfo := do
  let jid ← (k.varchar 255).store user.jid
  let uin ← (k.varchar 4095).store user.uin
  let password ← k.password.store user.password
  let language ← (k.varchar 25).store user.language
  let encoding ← (k.varchar 50).store user.encoding
  return { user with jid, uin, password, language, encoding }

/-- What the columns of `buddies` get that are updated. -/
def details (row : BuddyRow) : Option BuddyRow := do
  let nickname ← (k.varchar 255).store row.nickname
  let groups ← (k.varchar 255).store row.groups
  let flags ← k.flags.store row.flags
  return { row with nickname, groups, flags }

/-- What `buddies` gets. -/
def buddy (row : BuddyRow) : Option BuddyRow := do
  let uin ← (k.varchar 255).store row.uin
  k.details { row with uin }

/-- What `buddies_settings` gets. -/
def buddySetting (row : BuddySettingRow) : Option BuddySettingRow := do
  let var ← (k.varchar 50).store row.var
  let type ← k.type.store row.type
  let value ← (k.varchar 255).store row.value
  return { row with var, type, value }

/-- What `users_settings` gets. -/
def userSetting (row : UserSettingRow) : Option UserSettingRow := do
  let var ← (k.varchar 50).store row.var
  let type ← k.type.store row.type
  let value ← (k.varchar 255).store row.value
  return { row with var, type, value }

/-! ## Rows that are taken as they are -/

def TakesUser (user : UserInfo) : Prop :=
  (k.varchar 255).Takes user.jid ∧ (k.varchar 4095).Takes user.uin ∧
    k.password.Takes user.password ∧ (k.varchar 25).Takes user.language ∧
    (k.varchar 50).Takes user.encoding

def TakesDetails (row : BuddyRow) : Prop :=
  (k.varchar 255).Takes row.nickname ∧ (k.varchar 255).Takes row.groups ∧
    k.flags.Takes row.flags

def TakesBuddy (row : BuddyRow) : Prop := (k.varchar 255).Takes row.uin ∧ k.TakesDetails row

def TakesBuddySetting (row : BuddySettingRow) : Prop :=
  (k.varchar 50).Takes row.var ∧ k.type.Takes row.type ∧ (k.varchar 255).Takes row.value

instance (user : UserInfo) : Decidable (k.TakesUser user) :=
  inferInstanceAs (Decidable (_ ∧ _ ∧ _ ∧ _ ∧ _))

instance (row : BuddyRow) : Decidable (k.TakesDetails row) :=
  inferInstanceAs (Decidable (_ ∧ _ ∧ _))

instance (row : BuddyRow) : Decidable (k.TakesBuddy row) := inferInstanceAs (Decidable (_ ∧ _))

instance (row : BuddySettingRow) : Decidable (k.TakesBuddySetting row) :=
  inferInstanceAs (Decidable (_ ∧ _ ∧ _))

variable {k}

theorem user_of_takes {user : UserInfo} (h : k.TakesUser user) : k.user user = some user := by
  obtain ⟨hjid, huin, hpassword, hlanguage, hencoding⟩ := h
  simp [Columns.user, Column.store_of_takes, hjid, huin, hpassword, hlanguage, hencoding]

theorem details_of_takes {row : BuddyRow} (h : k.TakesDetails row) : k.details row = some row := by
  obtain ⟨hnickname, hgroups, hflags⟩ := h
  simp [details, Column.store_of_takes, hnickname, hgroups, hflags]

theorem buddy_of_takes {row : BuddyRow} (h : k.TakesBuddy row) : k.buddy row = some row := by
  simp [buddy, Column.store_of_takes h.1, details_of_takes h.2]

theorem buddySetting_of_takes {row : BuddySettingRow} (h : k.TakesBuddySetting row) :
    k.buddySetting row = some row := by
  obtain ⟨hvar, htype, hvalue⟩ := h
  simp [buddySetting, Column.store_of_takes, hvar, htype, hvalue]

/-- Where each part of a row of `users` comes from. -/
structure Writes (k : Columns) (user row : UserInfo) : Prop where
  jid : (k.varchar 255).store user.jid = some row.jid
  uin : (k.varchar 4095).store user.uin = some row.uin
  password : k.password.store user.password = some row.password
  language : (k.varchar 25).store user.language = some row.language
  encoding : (k.varchar 50).store user.encoding = some row.encoding
  id : row.id = user.id
  vip : row.vip = user.vip

theorem user_eq_some {user row : UserInfo} (h : k.user user = some row) : k.Writes user row := by
  unfold Columns.user at h
  obtain ⟨jid, hjid, h⟩ := Option.bind_eq_some_iff.mp h
  obtain ⟨uin, huin, h⟩ := Option.bind_eq_some_iff.mp h
  obtain ⟨password, hpassword, h⟩ := Option.bind_eq_some_iff.mp h
  obtain ⟨language, hlanguage, h⟩ := Option.bind_eq_some_iff.mp h
  obtain ⟨encoding, hencoding, h⟩ := Option.bind_eq_some_iff.mp h
  cases h
  exact ⟨hjid, huin, hpassword, hlanguage, hencoding, rfl, rfl⟩

/-- The rest of a row of `buddies` is written as it is. -/
theorem details_eq_some {row row' : BuddyRow} (h : k.details row = some row') :
    row'.id = row.id ∧ row'.userId = row.userId ∧ row'.uin = row.uin ∧
      row'.subscription = row.subscription := by
  unfold details at h
  obtain ⟨nickname, -, h⟩ := Option.bind_eq_some_iff.mp h
  obtain ⟨groups, -, h⟩ := Option.bind_eq_some_iff.mp h
  obtain ⟨flags, -, h⟩ := Option.bind_eq_some_iff.mp h
  cases h
  exact ⟨rfl, rfl, rfl, rfl⟩

/-- Where each part of a row of `users_settings` comes from. -/
structure WritesSetting (k : Columns) (setting row : UserSettingRow) : Prop where
  userId : row.userId = setting.userId
  var : (k.varchar 50).store setting.var = some row.var
  type : k.type.store setting.type = some row.type
  value : (k.varchar 255).store setting.value = some row.value

theorem userSetting_eq_some {setting row : UserSettingRow} (h : k.userSetting setting = some row) :
    k.WritesSetting setting row := by
  unfold userSetting at h
  obtain ⟨var, hvar, h⟩ := Option.bind_eq_some_iff.mp h
  obtain ⟨type, htype, h⟩ := Option.bind_eq_some_iff.mp h
  obtain ⟨value, hvalue, h⟩ := Option.bind_eq_some_iff.mp h
  cases h
  exact ⟨rfl, hvar, htype, hvalue⟩

end Columns

/-! ## Texts -/

/-- What is in front of the first NUL. -/
def cString (s : String) : String := String.ofList (s.toList.takeWhile fun c => c != '\x00')

theorem not_mem_cString (s : String) : '\x00' ∉ (cString s).toList := by
  rw [cString, String.toList_ofList]
  intro h
  have hbefore := List.all_eq_true.mp List.all_takeWhile _ h
  exact absurd rfl (bne_iff_ne.mp hbefore)

/-- The text that the bytes of a password are. -/
def textOf (password : Bytes) : Option String := String.fromUTF8? ⟨password.toArray⟩

theorem textOf_toUTF8 (s : String) : textOf s.toUTF8.data.toList = some s := by
  have hvalid : s.toUTF8.IsValidUTF8 := s.isValidUTF8
  exact dif_pos hvalid

/-! ## The databases -/

/-- The columns of SQLite. -/
def SQLite3.columns : Columns where
  varchar _ :=
    { Takes := fun s => '\x00' ∉ s.toList
      decTakes := fun s => inferInstanceAs (Decidable ('\x00' ∉ s.toList))
      instead := fun s => some (cString s)
      takes_instead := fun s t h => Option.some.inj h ▸ not_mem_cString s }
  password :=
    { Takes := fun p => 0 ∉ p
      decTakes := fun p => inferInstanceAs (Decidable (0 ∉ p))
      instead := fun p => some (p.takeWhile fun c => c != 0)
      takes_instead := fun p q h hmem => by
        rw [← Option.some.inj h] at hmem
        have hbefore := List.all_eq_true.mp List.all_takeWhile _ hmem
        exact absurd rfl (bne_iff_ne.mp hbefore) }
  flags := .all
  type := .all

/-- A `smallint` has two bytes. -/
def Smallint (n : Int) : Prop := -32768 ≤ n ∧ n ≤ 32767

def UnsignedSmallint (n : Int) : Prop := 0 ≤ n ∧ n ≤ 65535

instance (n : Int) : Decidable (Smallint n) := inferInstanceAs (Decidable (_ ∧ _))

instance (n : Int) : Decidable (UnsignedSmallint n) := inferInstanceAs (Decidable (_ ∧ _))

namespace PQXX

/-- `varchar(n)` of PostgreSQL. -/
def varchar (n : Nat) : Column String where
  Takes s := '\x00' ∉ s.toList ∧ s.length ≤ n
  decTakes s := inferInstanceAs (Decidable ('\x00' ∉ s.toList ∧ s.length ≤ n))
  instead s :=
    let s := cString s
    if s.length ≤ n then some s
    else if (s.toList.drop n).all (· == ' ') then some (String.ofList (s.toList.take n))
    else none
  takes_instead s t h := by
    have hnul := not_mem_cString s
    simp only at h
    split at h
    · rename_i hle
      exact Option.some.inj h ▸ ⟨hnul, hle⟩
    · split at h
      · rw [← Option.some.inj h, String.toList_ofList, String.length_ofList]
        exact ⟨fun hmem => hnul (List.mem_of_mem_take hmem), List.length_take_le _ _⟩
      · cases h

def smallint : Column Int where
  Takes := Smallint
  decTakes := inferInstance
  instead _ := none
  takes_instead := nofun

/-- The columns of PostgreSQL. -/
def columns : Columns where
  varchar := varchar
  password :=
    { Takes := fun p => ∃ s ∈ textOf p, (varchar 255).Takes s
      decTakes := fun p => inferInstanceAs (Decidable (∃ s ∈ textOf p, (varchar 255).Takes s))
      instead := fun p => (textOf p).bind fun s =>
        ((varchar 255).instead s).map fun s => s.toUTF8.data.toList
      takes_instead := fun p q h => by
        obtain ⟨s, -, h⟩ := Option.bind_eq_some_iff.mp h
        obtain ⟨t, ht, rfl⟩ := Option.map_eq_some_iff.mp h
        exact ⟨t, textOf_toUTF8 t, (varchar 255).takes_instead s t ht⟩ }
  flags := smallint
  type := smallint

end PQXX

namespace MySQL

/-- What a column of `n` characters takes. The characters of `utf8` have three bytes at most, and a
text with its NUL has to fit into the buffer that it is read into. -/
def Fits (n : Nat) (s : String) : Prop :=
  s.length ≤ n ∧ s.utf8ByteSize < 4096 ∧ ∀ c ∈ s.toList, c ≠ '\x00' ∧ c.toNat < 65536

instance (n : Nat) (s : String) : Decidable (Fits n s) :=
  have : Decidable (∀ c ∈ s.toList, c ≠ '\x00' ∧ c.toNat < 65536) := List.decidableBAll _ _
  inferInstanceAs (Decidable (_ ∧ _ ∧ _))

/-- What MySQL makes of a value that a column does not take: nothing if its mode is strict, some other
value if it is not. -/
structure Mode where
  text : Nat → String → Option String := fun _ _ => none
  password : Bytes → Option Bytes := fun _ => none
  flags : Int → Option Int := fun _ => none
  type : Int → Option Int := fun _ => none
  fits_text : ∀ n s t, text n s = some t → Fits n t := by exact nofun
  fits_password : ∀ p q, password p = some q → ∃ s ∈ textOf q, Fits 255 s := by exact nofun
  fits_flags : ∀ n m, flags n = some m → Smallint m := by exact nofun
  fits_type : ∀ n m, type n = some m → UnsignedSmallint m := by exact nofun

/-- The strict mode. -/
def Mode.strict : Mode := {}

/-- The columns of MySQL. -/
def columns (mode : Mode) : Columns where
  varchar n :=
    { Takes := Fits n
      decTakes := inferInstance
      instead := mode.text n
      takes_instead := mode.fits_text n }
  password :=
    { Takes := fun p => ∃ s ∈ textOf p, Fits 255 s
      decTakes := fun p => inferInstanceAs (Decidable (∃ s ∈ textOf p, Fits 255 s))
      instead := mode.password
      takes_instead := mode.fits_password }
  flags :=
    { Takes := Smallint
      decTakes := inferInstance
      instead := mode.flags
      takes_instead := mode.fits_flags }
  type :=
    { Takes := UnsignedSmallint
      decTakes := inferInstance
      instead := mode.type
      takes_instead := mode.fits_type }

end MySQL

end Spectrum.Storage
