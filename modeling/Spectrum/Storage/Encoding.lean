import Spectrum.Lib.Base64
import Spectrum.Storage.Tables

/-!
# Passwords and groups in columns

The static functions of `StorageBackend`. A password can lose its end in the database and a list of
groups can come back changed.
-/

namespace Spectrum.Storage

open Lib Wire

/-! ## Passwords -/

/-- The byte of the key for position `i`. -/
def keychar (key : Bytes) (i : Nat) : UInt8 := key.getD (i % key.length) 0

/-- `StorageBackend::encryptPassword` before the base64 encoding. -/
def addKey (password key : Bytes) : Bytes := password.mapIdx fun i c => c + keychar key i

/-- `StorageBackend::encryptPassword`. -/
def encryptPassword (password key : Bytes) : Bytes := Base64.encode (addKey password key)

/-- `StorageBackend::decryptPassword`. `base64Decode` throws an exception at a character that is not
one of base64, and trims the zero bytes at the end. -/
def decryptPassword (encrypted key : Bytes) : Option Bytes := do
  let encrypted ← Base64.decode encrypted
  return (Base64.trimZeros encrypted).mapIdx fun i c => c - keychar key i

/-- The password is stored with a key under which its last byte does not become zero, or as it is. -/
def PasswordSurvives (password key : Bytes) : Prop :=
  key = [] ∨ (addKey password key).getLast? ≠ some 0

instance (password key : Bytes) : Decidable (PasswordSurvives password key) :=
  inferInstanceAs (Decidable (_ ∨ _))

theorem addKey_length (password key : Bytes) : (addKey password key).length = password.length :=
  List.length_mapIdx

theorem mapIdx_sub_addKey (password key : Bytes) :
    ((addKey password key).mapIdx fun i c => c - keychar key i) = password := by
  rw [addKey, List.mapIdx_mapIdx]
  refine List.ext_getElem (by rw [List.length_mapIdx]) fun i hi hi' => ?_
  rw [List.getElem_mapIdx]
  exact UInt8.add_sub_cancel _ _

theorem decryptPassword_encryptPassword (password key : Bytes) :
    decryptPassword (encryptPassword password key) key =
      some ((Base64.trimZeros (addKey password key)).mapIdx fun i c => c - keychar key i) := by
  rw [decryptPassword, encryptPassword, Base64.decode_encode]
  simp only [Option.bind_eq_bind, Option.bind_some, Option.pure_def,
    Base64.trimZeros_append_replicate]

/-- The password is read back unless its last encrypted byte is zero. -/
theorem decryptPassword_encryptPassword_eq_iff (password key : Bytes) :
    decryptPassword (encryptPassword password key) key = some password ↔
      (addKey password key).getLast? ≠ some 0 := by
  rw [decryptPassword_encryptPassword, ← Base64.trimZeros_eq_self_iff]
  constructor
  · intro h
    have hlen := congrArg List.length (Option.some.inj h)
    rw [List.length_mapIdx, ← addKey_length password key] at hlen
    exact (Base64.trimZeros_prefix _).eq_of_length hlen
  · intro h
    rw [h, mapIdx_sub_addKey]

/-- The byte before the encryption and its byte of the key decide about the end of the password. -/
theorem decryptPassword_encryptPassword_eq_some_iff (password key : Bytes) :
    decryptPassword (encryptPassword password key) key = some password ↔
      ∀ c ∈ password.getLast?, c + keychar key (password.length - 1) ≠ 0 := by
  rw [decryptPassword_encryptPassword_eq_iff, addKey, List.getLast?_mapIdx]
  cases password.getLast? with
  | none => simp
  | some c => simp

/-- A password with the byte 255 at its end under a key with the byte 1 there. -/
theorem decryptPassword_encryptPassword_ne :
    ¬ ∀ password key : Bytes, key ≠ [] →
      decryptPassword (encryptPassword password key) key = some password := by
  intro h
  have hread := h [97, 255] [1] (by decide)
  rw [decryptPassword_encryptPassword_eq_iff] at hread
  exact hread (by decide)

/-- The options of the section `database` that the backends read. The statement for VIPs asks tables
that are not those of Spectrum; it fails or finds rows or not. -/
structure Config where
  encryptionKey : Bytes := []
  vipStatement : Option (String → Option Bool) := none

namespace Config

variable (c : Config)

/-- The password as MySQL and PostgreSQL store it. -/
def lock (password : Bytes) : Bytes :=
  if c.encryptionKey = [] then password else encryptPassword password c.encryptionKey

def lockUser (user : UserInfo) : UserInfo := { user with password := c.lock user.password }

/-- The password as MySQL and PostgreSQL read it. -/
def unlock (password : Bytes) : Option Bytes :=
  if c.encryptionKey = [] then some password else decryptPassword password c.encryptionKey

theorem unlock_lock_eq_iff (password : Bytes) :
    c.unlock (c.lock password) = some password ↔ PasswordSurvives password c.encryptionKey := by
  by_cases hkey : c.encryptionKey = []
  · simp [unlock, lock, PasswordSurvives, hkey]
  · simp only [unlock, lock, PasswordSurvives, hkey, false_or]
    exact decryptPassword_encryptPassword_eq_iff password c.encryptionKey

end Config

/-! ## Groups -/

/-- `StorageBackend::serializeGroups`: a newline after every group, without the last newline. -/
def serializeGroups (groups : List String) : String :=
  String.ofList (groups.flatMap fun g => g.toList ++ ['\n']).dropLast

/-- `StorageBackend::deserializeGroups`. -/
def deserializeGroups (groups : String) : List String :=
  if groups = "" then []
  else
    let ret := groups.toList.splitOn '\n'
    (if ret.getLast? = some [] then ret.dropLast else ret).map String.ofList

/-- No group has a newline and the last one is not empty. -/
def GroupsSurvive (groups : List String) : Prop :=
  (∀ g ∈ groups, '\n' ∉ g.toList) ∧ groups.getLast? ≠ some ""

instance (groups : List String) : Decidable (GroupsSurvive groups) :=
  inferInstanceAs (Decidable (_ ∧ _))

theorem dropLast_flatMap_eq_intercalate (ls : List (List Char)) :
    (ls.flatMap fun l => l ++ ['\n']).dropLast = ['\n'].intercalate ls := by
  induction ls with
  | nil => rfl
  | cons l ls ih =>
    cases ls with
    | nil => simp
    | cons l' ls =>
      rw [List.flatMap_cons, List.dropLast_append_of_ne_nil (by simp), ih,
        List.intercalate_cons_cons]

theorem serializeGroups_toList (groups : List String) :
    (serializeGroups groups).toList = ['\n'].intercalate (groups.map String.toList) := by
  rw [serializeGroups, String.toList_ofList, ← dropLast_flatMap_eq_intercalate, List.flatMap_map]

theorem splitOn_serializeGroups {groups : List String}
    (hnewline : ∀ g ∈ groups, '\n' ∉ g.toList) (hnil : groups ≠ []) :
    (serializeGroups groups).toList.splitOn '\n' = groups.map String.toList := by
  rw [serializeGroups_toList]
  refine List.splitOn_intercalate _ ?_ (by simpa using hnil)
  intro l hl
  obtain ⟨g, hg, rfl⟩ := List.mem_map.mp hl
  exact hnewline g hg

theorem deserializeGroups_serializeGroups {groups : List String} (h : GroupsSurvive groups) :
    deserializeGroups (serializeGroups groups) = groups := by
  by_cases hnil : groups = []
  · subst hnil
    rfl
  have hsplit := splitOn_serializeGroups h.1 hnil
  have hlast : (groups.map String.toList).getLast? ≠ some [] := by
    rw [List.getLast?_map]
    intro heq
    obtain ⟨g, hg, hempty⟩ := Option.map_eq_some_iff.mp heq
    rw [String.toList_eq_nil_iff] at hempty
    exact h.2 (hempty ▸ hg)
  have hne : serializeGroups groups ≠ "" := by
    intro hempty
    rw [hempty] at hsplit
    rw [← hsplit] at hlast
    exact hlast rfl
  rw [deserializeGroups, if_neg hne, hsplit]
  simp only [if_neg hlast, List.map_map]
  refine (List.map_congr_left fun g _ => ?_).trans (List.map_id groups)
  exact String.ofList_toList

/-- An empty name at the end is lost. -/
theorem deserializeGroups_serializeGroups_length {groups : List String}
    (hnewline : ∀ g ∈ groups, '\n' ∉ g.toList) (hlast : groups.getLast? = some "") :
    (deserializeGroups (serializeGroups groups)).length < groups.length := by
  have hnil : groups ≠ [] := by
    intro hnil
    rw [hnil] at hlast
    simp at hlast
  have hpos := List.length_pos_iff.mpr hnil
  by_cases hempty : serializeGroups groups = ""
  · rw [deserializeGroups, if_pos hempty]
    exact hpos
  · have hend : (groups.map String.toList).getLast? = some [] := by
      rw [List.getLast?_map, hlast]
      rfl
    rw [deserializeGroups, if_neg hempty, splitOn_serializeGroups hnewline hnil]
    simp only [if_pos hend, List.length_map, List.length_dropLast]
    omega

/-- A list of groups comes back unless its last name is empty. -/
theorem deserializeGroups_serializeGroups_eq_iff {groups : List String}
    (hnewline : ∀ g ∈ groups, '\n' ∉ g.toList) :
    deserializeGroups (serializeGroups groups) = groups ↔ groups.getLast? ≠ some "" := by
  constructor
  · intro h hlast
    have hshorter := deserializeGroups_serializeGroups_length hnewline hlast
    rw [h] at hshorter
    exact absurd hshorter (Nat.lt_irrefl _)
  · intro hlast
    exact deserializeGroups_serializeGroups ⟨hnewline, hlast⟩

theorem deserializeGroups_serializeGroups_friends :
    deserializeGroups (serializeGroups ["", "friends"]) = ["", "friends"] ↔
      ["", "friends"].getLast? ≠ some "" :=
  deserializeGroups_serializeGroups_eq_iff (by decide)

theorem deserializeGroups_serializeGroups_ne :
    ¬ ∀ groups : List String, (∀ g ∈ groups, '\n' ∉ g.toList) →
      deserializeGroups (serializeGroups groups) = groups := by
  intro h
  have hplain : ∀ g ∈ ["friends", ""], '\n' ∉ g.toList := by decide
  have hread := h _ hplain
  have hshorter := deserializeGroups_serializeGroups_length hplain rfl
  rw [hread] at hshorter
  exact absurd hshorter (Nat.lt_irrefl _)

end Spectrum.Storage
