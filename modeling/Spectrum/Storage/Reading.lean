import Spectrum.Storage.PQXX

/-!
# The settings find their buddies

SQLite and MySQL walk through the buddies and the settings side by side, both in the order of the
ids. PostgreSQL looks for the buddy of every setting. If every setting is an icon hash and has a
buddy, both ways give every buddy his own.
-/

namespace Spectrum.Storage

open Lib

/-- What is compared of a buddy. -/
structure BuddyRecord where
  id : Int
  legacyName : String
  aliasName : String
  groups : List String
  flags : Int
  subscription : String
  iconHash : String
  deriving DecidableEq, Repr

/-- A buddy without an icon hash in the settings has the empty one. -/
def BuddyInfo.record (b : BuddyInfo) : BuddyRecord where
  id := b.id
  legacyName := b.legacyName
  aliasName := b.aliasName
  groups := b.groups
  flags := b.flags
  subscription := b.subscription
  iconHash := b.iconHash

/-- The rows are icon hashes of different buddies, in the order of the buddies. -/
structure Icons (settings : List BuddySettingRow) : Prop where
  icon : ∀ r ∈ settings, r.var = "icon_hash" ∧ r.type = typeString
  sorted : settings.Pairwise fun r s => r.buddyId < s.buddyId

section Icons

variable {settings : List BuddySettingRow} {r : BuddySettingRow} {id : Int} {b : BuddyInfo}

theorem Icons.tail (h : Icons (r :: settings)) : Icons settings :=
  ⟨fun s hs => h.icon s (List.mem_cons_of_mem _ hs), (List.pairwise_cons.mp h.sorted).2⟩

end Icons

/-! ## Side by side -/

namespace Cursor

/-- The rows that are still to be given away, together with the one that is waiting. -/
def Waits (c : Cursor) (settings : List BuddySettingRow) : Prop :=
  c.buddyId = -1 ∧ c.rest = settings ∨
    ∃ r, settings = r :: c.rest ∧ c.buddyId = r.buddyId ∧ c.key = r.var ∧ c.var.s = r.value

variable {b : BuddyInfo} {var : SettingVariableInfo} {buddyId : Int} {key : String}
  {settings : List BuddySettingRow} {r : BuddySettingRow}

/-- Nothing is fetched while a row is waiting. -/
theorem fetch_of_ne (h : buddyId ≠ -1) :
    fetch b var buddyId key settings = (b, { var, buddyId, key, rest := settings }) := by
  cases settings with
  | nil => rfl
  | cons r rest => rw [fetch, if_neg h]

end Cursor

/-! ## One by one -/

namespace PQXX

variable {settings : List BuddySettingRow} {bs : List BuddyInfo}

theorem giveSetting_eq_map {r : BuddySettingRow} (htypes : r.type = typeBoolean ∨ r.type = typeString)
    (hsorted : bs.Pairwise fun b b' => b.id < b'.id) :
    giveSetting bs r = bs.map fun b =>
      if r.buddyId = b.id then b.setSetting r.var (SettingVariableInfo.read {} r) else b := by
  induction bs with
  | nil => rw [giveSetting, if_pos htypes, List.map_nil]
  | cons b bs ih =>
    obtain ⟨hlt, hsorted⟩ := List.pairwise_cons.mp hsorted
    rw [giveSetting, if_pos htypes, List.map_cons]
    by_cases hown : r.buddyId = b.id
    · rw [if_pos hown, if_pos hown]
      refine congrArg _ ((List.map_id bs).symm.trans (List.map_congr_left fun b' hb' => ?_))
      rw [if_neg (by rw [hown]; exact Int.ne_of_lt (hlt b' hb'))]
      rfl
    · rw [if_neg hown, if_neg hown, ih hsorted]

end PQXX

end Spectrum.Storage
