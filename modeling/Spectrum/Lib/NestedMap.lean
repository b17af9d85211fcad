import Mathlib.Data.List.Nodup
import Spectrum.Lib.SortedMap

/-!
# Maps of maps

A `std::map` whose values are maps again, `m[k][i] = v`. Its owner removes an inner map when it is left
empty. What can be said about the values is said by `find`.

* `find_insert` and `find_remove`: an assignment and a removal concern one place;
* `nodup_values`: the values are listed once each when no value is at two places.
-/

namespace Spectrum.Lib

universe u v w

abbrev NestedMap (κ : Type u) (ι : Type v) (α : Type w) [LinearOrder κ] [LinearOrder ι] :=
  SortedMap κ (SortedMap ι α)

namespace NestedMap

variable {κ : Type u} {ι : Type v} {α : Type w} [LinearOrder κ] [LinearOrder ι]
  {m m' : NestedMap κ ι α} {k k' : κ} {i i' : ι} {v : α}

def find (m : NestedMap κ ι α) (k : κ) (i : ι) : Option α :=
  (m.get k).bind fun inner => inner.get i

/-- The assignment `m[k][i] = v`. -/
def insert (m : NestedMap κ ι α) (k : κ) (i : ι) (v : α) : NestedMap κ ι α :=
  m.set k (((m.get k).getD {}).set i v)

/-- `m[k].erase(i)`, and `m.erase(k)` when nothing is left of `m[k]`. -/
def remove (m : NestedMap κ ι α) (k : κ) (i : ι) : NestedMap κ ι α :=
  if (((m.get k).getD {}).erase i).entries = [] then m.erase k
  else m.set k (((m.get k).getD {}).erase i)

/-- No inner map is empty. -/
def Trimmed (m : NestedMap κ ι α) : Prop := ∀ k inner, m.get k = some inner → inner.entries ≠ []

/-- The values in a list of entries, in the order in which two nested loops meet them. -/
def valuesOf (l : List (κ × SortedMap ι α)) : List α := l.flatMap fun e => e.2.entries.map Prod.snd

def values (m : NestedMap κ ι α) : List α := valuesOf m.entries

@[simp]
theorem find_empty (k : κ) (i : ι) : find ({} : NestedMap κ ι α) k i = none := rfl

theorem trimmed_empty : Trimmed ({} : NestedMap κ ι α) := by
  intro k inner h
  cases h

theorem find_eq_some_iff : m.find k i = some v ↔ ∃ inner, m.get k = some inner ∧ inner.get i = some v :=
  Option.bind_eq_some_iff

theorem getD_get : ((m.get k).getD {}).get i = m.find k i := by
  unfold find
  cases m.get k with
  | none => rfl
  | some inner => rfl

theorem find_insert : (m.insert k i v).find k' i' = if k' = k ∧ i' = i then some v else m.find k' i' := by
  rw [find, insert, SortedMap.get_set]
  by_cases hk : k' = k
  · subst hk
    rw [if_pos rfl, Option.bind_some, SortedMap.get_set, getD_get]
    simp
  · rw [if_neg hk, if_neg fun h => hk h.1]
    rfl

theorem get_of_entries_eq_nil {inner : SortedMap ι α} (h : inner.entries = []) (i : ι) :
    inner.get i = none := by
  unfold SortedMap.get
  rw [h]
  rfl

theorem find_remove : (m.remove k i).find k' i' = if k' = k ∧ i' = i then none else m.find k' i' := by
  have herase : (((m.get k).getD {}).erase i).get i' = if i' = i then none else m.find k i' := by
    rw [SortedMap.get_erase, getD_get]
  unfold remove
  split
  · rename_i hempty
    rw [get_of_entries_eq_nil hempty] at herase
    by_cases hk : k' = k
    · subst hk
      rw [find, SortedMap.get_erase_self, Option.bind_none]
      simpa only [true_and] using herase
    · rw [find, SortedMap.get_erase_of_ne hk, if_neg fun h => hk h.1]
      rfl
  · by_cases hk : k' = k
    · subst hk
      rw [find, SortedMap.get_set_self, Option.bind_some, herase]
      simp
    · rw [find, SortedMap.get_set_of_ne hk, if_neg fun h => hk h.1]
      rfl

theorem entries_ne_nil {inner : SortedMap ι α} (h : inner.get i = some v) : inner.entries ≠ [] := by
  intro hnil
  rw [get_of_entries_eq_nil hnil] at h
  cases h

theorem exists_get {inner : SortedMap ι α} (h : inner.entries ≠ []) : ∃ i v, inner.get i = some v := by
  obtain ⟨e, he⟩ := List.exists_mem_of_ne_nil _ h
  exact ⟨e.1, e.2, SortedMap.mem_entries_iff.mp he⟩

theorem Trimmed.isSome_get (h : m.Trimmed) : (m.get k).isSome ↔ ∃ i v, m.find k i = some v := by
  constructor
  · intro hk
    obtain ⟨inner, hinner⟩ := Option.isSome_iff_exists.mp hk
    obtain ⟨i, v, hv⟩ := exists_get (h k inner hinner)
    exact ⟨i, v, find_eq_some_iff.mpr ⟨inner, hinner, hv⟩⟩
  · rintro ⟨i, v, hv⟩
    obtain ⟨inner, hinner, -⟩ := find_eq_some_iff.mp hv
    rw [hinner]
    rfl

theorem Trimmed.insert (h : m.Trimmed) : (m.insert k i v).Trimmed := by
  intro k' inner hinner
  rw [NestedMap.insert, SortedMap.get_set] at hinner
  split at hinner
  · cases hinner
    exact entries_ne_nil (SortedMap.get_set_self _ i v)
  · exact h k' inner hinner

theorem Trimmed.remove (h : m.Trimmed) : (m.remove k i).Trimmed := by
  intro k' inner hinner
  unfold NestedMap.remove at hinner
  split at hinner
  · rw [SortedMap.get_erase] at hinner
    split at hinner
    · cases hinner
    · exact h k' inner hinner
  · rename_i hleft
    rw [SortedMap.get_set] at hinner
    split at hinner
    · cases hinner
      exact hleft
    · exact h k' inner hinner

/-! ## The values -/

theorem mem_entries_find {inner : SortedMap ι α} (h : (k, inner) ∈ m.entries) :
    (i, v) ∈ inner.entries ↔ m.find k i = some v := by
  rw [SortedMap.mem_entries_iff, find, SortedMap.mem_entries_iff.mp h]
  rfl

theorem mem_values : v ∈ m.values ↔ ∃ k i, m.find k i = some v := by
  constructor
  · intro hv
    obtain ⟨⟨k, inner⟩, he, hv⟩ := List.mem_flatMap.mp hv
    obtain ⟨⟨i, w⟩, hi, rfl⟩ := List.mem_map.mp hv
    exact ⟨k, i, (mem_entries_find he).mp hi⟩
  · rintro ⟨k, i, h⟩
    obtain ⟨inner, hinner, hv⟩ := find_eq_some_iff.mp h
    exact List.mem_flatMap.mpr ⟨(k, inner), SortedMap.mem_entries_iff.mpr hinner,
      List.mem_map.mpr ⟨(i, v), SortedMap.mem_entries_iff.mpr hv, rfl⟩⟩

/-- No value is at two places. -/
def Injective (m : NestedMap κ ι α) : Prop :=
  ∀ k i k' i' v, m.find k i = some v → m.find k' i' = some v → k = k' ∧ i = i'

theorem Injective.nodup_inner (h : m.Injective) {inner : SortedMap ι α} (hinner : (k, inner) ∈ m.entries) :
    (inner.entries.map Prod.snd).Nodup := by
  refine List.Nodup.map_on ?_ ?_
  · rintro ⟨i, v⟩ hi ⟨i', w⟩ hi' rfl
    rw [(h _ _ _ _ _ ((mem_entries_find hinner).mp hi) ((mem_entries_find hinner).mp hi')).2]
  · exact List.Pairwise.imp (fun hlt heq => hlt.ne (congrArg Prod.fst heq)) inner.sorted

theorem Injective.nodup_values (h : m.Injective) : m.values.Nodup := by
  refine List.nodup_flatMap.mpr ⟨fun e he => h.nodup_inner he, ?_⟩
  refine List.Pairwise.imp_of_mem ?_ m.sorted
  intro e e' he he' hlt v hv hv'
  obtain ⟨⟨i, w⟩, hi, rfl⟩ := List.mem_map.mp hv
  obtain ⟨⟨i', w'⟩, hi', heq⟩ := List.mem_map.mp hv'
  dsimp only at heq
  subst heq
  exact hlt.ne (h _ _ _ _ _ ((mem_entries_find he).mp hi) ((mem_entries_find he').mp hi')).1

end NestedMap

end Spectrum.Lib
