import Spectrum.Lib.Sorted

/-!
# Sorted maps

A `std::map`: the entries are in the order of their keys and every key occurs once. What can be said
about a map is said by `get`.
-/

namespace Spectrum.Lib

universe u v

theorem sortedBy_nil (κ : Type u) (α : Type v) [LinearOrder κ] :
    SortedBy Prod.fst ([] : List (κ × α)) := List.Pairwise.nil

structure SortedMap (κ : Type u) (α : Type v) [LinearOrder κ] where
  entries : List (κ × α) := []
  sorted : SortedBy Prod.fst entries := by exact sortedBy_nil _ _

namespace SortedMap

variable {κ : Type u} {α : Type v} [LinearOrder κ] {k k' : κ} {v : α} {m : SortedMap κ α}

/-- The map without entries. -/
def empty : SortedMap κ α := {}

def get (m : SortedMap κ α) (k : κ) : Option α :=
  (m.entries.find? fun e => decide (e.1 = k)).map Prod.snd

/-- The assignment `m[k] = v`. -/
def set (m : SortedMap κ α) (k : κ) (v : α) : SortedMap κ α :=
  ⟨upsert Prod.fst (k, v) m.entries, m.sorted.upsert (k, v)⟩

def erase (m : SortedMap κ α) (k : κ) : SortedMap κ α :=
  ⟨m.entries.filter fun e => decide (e.1 ≠ k), m.sorted.filter _⟩

theorem mem_entries_iff : (k, v) ∈ m.entries ↔ m.get k = some v := by
  constructor
  · intro h
    cases hfind : m.entries.find? fun e => decide (e.1 = k) with
    | none =>
      rw [List.find?_eq_none] at hfind
      exact absurd (decide_eq_true rfl) (hfind (k, v) h)
    | some e =>
      have he := List.mem_of_find?_eq_some hfind
      have hkey : e.1 = k := by simpa using List.find?_some hfind
      rw [get, hfind, m.sorted.eq_of_key he h hkey]
      rfl
  · intro h
    obtain ⟨e, hfind, rfl⟩ := Option.map_eq_some_iff.mp h
    have hkey : e.1 = k := by simpa using List.find?_some hfind
    rw [← hkey]
    exact List.mem_of_find?_eq_some hfind

theorem get_ext {m' : SortedMap κ α} (h : ∀ v, (k, v) ∈ m'.entries ↔ (k', v) ∈ m.entries) :
    m'.get k = m.get k' := by
  refine Option.ext fun v => ?_
  rw [← mem_entries_iff, h v, mem_entries_iff]

@[simp]
theorem get_empty (k : κ) : ({} : SortedMap κ α).get k = none := rfl

theorem get_set (m : SortedMap κ α) (k : κ) (v : α) (k' : κ) :
    (m.set k v).get k' = if k' = k then some v else m.get k' := by
  split
  · rename_i hkey
    rw [← mem_entries_iff, hkey]
    exact (mem_upsert m.sorted).mpr (Or.inl rfl)
  · rename_i hkey
    refine get_ext fun w => (mem_upsert m.sorted).trans ?_
    constructor
    · rintro (heq | ⟨hmem, -⟩)
      · exact absurd (congrArg Prod.fst heq) hkey
      · exact hmem
    · intro hmem
      exact Or.inr ⟨hmem, hkey⟩

theorem get_erase (m : SortedMap κ α) (k k' : κ) :
    (m.erase k).get k' = if k' = k then none else m.get k' := by
  split
  · rename_i hkey
    refine Option.eq_none_iff_forall_ne_some.mpr fun v hv => ?_
    have hmem := (List.mem_filter.mp (mem_entries_iff.mpr hv)).2
    exact of_decide_eq_true hmem hkey
  · rename_i hkey
    refine get_ext fun w => List.mem_filter.trans ?_
    exact ⟨fun h => h.1, fun h => ⟨h, decide_eq_true hkey⟩⟩

theorem get_set_self (m : SortedMap κ α) (k : κ) (v : α) : (m.set k v).get k = some v := by
  rw [get_set, if_pos rfl]

theorem get_set_of_ne (h : k' ≠ k) : (m.set k v).get k' = m.get k' := by
  rw [get_set, if_neg h]

theorem get_erase_self (m : SortedMap κ α) (k : κ) : (m.erase k).get k = none := by
  rw [get_erase, if_pos rfl]

theorem get_erase_of_ne (h : k' ≠ k) : (m.erase k).get k' = m.get k' := by
  rw [get_erase, if_neg h]

/-! ## Many keys at once -/

theorem get_foldl_erase (l : List κ) (m : SortedMap κ α) (k : κ) :
    (l.foldl erase m).get k = if k ∈ l then none else m.get k := by
  induction l generalizing m with
  | nil => simp
  | cons k' l ih =>
    rw [List.foldl_cons, ih, get_erase]
    by_cases hk : k = k'
    · simp [hk]
    · simp [hk]

/-- Assignments to entries of the map, each computed from the entry. -/
theorem get_foldl_set (f : κ → α → α) {l : List (κ × α)} (hsorted : SortedBy Prod.fst l)
    (hl : ∀ e ∈ l, m.get e.1 = some e.2) :
    (l.foldl (fun m e => m.set e.1 (f e.1 e.2)) m).get k =
      if k ∈ l.map Prod.fst then (m.get k).map (f k) else m.get k := by
  induction l generalizing m with
  | nil => simp
  | cons e l ih =>
    obtain ⟨he, hrest⟩ := List.pairwise_cons.mp hsorted
    have hkeep : ∀ e' ∈ l, (m.set e.1 (f e.1 e.2)).get e'.1 = some e'.2 := by
      intro e' he'
      rw [get_set_of_ne (he e' he').ne']
      exact hl e' (List.mem_cons_of_mem _ he')
    rw [List.foldl_cons, ih hrest hkeep, List.map_cons]
    by_cases hk : k = e.1
    · have hnew : e.1 ∉ l.map Prod.fst := by
        intro hmem
        obtain ⟨e', he', heq⟩ := List.mem_map.mp hmem
        exact (he e' he').ne' heq
      rw [hk, if_neg hnew, get_set_self, if_pos List.mem_cons_self, hl e List.mem_cons_self]
      rfl
    · have hiff : k ∈ e.1 :: l.map Prod.fst ↔ k ∈ l.map Prod.fst := by
        rw [List.mem_cons]
        exact or_iff_right hk
      rw [get_set_of_ne hk]
      simp only [hiff]

theorem get_foldl_set_entries (f : κ → α → α) (m : SortedMap κ α) (k : κ) :
    (m.entries.foldl (fun m e => m.set e.1 (f e.1 e.2)) m).get k = (m.get k).map (f k) := by
  rw [get_foldl_set f m.sorted fun e he => mem_entries_iff.mp he]
  split
  · rfl
  · rename_i hnew
    have hnone : m.get k = none := by
      refine Option.eq_none_iff_forall_ne_some.mpr fun v hv => hnew ?_
      exact List.mem_map.mpr ⟨(k, v), mem_entries_iff.mpr hv, rfl⟩
    rw [hnone]
    rfl

end SortedMap

end Spectrum.Lib
