import Mathlib.Order.Lattice
import Mathlib.Data.List.Pairwise

/-!
# Lists sorted by a key

A map whose entries are kept in the order of their keys, as a list. `upsert` replaces the entry
of a key or inserts it in its place. In a sorted list a key occurs once, so the members of the
result are the new entry and the old entries of the other keys.
-/

namespace Spectrum.Lib

variable {α κ : Type*} [LinearOrder κ] (key : α → κ)

/-- Strictly increasing keys. -/
def SortedBy (l : List α) : Prop := l.Pairwise fun x y => key x < key y

def upsert (x : α) : List α → List α
  | [] => [x]
  | y :: l =>
    if key y = key x then x :: l
    else if key x < key y then x :: y :: l
    else y :: upsert x l

variable {key} {x y : α} {l : List α}

theorem SortedBy.eq_of_key (h : SortedBy key l) (hx : x ∈ l) (hy : y ∈ l) (hkey : key x = key y) :
    x = y := by
  induction l with
  | nil => cases hx
  | cons z l ih =>
    obtain ⟨hz, hl⟩ := List.pairwise_cons.mp h
    rcases List.mem_cons.mp hx with rfl | hx'
    · rcases List.mem_cons.mp hy with rfl | hy'
      · rfl
      · exact absurd hkey (hz y hy').ne
    · rcases List.mem_cons.mp hy with rfl | hy'
      · exact absurd hkey (hz x hx').ne'
      · exact ih hl hx' hy'

theorem SortedBy.filter (h : SortedBy key l) (p : α → Bool) : SortedBy key (l.filter p) :=
  List.Pairwise.sublist List.filter_sublist h

theorem mem_of_mem_upsert (h : y ∈ upsert key x l) : y = x ∨ y ∈ l := by
  induction l with
  | nil => exact .inl (List.mem_singleton.mp h)
  | cons z l ih =>
    unfold upsert at h
    split at h
    · exact (List.mem_cons.mp h).imp_right (List.mem_cons_of_mem z)
    · split at h
      · exact List.mem_cons.mp h
      · rcases List.mem_cons.mp h with rfl | h
        · exact .inr List.mem_cons_self
        · exact (ih h).imp_right (List.mem_cons_of_mem z)

theorem mem_upsert_of_ne (h : y ∈ l) (hne : key y ≠ key x) : y ∈ upsert key x l := by
  induction l with
  | nil => cases h
  | cons z l ih =>
    unfold upsert
    split
    · rename_i heq
      rcases List.mem_cons.mp h with rfl | h
      · exact absurd heq hne
      · exact List.mem_cons_of_mem x h
    · split
      · exact List.mem_cons_of_mem x h
      · rcases List.mem_cons.mp h with rfl | h
        · exact List.mem_cons_self
        · exact List.mem_cons_of_mem z (ih h)

theorem find?_upsert [DecidableEq κ] (x : α) (l : List α) :
    (upsert key x l).find? (fun y => key y = key x) = some x := by
  induction l with
  | nil => simp [upsert]
  | cons z l ih =>
    unfold upsert
    split
    · simp
    · rename_i hne
      split
      · simp
      · simpa [hne] using ih

theorem mem_upsert (h : SortedBy key l) : y ∈ upsert key x l ↔ y = x ∨ y ∈ l ∧ key y ≠ key x := by
  induction l with
  | nil => simp [upsert]
  | cons z l ih =>
    obtain ⟨hz, hl⟩ := List.pairwise_cons.mp h
    unfold upsert
    split
    · rename_i heq
      have hother : y ∈ l → key y ≠ key x := fun hy => heq ▸ (hz y hy).ne'
      constructor
      · intro hy
        rcases List.mem_cons.mp hy with rfl | hy
        · exact .inl rfl
        · exact .inr ⟨List.mem_cons_of_mem z hy, hother hy⟩
      · rintro (rfl | ⟨hy, hne⟩)
        · exact List.mem_cons_self
        · rcases List.mem_cons.mp hy with rfl | hy
          · exact absurd heq hne
          · exact List.mem_cons_of_mem x hy
    · rename_i hne
      split
      · rename_i hlt
        have hother : y ∈ z :: l → key y ≠ key x := by
          intro hy
          rcases List.mem_cons.mp hy with rfl | hy
          · exact hne
          · exact (hlt.trans (hz y hy)).ne'
        constructor
        · intro hy
          rcases List.mem_cons.mp hy with rfl | hy
          · exact .inl rfl
          · exact .inr ⟨hy, hother hy⟩
        · rintro (rfl | ⟨hy, -⟩)
          · exact List.mem_cons_self
          · exact List.mem_cons_of_mem x hy
      · rw [List.mem_cons, ih hl, List.mem_cons]
        constructor
        · rintro (rfl | rfl | ⟨hy, hk⟩)
          · exact .inr ⟨.inl rfl, hne⟩
          · exact .inl rfl
          · exact .inr ⟨.inr hy, hk⟩
        · rintro (rfl | ⟨rfl | hy, hk⟩)
          · exact .inr (.inl rfl)
          · exact .inl rfl
          · exact .inr (.inr ⟨hy, hk⟩)

theorem SortedBy.upsert (h : SortedBy key l) (x : α) : SortedBy key (upsert key x l) := by
  induction l with
  | nil => exact List.pairwise_singleton _ _
  | cons z l ih =>
    obtain ⟨hz, hl⟩ := List.pairwise_cons.mp h
    unfold Lib.upsert
    split
    · rename_i heq
      exact List.pairwise_cons.mpr ⟨fun y hy => heq ▸ hz y hy, hl⟩
    · rename_i hne
      split
      · rename_i hlt
        refine List.pairwise_cons.mpr ⟨?_, h⟩
        intro y hy
        rcases List.mem_cons.mp hy with rfl | hy
        · exact hlt
        · exact hlt.trans (hz y hy)
      · rename_i hnlt
        refine List.pairwise_cons.mpr ⟨?_, ih hl⟩
        intro y hy
        rcases (mem_upsert hl).mp hy with rfl | ⟨hy, -⟩
        · exact lt_of_le_of_ne (not_lt.mp hnlt) hne
        · exact hz y hy

end Spectrum.Lib
