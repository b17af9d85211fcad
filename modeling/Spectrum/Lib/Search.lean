import Mathlib.Data.List.Infix

/-!
# The first occurrence of one list in another

* `find u s` is what stands before and behind the first `u` of `s`.
* `FirstAt u a r` says that in `a ++ u ++ r` the first `u` is the one behind `a`.
* `find_of_firstAt` finds it; `find_eq`, `find_isSome` and `length_le_of_find` are what `find` is.
-/

namespace Spectrum.Lib

variable {α : Type} [DecidableEq α] {u a r s : List α}

def find (u : List α) : List α → Option (List α × List α)
  | [] => if u = [] then some ([], []) else none
  | c :: s =>
    if u.isPrefixOf (c :: s) then some ([], (c :: s).drop u.length)
    else (find u s).map fun pr => (c :: pr.1, pr.2)

def FirstAt (u a r : List α) : Prop := ∀ b s, a ++ u ++ r = b ++ u ++ s → a.length ≤ b.length

theorem find_eq (h : find u s = some (a, r)) : s = a ++ u ++ r := by
  induction s generalizing a with
  | nil =>
    rw [find] at h
    split at h
    · rename_i hu
      cases h
      rw [hu]
      rfl
    · cases h
  | cons c s ih =>
    rw [find] at h
    split at h
    · rename_i hprefix
      cases h
      exact (List.prefix_iff_eq_append.mp (List.isPrefixOf_iff_prefix.mp hprefix)).symm
    · obtain ⟨⟨a', r'⟩, hfind, heq⟩ := Option.map_eq_some_iff.mp h
      cases heq
      rw [ih hfind]
      rfl

theorem find_isSome (h : u <:+: s) : ∃ pr, find u s = some pr := by
  induction s with
  | nil => exact ⟨([], []), by rw [find, if_pos (List.infix_nil.mp h)]⟩
  | cons c s ih =>
    rw [find]
    split
    · exact ⟨_, rfl⟩
    · rename_i hprefix
      rcases List.infix_cons_iff.mp h with hfirst | hinfix
      · exact absurd (List.isPrefixOf_iff_prefix.mpr hfirst) hprefix
      · obtain ⟨pr, hpr⟩ := ih hinfix
        exact ⟨_, by rw [hpr]; rfl⟩

/-- No occurrence stands before the one that is found. -/
theorem length_le_of_find {b t : List α} (h : find u s = some (a, r)) (heq : s = b ++ u ++ t) :
    a.length ≤ b.length := by
  induction s generalizing a b with
  | nil =>
    have hnil : a ++ u ++ r = [] := (find_eq h).symm
    rw [List.append_assoc, List.append_eq_nil_iff] at hnil
    rw [hnil.1]
    exact Nat.zero_le _
  | cons c s ih =>
    rw [find] at h
    split at h
    · cases h
      exact Nat.zero_le _
    · rename_i hprefix
      obtain ⟨⟨a', r'⟩, hfind, hpair⟩ := Option.map_eq_some_iff.mp h
      cases hpair
      cases b with
      | nil =>
        refine absurd (List.isPrefixOf_iff_prefix.mpr ?_) hprefix
        rw [heq]
        exact ⟨t, rfl⟩
      | cons d b =>
        have htail : s = b ++ u ++ t := (List.cons.inj heq).2
        exact Nat.succ_le_succ (ih hfind htail)

theorem find_of_firstAt (h : FirstAt u a r) : find u (a ++ u ++ r) = some (a, r) := by
  obtain ⟨⟨b, s⟩, hfind⟩ := find_isSome (List.infix_append a u r)
  have heq := find_eq hfind
  have hlength : a.length = b.length :=
    Nat.le_antisymm (h b s heq) (length_le_of_find hfind rfl)
  rw [List.append_assoc, List.append_assoc] at heq
  obtain ⟨rfl, hrest⟩ := List.append_inj heq hlength
  rw [hfind, List.append_cancel_left hrest]

theorem firstAt_of_find (h : find u (a ++ u ++ r) = some (a, r)) : FirstAt u a r :=
  fun _ _ heq => length_le_of_find h heq

omit [DecidableEq α] in
theorem FirstAt.suffix {b : List α} (h : FirstAt u (b ++ a) r) : FirstAt u a r := by
  intro c s heq
  have hle := h (b ++ c) s (by simp only [List.append_assoc] at heq ⊢; rw [heq])
  rw [List.length_append, List.length_append] at hle
  omega

end Spectrum.Lib
