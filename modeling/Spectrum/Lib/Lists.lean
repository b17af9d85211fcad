import Mathlib.Algebra.Order.BigOperators.Group.List
import Mathlib.Algebra.Order.Ring.Nat
import Mathlib.Data.List.Nodup

/-!
# Prefixes of lists

Facts about the elements of a list that stand before a given one, written as
`l.takeWhile (· ≠ t)`: what a search can find, and sums over them.
-/

namespace Spectrum.Lib

variable {α : Type*}

section Before

variable [DecidableEq α] {l : List α} {b t : α}

/-- A search that accepts an element before `t` does not find `t`. -/
theorem find?_ne_of_mem_takeWhile {p : α → Bool} (hb : b ∈ l.takeWhile (· ≠ t))
    (hp : p b = true) : l.find? p ≠ some t := by
  induction l with
  | nil => cases hb
  | cons a l ih =>
    by_cases ha : a = t
    · simp [ha] at hb
    · rw [List.takeWhile_cons_of_pos (by simpa using ha)] at hb
      cases hpa : p a with
      | true =>
        rw [List.find?_cons_of_pos hpa]
        simpa using ha
      | false =>
        rw [List.find?_cons_of_neg (by simp [hpa])]
        rcases List.mem_cons.mp hb with rfl | hb
        · rw [hp] at hpa
          cases hpa
        · exact ih hb

theorem mem_takeWhile_filter {q : α → Bool} (hb : b ∈ l.takeWhile (· ≠ t)) (hq : q b = true) :
    b ∈ (l.filter q).takeWhile (· ≠ t) := by
  induction l with
  | nil => cases hb
  | cons a l ih =>
    by_cases ha : a = t
    · simp [ha] at hb
    · rw [List.takeWhile_cons_of_pos (by simpa using ha)] at hb
      cases hqa : q a with
      | true =>
        rw [List.filter_cons_of_pos hqa, List.takeWhile_cons_of_pos (by simpa using ha)]
        rcases List.mem_cons.mp hb with rfl | hb
        · exact List.mem_cons_self
        · exact List.mem_cons_of_mem a (ih hb)
      | false =>
        rw [List.filter_cons_of_neg (by simp [hqa])]
        rcases List.mem_cons.mp hb with rfl | hb
        · rw [hq] at hqa
          cases hqa
        · exact ih hb

/-- The elements before `t` in a list that contains it after a prefix. -/
theorem takeWhile_append_of_not_mem {l' : List α} (ht : t ∉ l) :
    (l ++ l').takeWhile (· ≠ t) = l ++ l'.takeWhile (· ≠ t) := by
  apply List.takeWhile_append_of_pos
  intro a ha
  have hne : a ≠ t := by
    rintro rfl
    exact ht ha
  simpa using hne

/-- A sum changes by one at most if one summand does and the others do not grow. -/
theorem sum_map_le_succ {f g : α → Nat} {d : α} (hnodup : l.Nodup)
    (hother : ∀ a, a ≠ d → f a ≤ g a) (hd : f d ≤ g d + 1) :
    (l.map f).sum ≤ (l.map g).sum + 1 := by
  induction l with
  | nil => simp
  | cons a l ih =>
    obtain ⟨hnot, hrest⟩ := List.nodup_cons.mp hnodup
    simp only [List.map_cons, List.sum_cons]
    by_cases ha : a = d
    · subst ha
      have hle : (l.map f).sum ≤ (l.map g).sum := by
        refine List.sum_le_sum fun b hb => hother b ?_
        rintro rfl
        exact hnot hb
      omega
    · have hle := hother a ha
      have hsum := ih hrest
      omega

end Before

end Spectrum.Lib
