import Mathlib.Data.List.Basic

/-!
# Codes that are read from the front of a text

A code writes every value as a non-empty word, and a reader takes the word off the front of a text:
it finds a value exactly where the text starts with the word of that value. Such a code can be read
value by value in only one way.

* `split_eq_iff`: the values at the front of a text and the rest from the first place on where no word
  starts;
* `flatMap_encode_injective`: different lists of values are written differently.
-/

namespace Spectrum.Lib

universe u v

structure PrefixCode (α : Type u) (β : Type v) where
  encode : α → List β
  /-- The first value of a text and what follows its word. -/
  next : List β → Option (α × List β)
  encode_ne_nil : ∀ a, encode a ≠ []
  next_eq_some_iff : ∀ {t a r}, next t = some (a, r) ↔ t = encode a ++ r

namespace PrefixCode

variable {α : Type u} {β : Type v} (C : PrefixCode α β)

theorem next_append (a : α) (r : List β) : C.next (C.encode a ++ r) = some (a, r) :=
  C.next_eq_some_iff.mpr rfl

theorem next_nil : C.next [] = none := by
  cases h : C.next [] with
  | none => rfl
  | some p =>
    have hempty := C.next_eq_some_iff.mp h
    exact absurd (List.append_eq_nil_iff.mp hempty.symm).1 (C.encode_ne_nil _)

theorem length_rest_lt {t r : List β} {a : α} (h : C.next t = some (a, r)) :
    r.length < t.length := by
  rw [C.next_eq_some_iff.mp h, List.length_append]
  have := List.length_pos_iff.mpr (C.encode_ne_nil a)
  omega

/-- The values at the front of a text, and the rest of it. -/
def split (t : List β) : List α × List β :=
  match _h : C.next t with
  | none => ([], t)
  | some (a, r) => (a :: (split r).1, (split r).2)
termination_by t.length
decreasing_by all_goals exact C.length_rest_lt _h

variable {C}

theorem split_of_none {t : List β} (h : C.next t = none) : C.split t = ([], t) := by
  rw [split]
  split
  · rfl
  · rename_i heq
    rw [h] at heq
    cases heq

theorem split_of_some {t r : List β} {a : α} (h : C.next t = some (a, r)) :
    C.split t = (a :: (C.split r).1, (C.split r).2) := by
  rw [split]
  split
  · rename_i heq
    rw [h] at heq
    cases heq
  · rename_i heq
    rw [h] at heq
    cases heq
    rfl

theorem split_append (values : List α) {r : List β} (h : C.next r = none) :
    C.split (values.flatMap C.encode ++ r) = (values, r) := by
  induction values with
  | nil => exact split_of_none h
  | cons a values ih =>
    rw [List.flatMap_cons, List.append_assoc, split_of_some (C.next_append a _), ih]

theorem split_spec (t : List β) :
    t = (C.split t).1.flatMap C.encode ++ (C.split t).2 ∧ C.next (C.split t).2 = none := by
  induction hn : t.length using Nat.strongRecOn generalizing t with
  | ind n ih =>
    cases h : C.next t with
    | none =>
      rw [split_of_none h]
      exact ⟨rfl, h⟩
    | some p =>
      obtain ⟨a, r⟩ := p
      obtain ⟨htext, hstop⟩ := ih r.length (hn ▸ C.length_rest_lt h) r rfl
      rw [split_of_some h]
      refine ⟨?_, hstop⟩
      rw [List.flatMap_cons, List.append_assoc, ← htext]
      exact C.next_eq_some_iff.mp h

theorem split_eq_iff {t r : List β} {values : List α} :
    C.split t = (values, r) ↔ t = values.flatMap C.encode ++ r ∧ C.next r = none := by
  constructor
  · intro h
    have hspec := C.split_spec t
    rwa [h] at hspec
  · rintro ⟨rfl, hstop⟩
    exact split_append values hstop

theorem flatMap_encode_injective : Function.Injective fun values : List α =>
    values.flatMap C.encode := by
  intro values values' h
  have hsplit := split_append values C.next_nil
  have hsame : values.flatMap C.encode = values'.flatMap C.encode := h
  rw [List.append_nil, hsame, ← List.append_nil (values'.flatMap C.encode),
    split_append values' C.next_nil] at hsplit
  exact (congrArg Prod.fst hsplit).symm

end PrefixCode

end Spectrum.Lib
