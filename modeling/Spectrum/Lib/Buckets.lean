import Spectrum.Lib.SortedMap

/-!
# A list in buckets

A map of lists that is filled with the elements of one list, each under its key. Every bucket has its
elements in the order of the list.

* `Buckets.push` and `Buckets.remove`: an element at the end, and elements taken away;
* `Buckets.find?_eq` and `Buckets.filter_eq`: what is looked for in the bucket of its key is found as in
  the list.
-/

namespace Spectrum.Lib

universe u v

variable {κ : Type u} {α : Type v} [LinearOrder κ]

namespace SortedMap

/-- The list under a key, `m[k]`. -/
def bucket (m : SortedMap κ (List α)) (k : κ) : List α := (m.get k).getD []

theorem bucket_set (m : SortedMap κ (List α)) (k : κ) (l : List α) (k' : κ) :
    (m.set k l).bucket k' = if k' = k then l else m.bucket k' := by
  unfold bucket
  rw [get_set]
  split <;> rfl

end SortedMap

/-- The elements of the list are in the bucket of their key, in the same order. -/
def Buckets (key : α → κ) (m : SortedMap κ (List α)) (l : List α) : Prop :=
  ∀ k, m.bucket k = l.filter fun a => key a = k

variable {key : α → κ} {m : SortedMap κ (List α)} {l : List α} {k : κ} {p : α → Bool}

theorem buckets_nil (key : α → κ) : Buckets key {} [] := fun _ => rfl

theorem Buckets.push (h : Buckets key m l) (a : α) :
    Buckets key (m.set (key a) (m.bucket (key a) ++ [a])) (l ++ [a]) := by
  intro k
  rw [SortedMap.bucket_set, List.filter_append]
  split
  · rename_i heq
    rw [heq, h, List.filter_cons_of_pos (by simp), List.filter_nil]
  · rename_i hne
    rw [h, List.filter_cons_of_neg (by simpa using Ne.symm hne), List.filter_nil, List.append_nil]

/-- Elements of one bucket are taken away. -/
theorem Buckets.remove (h : Buckets key m l) (hp : ∀ a ∈ l, p a = false → key a = k) :
    Buckets key (m.set k ((m.bucket k).filter p)) (l.filter p) := by
  intro k'
  rw [SortedMap.bucket_set, List.filter_filter]
  split
  · rename_i heq
    rw [heq, h, List.filter_filter]
    exact List.filter_congr fun a _ => Bool.and_comm _ _
  · rename_i hne
    rw [h]
    refine List.filter_congr fun a ha => ?_
    by_cases hkey : key a = k'
    · have hkept : p a = true := by
        by_contra hgone
        exact hne (hkey.symm.trans (hp a ha (Bool.eq_false_iff.mpr hgone)))
      rw [hkept, Bool.and_true]
    · rw [decide_eq_false hkey, Bool.false_and]

theorem Buckets.filter_eq (h : Buckets key m l) (hp : ∀ a ∈ l, p a = true → key a = k) :
    (m.bucket k).filter p = l.filter p := by
  rw [h, List.filter_filter]
  refine List.filter_congr fun a ha => ?_
  cases hpa : p a with
  | false => rfl
  | true => rw [decide_eq_true (hp a ha hpa), Bool.and_self]

theorem Buckets.find?_eq (h : Buckets key m l) (hp : ∀ a ∈ l, p a = true → key a = k) :
    (m.bucket k).find? p = l.find? p := by
  rw [← List.head?_filter, ← List.head?_filter, h.filter_eq hp]

end Spectrum.Lib
