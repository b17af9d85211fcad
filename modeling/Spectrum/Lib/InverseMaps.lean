import Spectrum.Lib.SortedMap

/-!
# Maps that are inverse to each other

Two maps that are filled together, one in each direction. Reading a key with `operator[]` puts the
default value under it; entries with the default value do not count.

* `Inverse.touch_left` and `Inverse.touch_right`: reading keeps the maps inverse;
* `Inverse.set_iff`: a new pair does exactly when neither of its sides is in use with another one.
-/

namespace Spectrum.Lib

universe u v

namespace SortedMap

variable {κ : Type u} {α : Type v} [LinearOrder κ] {k : κ} {a a₀ : α}

/-- The map after `m[k]` was read: the key has a value now, the default one if it had none. -/
def touch (m : SortedMap κ α) (a₀ : α) (k : κ) : SortedMap κ α :=
  (m.get k).elim (m.set k a₀) fun _ => m

/-- The value of `m[k]`. -/
def read (m : SortedMap κ α) (a₀ : α) (k : κ) : α := (m.get k).getD a₀

theorem get_touch (m : SortedMap κ α) (a₀ : α) (k k' : κ) :
    (m.touch a₀ k).get k' = if k' = k then some (m.read a₀ k) else m.get k' := by
  unfold touch read
  cases hget : m.get k with
  | none => exact get_set m k a₀ k'
  | some a =>
    split
    · rename_i heq
      rw [heq]
      exact hget
    · rfl

theorem touch_of_get {m : SortedMap κ α} (h : m.get k = some a) : m.touch a₀ k = m := by
  rw [touch, h]
  rfl

theorem read_touch (m : SortedMap κ α) (a₀ : α) (k k' : κ) :
    (m.touch a₀ k).read a₀ k' = m.read a₀ k' := by
  rw [read, get_touch]
  split
  · rename_i heq
    rw [heq]
    rfl
  · rfl

theorem read_set (m : SortedMap κ α) (a₀ a : α) (k k' : κ) :
    (m.set k a).read a₀ k' = if k' = k then a else m.read a₀ k' := by
  rw [read, get_set]
  split <;> rfl

/-- Reading a key puts nothing but defaults into the map. -/
theorem get_touch_eq_some_iff {m : SortedMap κ α} {k' : κ} (hne : a ≠ a₀) :
    (m.touch a₀ k).get k' = some a ↔ m.get k' = some a := by
  rw [get_touch]
  split
  · rename_i heq
    rw [heq, read]
    cases m.get k with
    | none => exact iff_of_false (fun h => hne (Option.some_inj.mp h).symm) (Option.some_ne_none a).symm
    | some b => rfl
  · rfl

end SortedMap

section

variable {κ : Type u} {α : Type v} [LinearOrder κ] [LinearOrder α] {k k₀ : κ} {a a₀ : α}

/-- The entries that are not the default are the same in both directions. -/
structure Inverse (k₀ : κ) (a₀ : α) (m : SortedMap κ α) (n : SortedMap α κ) : Prop where
  left : ∀ k a, m.get k = some a → a ≠ a₀ → n.get a = some k
  right : ∀ a k, n.get a = some k → k ≠ k₀ → m.get k = some a

/-- Neither side of the pair is in use with another one. -/
structure Unused (a₀ : α) (m : SortedMap κ α) (n : SortedMap α κ) (k : κ) (a : α) : Prop where
  left : ∀ e ∈ m.entries, e.1 ≠ k → e.2 = a → a = a₀
  right : ∀ e ∈ n.entries, e.1 ≠ a → e.2 ≠ k

variable {m : SortedMap κ α} {n : SortedMap α κ}

instance : Decidable (Unused a₀ m n k a) :=
  decidable_of_iff ((∀ e ∈ m.entries, e.1 ≠ k → e.2 = a → a = a₀) ∧
    ∀ e ∈ n.entries, e.1 ≠ a → e.2 ≠ k) ⟨fun h => ⟨h.1, h.2⟩, fun h => ⟨h.left, h.right⟩⟩

theorem Inverse.touch_left (h : Inverse k₀ a₀ m n) (k : κ) : Inverse k₀ a₀ (m.touch a₀ k) n := by
  constructor
  · intro k' a hget hne
    exact h.left k' a ((SortedMap.get_touch_eq_some_iff hne).mp hget) hne
  · intro a k' hget hne
    have hold := h.right a k' hget hne
    rw [SortedMap.get_touch]
    split
    · rename_i heq
      rw [← heq, SortedMap.read, hold]
      rfl
    · exact hold

theorem Inverse.symm (h : Inverse k₀ a₀ m n) : Inverse a₀ k₀ n m := ⟨h.right, h.left⟩

theorem Inverse.touch_right (h : Inverse k₀ a₀ m n) (a : α) : Inverse k₀ a₀ m (n.touch k₀ a) :=
  (h.symm.touch_left a).symm

/-- A new pair in both directions. -/
theorem Inverse.set_iff (h : Inverse k₀ a₀ m n) (hk : k ≠ k₀) :
    Inverse k₀ a₀ (m.set k a) (n.set a k) ↔ Unused a₀ m n k a := by
  constructor
  · intro hinv
    constructor
    · rintro ⟨k', a'⟩ hmem hne rfl
      by_contra hblank
      have hget : (m.set k a').get k' = some a' :=
        (SortedMap.get_set_of_ne hne).trans (SortedMap.mem_entries_iff.mp hmem)
      have hother := hinv.left k' a' hget hblank
      rw [SortedMap.get_set_self] at hother
      exact hne (Option.some_inj.mp hother).symm
    · rintro ⟨a', k'⟩ hmem hne rfl
      have hget : (n.set a k').get a' = some k' :=
        (SortedMap.get_set_of_ne hne).trans (SortedMap.mem_entries_iff.mp hmem)
      have hother := hinv.right a' k' hget hk
      rw [SortedMap.get_set_self] at hother
      exact hne (Option.some_inj.mp hother).symm
  · intro hunused
    constructor
    · intro k' a' hget hne
      rw [SortedMap.get_set] at hget
      split at hget
      · rename_i heq
        rw [← Option.some_inj.mp hget, heq]
        exact SortedMap.get_set_self n a k
      · rename_i hk'
        have ha' : a' ≠ a := by
          rintro rfl
          exact hne (hunused.left (k', a') (SortedMap.mem_entries_iff.mpr hget) hk' rfl)
        rw [SortedMap.get_set_of_ne ha']
        exact h.left k' a' hget hne
    · intro a' k' hget hne
      rw [SortedMap.get_set] at hget
      split at hget
      · rename_i heq
        rw [← Option.some_inj.mp hget, heq]
        exact SortedMap.get_set_self m k a
      · rename_i ha'
        have hk' : k' ≠ k :=
          hunused.right (a', k') (SortedMap.mem_entries_iff.mpr hget) ha'
        rw [SortedMap.get_set_of_ne hk']
        exact h.right a' k' hget hne

end

end Spectrum.Lib
