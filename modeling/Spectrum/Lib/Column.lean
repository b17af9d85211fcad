import Mathlib.Data.Option.Basic

/-!
# Columns

A column of a table takes some values as they are. Another value is refused, or the column gets a
value that it takes instead.
-/

namespace Spectrum.Lib

universe u

structure Column (α : Type u) where
  Takes : α → Prop
  decTakes : DecidablePred Takes
  /-- What is written instead of a value that the column does not take. -/
  instead : α → Option α
  takes_instead : ∀ v w, instead v = some w → Takes w

namespace Column

variable {α : Type u} {c : Column α} {v w : α}

instance (c : Column α) (v : α) : Decidable (c.Takes v) := c.decTakes v

/-- A column that takes every value. -/
def all : Column α where
  Takes _ := True
  decTakes _ := isTrue trivial
  instead := some
  takes_instead _ _ _ := trivial

/-- What the column gets when a value is written. -/
def store (c : Column α) (v : α) : Option α := if c.Takes v then some v else c.instead v

theorem store_of_takes (h : c.Takes v) : c.store v = some v := if_pos h

theorem takes_of_store (h : c.store v = some w) : c.Takes w := by
  unfold store at h
  split at h
  · rename_i htakes
    exact Option.some.inj h ▸ htakes
  · exact c.takes_instead v w h

/-- Exactly what the column takes is stored as it is. -/
theorem store_eq_self_iff : c.store v = some v ↔ c.Takes v :=
  ⟨takes_of_store, store_of_takes⟩

theorem eq_of_store (hv : c.Takes v) (h : c.store v = some w) : w = v := by
  rw [store_of_takes hv] at h
  exact (Option.some.inj h).symm

/-- What is stored is the value exactly if the column takes it. -/
theorem eq_iff_takes (h : c.store v = some w) : w = v ↔ c.Takes v :=
  ⟨fun heq => heq ▸ takes_of_store h, fun hv => eq_of_store hv h⟩

end Column

end Spectrum.Lib
