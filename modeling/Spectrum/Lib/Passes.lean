/-!
# Passes over a state until one changes nothing

A pass gives the next state and a flag, and the loop goes on while the flag is set. A pass that sets
it makes the state smaller, so the loop ends; its result is that of a pass without the flag.
-/

namespace Spectrum.Lib

universe u

/-- The body of a loop `while (match) { match = false; … }`. -/
structure Passes (σ : Type u) where
  pass : σ → σ × Bool
  size : σ → Nat
  shrinks : ∀ s, (pass s).2 = true → size (pass s).1 < size s

namespace Passes

variable {σ : Type u}

def loop (P : Passes σ) (s : σ) : σ :=
  if _h : (P.pass s).2 = true then P.loop (P.pass s).1 else (P.pass s).1
termination_by P.size s
decreasing_by exact P.shrinks s _h

variable {P : Passes σ} {s : σ}

theorem loop_of_true (h : (P.pass s).2 = true) : P.loop s = P.loop (P.pass s).1 := by
  rw [loop, dif_pos h]

theorem loop_of_false (h : (P.pass s).2 = false) : P.loop s = (P.pass s).1 := by
  rw [loop, dif_neg (by simp [h])]

/-- What every pass keeps, the loop keeps. -/
theorem invariant {I : σ → Prop} (hpass : ∀ s, I s → I (P.pass s).1) (h : I s) :
    I (P.loop s) := by
  induction s using loop.induct (P := P) with
  | case1 s hgo ih =>
    rw [loop_of_true hgo]
    exact ih (hpass s h)
  | case2 s hstop =>
    have hfalse : (P.pass s).2 = false := by simpa using hstop
    rw [loop_of_false hfalse]
    exact hpass s h

/-- The last pass. -/
theorem exists_last (P : Passes σ) (s : σ) :
    ∃ s', (P.pass s').2 = false ∧ P.loop s = (P.pass s').1 := by
  induction s using loop.induct (P := P) with
  | case1 s hgo ih =>
    obtain ⟨s', hlast, heq⟩ := ih
    exact ⟨s', hlast, (loop_of_true hgo).trans heq⟩
  | case2 s hstop =>
    have hfalse : (P.pass s).2 = false := by simpa using hstop
    exact ⟨s, hfalse, loop_of_false hfalse⟩

end Passes

end Spectrum.Lib
