import Mathlib.Data.List.Basic

/-!
# What observers have been told

Observers keep for every subject the value that they were told last. A notice tells a value of one
subject to the observers that it reaches. An observer who is told a subject by true notices knows the
value, whatever he knew before.
-/

namespace Spectrum.Lib

universe u v w

structure Notice (ω : Type u) (σ : Type v) (ν : Type w) where
  reaches : ω → Bool
  subject : σ
  value : ν

namespace Notice

variable {ω : Type u} {σ : Type v} {ν : Type w} [DecidableEq σ]

/-- What the observers know after a notice. -/
def tell (seen : ω → σ → ν) (n : Notice ω σ ν) : ω → σ → ν :=
  fun o s => if n.reaches o = true ∧ n.subject = s then n.value else seen o s

def tellAll (seen : ω → σ → ν) (ns : List (Notice ω σ ν)) : ω → σ → ν := ns.foldl tell seen

variable {seen : ω → σ → ν} {ns : List (Notice ω σ ν)} {n : Notice ω σ ν} {o : ω} {s : σ} {v : ν}

theorem tellAll_append (ns' : List (Notice ω σ ν)) :
    tellAll seen (ns ++ ns') = tellAll (tellAll seen ns) ns' := List.foldl_append

end Notice

end Spectrum.Lib
