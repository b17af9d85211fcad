import Mathlib.Data.List.Basic

/-!
# Deterministic machines with partial steps

A machine has a set of initial states and a step function that is partial: a step is
undefined when the event cannot happen in the state, or when the program would leave
defined behaviour. A run is recorded as its list of steps, newest first, each with the
state in which it was taken.

* `Run.invariant` is the induction rule for invariants of all runs;
* `Run.invariant_of_steps` is the same rule for the runs whose steps all meet a condition, and
  `Run.always_of_steps` says it of all states of such a run;
* `Run.always_iff` says that a property holds in all states of exactly these runs.
-/

namespace Spectrum.Lib

universe u v

/-- A deterministic machine over states `σ` and events `ε`. -/
structure Machine (σ : Type u) (ε : Type v) where
  init : σ → Prop
  step : σ → ε → Option σ

namespace Machine

variable {σ : Type u} {ε : Type v}

/-- `M.Run tr s`: the steps `tr` (newest first) lead from an initial state to `s`. -/
inductive Run (M : Machine σ ε) : List (σ × ε) → σ → Prop
  | init {s : σ} (h : M.init s) : Run M [] s
  | step {tr : List (σ × ε)} {s s' : σ} {e : ε} (h : Run M tr s) (hs : M.step s e = some s') :
      Run M ((s, e) :: tr) s'

/-- Every step of the run meets the condition `C`. -/
def Meets (C : σ → ε → Prop) (tr : List (σ × ε)) : Prop := ∀ p ∈ tr, C p.1 p.2

variable {M : Machine σ ε} {tr : List (σ × ε)} {s s' : σ} {e : ε} {C : σ → ε → Prop}

@[simp] theorem meets_nil : Meets C ([] : List (σ × ε)) := by
  intro p hp
  cases hp

theorem meets_cons : Meets C ((s, e) :: tr) ↔ C s e ∧ Meets C tr := by
  simp [Meets]

/-- An invariant of the steps that meet `C` holds after every run whose steps all do. -/
theorem Run.invariant_of_steps {I : σ → Prop} (hinit : ∀ s, M.init s → I s)
    (hstep : ∀ s e s', C s e → M.step s e = some s' → I s → I s')
    (h : M.Run tr s) (hC : Meets C tr) : I s := by
  induction h with
  | init h0 => exact hinit _ h0
  | step _ hs ih =>
    obtain ⟨hc, hrest⟩ := meets_cons.mp hC
    exact hstep _ _ _ hc hs (ih hrest)

theorem Run.invariant {I : σ → Prop} (hinit : ∀ s, M.init s → I s)
    (hstep : ∀ s e s', M.step s e = some s' → I s → I s') (h : M.Run tr s) : I s := by
  induction h with
  | init h0 => exact hinit _ h0
  | step _ hs ih => exact hstep _ _ _ hs ih

/-- `P` holds in every state of the run that ends in `s`. -/
def Always (P : σ → Prop) (tr : List (σ × ε)) (s : σ) : Prop := P s ∧ ∀ p ∈ tr, P p.1

/-- An invariant of the steps that meet `C` holds in every state of a run whose steps all do. -/
theorem Run.always_of_steps {I : σ → Prop} (hinit : ∀ s, M.init s → I s)
    (hstep : ∀ s e s', M.step s e = some s' → I s → C s e → I s') (h : M.Run tr s)
    (hC : Meets C tr) : Always I tr s := by
  induction h with
  | init h0 => exact ⟨hinit _ h0, fun p hp => absurd hp List.not_mem_nil⟩
  | @step tr s s' e _ hs ih =>
    obtain ⟨hc, hrest⟩ := meets_cons.mp hC
    obtain ⟨hIs, hall⟩ := ih hrest
    refine ⟨hstep s e s' hs hIs hc, fun p hp => ?_⟩
    rcases List.mem_cons.mp hp with rfl | hp
    · exact hIs
    · exact hall p hp

theorem Always.mono {P Q : σ → Prop} (h : Always P tr s) (hPQ : ∀ s, P s → Q s) : Always Q tr s :=
  ⟨hPQ s h.1, fun p hp => hPQ p.1 (h.2 p hp)⟩

/-- A property that the steps that meet `C` keep, with an invariant `I`, and that every other step
breaks. -/
theorem Run.always_iff {P I : σ → Prop} (hinit : ∀ s, M.init s → I s) (hI : ∀ s, I s → P s)
    (hstep : ∀ s e s', M.step s e = some s' → I s → C s e → I s')
    (hbreak : ∀ s e s', M.step s e = some s' → I s → P s' → C s e) (h : M.Run tr s) :
    Always P tr s ↔ Meets C tr := by
  constructor
  · intro halways
    suffices Meets C tr ∧ I s from this.1
    induction h with
    | init h0 => exact ⟨meets_nil, hinit _ h0⟩
    | @step tr s s' e _ hs ih =>
      obtain ⟨hP, hrest⟩ := halways
      obtain ⟨hmeets, hIs⟩ :=
        ih ⟨hrest _ List.mem_cons_self, fun p hp => hrest p (List.mem_cons_of_mem _ hp)⟩
      have hC := hbreak s e s' hs hIs hP
      exact ⟨meets_cons.mpr ⟨hC, hmeets⟩, hstep s e s' hs hIs hC⟩
  · intro hC
    exact (h.always_of_steps hinit hstep hC).mono hI

/-- Every state in which a step of the run was taken is reached by the steps before it. -/
theorem Run.source (h : M.Run tr s) : ∀ p ∈ tr, ∃ tr', M.Run tr' p.1 ∧ tr' ⊆ tr := by
  induction h with
  | init _ => simp
  | @step tr s s' e hr _ ih =>
    intro p hp
    rcases List.mem_cons.mp hp with rfl | hp
    · exact ⟨tr, hr, List.subset_cons_self _ _⟩
    · obtain ⟨tr', hrun, hsub⟩ := ih p hp
      exact ⟨tr', hrun, List.Subset.trans hsub (List.subset_cons_self _ _)⟩

theorem Run.step_of_mem (h : M.Run tr s) : ∀ p ∈ tr, ∃ s', M.step p.1 p.2 = some s' := by
  induction h with
  | init _ => simp
  | @step tr s s' e _ hs ih =>
    intro p hp
    rcases List.mem_cons.mp hp with rfl | hp
    · exact ⟨s', hs⟩
    · exact ih p hp

/-- Execute a list of events, oldest first, from a state. -/
def exec (M : Machine σ ε) : σ → List ε → Option σ
  | s, [] => some s
  | s, e :: es => (M.step s e).bind fun s' => M.exec s' es

/-- The machine restricted to the steps that meet `C`. -/
def restrict (M : Machine σ ε) (C : σ → ε → Prop) [∀ s e, Decidable (C s e)] : Machine σ ε where
  init := M.init
  step s e := if C s e then M.step s e else none

theorem Run.exec (h : M.Run tr s) {es : List ε} (he : M.exec s es = some s') :
    ∃ tr', M.Run tr' s' ∧ tr'.map Prod.snd = es.reverse ++ tr.map Prod.snd := by
  induction es generalizing s tr with
  | nil =>
    cases he
    exact ⟨tr, h, rfl⟩
  | cons e es ih =>
    cases hs : M.step s e with
    | none => simp [Machine.exec, hs] at he
    | some s₁ =>
      simp only [Machine.exec, hs, Option.bind_some] at he
      obtain ⟨tr', hrun, hevents⟩ := ih (h.step hs) he
      refine ⟨tr', hrun, ?_⟩
      rw [hevents]
      simp

/-- The runs of the restricted machine are the runs whose steps all meet the condition. -/
theorem Run.of_restrict [∀ s e, Decidable (C s e)] (h : (M.restrict C).Run tr s) :
    M.Run tr s ∧ Meets C tr := by
  induction h with
  | init h0 => exact ⟨.init h0, meets_nil⟩
  | @step tr s s' e _ hs ih =>
    simp only [restrict] at hs
    split at hs
    · exact ⟨ih.1.step hs, meets_cons.mpr ⟨‹_›, ih.2⟩⟩
    · cases hs

/-- Executing events from an initial state gives a run of these events. -/
theorem exists_run_of_exec (hinit : M.init s) {es : List ε} (he : M.exec s es = some s') :
    ∃ tr, M.Run tr s' ∧ tr.map Prod.snd = es.reverse := by
  simpa using (Run.init hinit).exec he

/-- Executing events that all meet the condition gives a run whose steps all do. -/
theorem exists_run_of_restrict [∀ s e, Decidable (C s e)] (hinit : M.init s) {es : List ε}
    (he : (M.restrict C).exec s es = some s') : ∃ tr, M.Run tr s' ∧ Meets C tr := by
  obtain ⟨tr, h, -⟩ := exists_run_of_exec (M := M.restrict C) hinit he
  exact ⟨tr, h.of_restrict⟩

end Machine

end Spectrum.Lib
