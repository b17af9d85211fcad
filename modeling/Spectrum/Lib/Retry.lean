import Mathlib.Logic.Basic

/-!
# Methods that start again

A method sends statements to a server and fills reference parameters. When the connection is lost
during a statement the method starts again from its beginning, with the parameters as they are. The
server may have executed the statement before the connection was lost. It undoes what was written in
a transaction, and the method starts again outside of it.
-/

namespace Spectrum.Lib

/-- What is left of a method: `β` are the reference parameters, `α` is the result. The method does not
start again at a statement of `once`: it goes on without an answer. -/
inductive Script (σ β α : Type) : Type 1
  | done (out : β) (a : α)
  | exec {γ : Type} (out : β) (stmt : σ → σ × γ) (next : γ → Script σ β α)
  | once {γ : Type} (out : β) (stmt : σ → σ × γ) (next : Option γ → Script σ β α)

/-- What happens to a statement. -/
inductive Fate
  | ok
  | lost (executed : Bool)
  deriving DecidableEq, Repr

namespace Script

variable {σ β α γ : Type} {p : Script σ β α} {s : σ} {method : Nat → β → Script σ β α} {n : Nat}

/-- The run without any loss. -/
def finish : Script σ β α → σ → σ × β × α
  | done out a, s => (s, out, a)
  | exec _ stmt next, s => finish (next (stmt s).2) (stmt s).1
  | once _ stmt next, s => finish (next (some (stmt s).2)) (stmt s).1

/-- The run in which the statements have the given fates. No connection is lost after the last. The
method is told how many connections there were before, and `undo` is what the server does to the state
when it loses the connection in a transaction. -/
def run (method : Nat → β → Script σ β α) :
    Option (σ → σ) → Nat → List Fate → Script σ β α → σ → σ × β × α
  | _, _, [], p, s => p.finish s
  | _, _, _ :: _, done out a, s => (s, out, a)
  | undo, n, .ok :: fates, exec _ stmt next, s =>
    run method undo n fates (next (stmt s).2) (stmt s).1
  | undo, n, .lost executed :: fates, exec out stmt _, s =>
    run method none (n + 1) fates (method (n + 1) out)
      (undo.getD id (if executed then (stmt s).1 else s))
  | undo, n, .ok :: fates, once _ stmt next, s =>
    run method undo n fates (next (some (stmt s).2)) (stmt s).1
  | undo, n, .lost executed :: fates, once _ stmt next, s =>
    run method none n fates (next none) (undo.getD id (if executed then (stmt s).1 else s))

/-- A method of one statement. -/
def single (stmt : σ → σ × γ) (f : β → γ → β × α) (out : β) : Script σ β α :=
  exec out stmt fun r => done (f out r).1 (f out r).2

/-- A method of statements that answer nothing. -/
def writes (a : α) (out : β) : List (σ → σ) → Script σ β α
  | [] => done out a
  | w :: ws => exec out (fun s => (w s, ())) fun _ => writes a out ws

/-- The effect of all the statements. -/
def effect (ws : List (σ → σ)) (s : σ) : σ := ws.foldl (fun s w => w s) s

/-! ## Invariants -/

/-- `G` is kept by every statement and by every loss outside of a transaction. -/
structure Kept (method : Nat → β → Script σ β α) (G : Script σ β α → σ → Prop) : Prop where
  ok : ∀ {γ : Type} {out : β} {stmt : σ → σ × γ} {next : γ → Script σ β α} {s : σ},
    G (exec out stmt next) s → G (next (stmt s).2) (stmt s).1
  lost : ∀ {γ : Type} {out : β} {stmt : σ → σ × γ} {next : γ → Script σ β α} {s : σ} {n : Nat},
    G (exec out stmt next) s → G (method n out) (stmt s).1 ∧ G (method n out) s
  once : ∀ {γ : Type} {out : β} {stmt : σ → σ × γ} {next : Option γ → Script σ β α} {s : σ},
    G (once out stmt next) s →
      G (next (some (stmt s).2)) (stmt s).1 ∧ G (next none) (stmt s).1 ∧ G (next none) s

theorem Kept.finish {G : Script σ β α → σ → Prop} (hG : Kept method G) (h : G p s) :
    ∃ s' out a, G (done out a) s' ∧ p.finish s = (s', out, a) := by
  induction p generalizing s with
  | done out a => exact ⟨s, out, a, h, rfl⟩
  | exec out stmt next ih => exact ih _ (hG.ok h)
  | once out stmt next ih => exact ih _ (hG.once h).1

/-- The run ends where the invariant holds. -/
theorem Kept.run {G : Script σ β α → σ → Prop} (hG : Kept method G) (fates : List Fate)
    (h : G p s) : ∃ s' out a, G (done out a) s' ∧ run method none n fates p s = (s', out, a) := by
  induction fates generalizing p s n with
  | nil => exact hG.finish h
  | cons fate fates ih =>
    cases p with
    | done out a => exact ⟨s, out, a, h, rfl⟩
    | exec out stmt next =>
      cases fate with
      | ok => exact ih (hG.ok h)
      | lost executed =>
        cases executed with
        | false => exact ih (hG.lost h).2
        | true => exact ih (hG.lost h).1
    | once out stmt next =>
      obtain ⟨hanswer, hwritten, hkept⟩ := hG.once h
      cases fate with
      | ok => exact ih hanswer
      | lost executed =>
        cases executed with
        | false => exact ih hkept
        | true => exact ih hwritten

/-! ## One statement -/

theorem finish_writes (a : α) (out : β) (ws : List (σ → σ)) (s : σ) :
    (writes a out ws).finish s = (effect ws s, out, a) := by
  induction ws generalizing s with
  | nil => rfl
  | cons w ws ih => exact ih (w s)

/-- A statement that is repeated and commutes with the others makes no difference. -/
theorem effect_apply {ws : List (σ → σ)} {w : σ → σ} (hw : w ∈ ws) (hidem : ∀ s, w (w s) = w s)
    (hcomm : ∀ v ∈ ws, ∀ s, v (w s) = w (v s)) (s : σ) : effect ws (w s) = effect ws s := by
  induction ws generalizing s with
  | nil => cases hw
  | cons v ws ih =>
    simp only [effect, List.foldl_cons]
    rcases List.mem_cons.mp hw with rfl | hw
    · rw [hidem]
    · rw [hcomm v List.mem_cons_self]
      exact ih hw (fun u hu => hcomm u (List.mem_cons_of_mem _ hu)) (v s)

theorem effect_of_fixed {ws : List (σ → σ)} (h : ∀ w ∈ ws, w s = s) : effect ws s = s := by
  induction ws with
  | nil => rfl
  | cons w ws ih =>
    simp only [effect, List.foldl_cons]
    rw [h w List.mem_cons_self]
    exact ih fun v hv => h v (List.mem_cons_of_mem _ hv)

/-- Statements without effect stay so after the next one, which has no effect then either. -/
theorem fixed_append_singleton {ws before after : List (σ → σ)} {w : σ → σ}
    (hidem : ∀ w ∈ ws, ∀ s, w (w s) = w s) (hcomm : ∀ w ∈ ws, ∀ v ∈ ws, ∀ s, v (w s) = w (v s))
    (hws : ws = before ++ w :: after) (hfixed : ∀ v ∈ before, v s = s) :
    ∀ v ∈ before ++ [w], v (w s) = w s := by
  have hw : w ∈ ws := by
    rw [hws]
    exact List.mem_append_right _ List.mem_cons_self
  intro v hv
  rcases List.mem_append.mp hv with hv | hv
  · have hv' : v ∈ ws := by
      rw [hws]
      exact List.mem_append_left _ hv
    rw [hcomm w hw v hv', hfixed v hv]
  · rw [List.mem_singleton.mp hv]
    exact hidem w hw s

/-- What a client sees of a statement. -/
inductive Outcome
  | ok
  | failed
  | lost (executed : Bool)
  deriving DecidableEq, Repr

/-- The run in which the statements have the given outcomes; no statement after the last fails. A
method gives up with the answer `b` when a statement of `exec` fails, and when the connection is lost
unless it starts again. -/
def attempt (again : Bool) (method : β → Script σ β α) (b : α) :
    List Outcome → Script σ β α → σ → σ × β × α
  | [], p, s => p.finish s
  | _ :: _, done out a, s => (s, out, a)
  | .ok :: os, exec _ stmt next, s => attempt again method b os (next (stmt s).2) (stmt s).1
  | .failed :: _, exec out _ _, s => (s, out, b)
  | .lost executed :: os, exec out stmt _, s =>
    if again then attempt again method b os (method out) (if executed then (stmt s).1 else s)
    else (if executed then (stmt s).1 else s, out, b)
  | .ok :: os, once _ stmt next, s =>
    attempt again method b os (next (some (stmt s).2)) (stmt s).1
  | .failed :: os, once _ _ next, s => attempt again method b os (next none) s
  | .lost executed :: os, once _ stmt next, s =>
    attempt again method b os (next none) (if executed then (stmt s).1 else s)

/-- The statements that are executed before the method gives up, if it does. -/
def executedBefore (again : Bool) (all : List (σ → σ)) :
    List Outcome → List (σ → σ) → Option (List (σ → σ))
  | [], _ => none
  | _ :: _, [] => none
  | .ok :: os, w :: ws => (executedBefore again all os ws).map (w :: ·)
  | .failed :: _, _ :: _ => some []
  | .lost executed :: os, w :: _ =>
    let before := if executed then [w] else []
    if again then (executedBefore again all os all).map (before ++ ·) else some before

section Attempt

variable {again : Bool} {ws after l : List (σ → σ)} {a b : α} {out : β} {os : List Outcome}

theorem effect_append (l l' : List (σ → σ)) (s : σ) : effect (l ++ l') s = effect l' (effect l s) :=
  List.foldl_append

theorem effect_comm {w : σ → σ} (hcomm : ∀ v ∈ l, ∀ s, v (w s) = w (v s)) (s : σ) :
    effect l (w s) = w (effect l s) := by
  induction l generalizing s with
  | nil => rfl
  | cons v l ih =>
    simp only [effect, List.foldl_cons]
    rw [hcomm v List.mem_cons_self]
    exact ih (fun u hu => hcomm u (List.mem_cons_of_mem _ hu)) (v s)

theorem mem_of_executedBefore (h : executedBefore again ws os after = some l)
    (hafter : ∀ w ∈ after, w ∈ ws) : ∀ w ∈ l, w ∈ ws := by
  induction os generalizing after l with
  | nil => cases h
  | cons o os ih =>
    cases after with
    | nil => cases h
    | cons v after =>
      have hv := hafter v List.mem_cons_self
      have hcons : ∀ l : List (σ → σ), (∀ w ∈ l, w ∈ ws) → ∀ w ∈ v :: l, w ∈ ws := by
        intro l hl w hw
        rcases List.mem_cons.mp hw with rfl | hw
        · exact hv
        · exact hl w hw
      cases o with
      | ok =>
        obtain ⟨l, hl, rfl⟩ := Option.map_eq_some_iff.mp h
        exact hcons l (ih hl fun w hw => hafter w (List.mem_cons_of_mem _ hw))
      | failed =>
        obtain rfl := Option.some.inj h
        exact nofun
      | lost executed =>
        cases again with
        | false =>
          obtain rfl := Option.some.inj h
          cases executed with
          | false => exact nofun
          | true => exact hcons [] nofun
        | true =>
          obtain ⟨l, hl, rfl⟩ := Option.map_eq_some_iff.mp h
          cases executed with
          | false => exact ih hl fun w hw => hw
          | true => exact hcons l (ih hl fun w hw => hw)

theorem attempt_of_executedBefore (h : executedBefore again ws os after = some l) :
    attempt again (fun out => writes a out ws) b os (writes a out after) s = (effect l s, out, b) := by
  induction os generalizing after l s with
  | nil => cases h
  | cons o os ih =>
    cases after with
    | nil => cases h
    | cons w after =>
      cases o with
      | ok =>
        obtain ⟨l, hl, rfl⟩ := Option.map_eq_some_iff.mp h
        exact ih hl
      | failed =>
        obtain rfl := Option.some.inj h
        rfl
      | lost executed =>
        cases again with
        | false =>
          obtain rfl := Option.some.inj h
          cases executed <;> rfl
        | true =>
          obtain ⟨l, hl, rfl⟩ := Option.map_eq_some_iff.mp h
          rw [effect_append]
          cases executed with
          | false => exact ih hl
          | true => exact ih hl

/-- Without a failure all statements are executed. -/
theorem attempt_of_executedBefore_none (hidem : ∀ w ∈ ws, ∀ s, w (w s) = w s)
    (hcomm : ∀ w ∈ ws, ∀ v ∈ ws, ∀ s, v (w s) = w (v s))
    (h : executedBefore again ws os after = none) {before : List (σ → σ)}
    (hws : ws = before ++ after) (hfixed : ∀ w ∈ before, w s = s) :
    attempt again (fun out => writes a out ws) b os (writes a out after) s =
      (effect ws s, out, a) := by
  have hafter : effect ws s = effect after s := by
    rw [hws, effect_append, effect_of_fixed hfixed]
  induction os generalizing before after s with
  | nil => exact (finish_writes a out after s).trans (by rw [hafter])
  | cons o os ih =>
    cases after with
    | nil =>
      rw [hafter]
      rfl
    | cons w after =>
      have hw : w ∈ ws := by
        rw [hws]
        exact List.mem_append_right _ List.mem_cons_self
      have heffect := effect_apply hw (hidem w hw) (hcomm w hw) s
      cases o with
      | failed => cases h
      | ok =>
        have hws' : ws = before ++ [w] ++ after := by
          rw [hws, List.append_assoc, List.singleton_append]
        have hfixed' := fixed_append_singleton hidem hcomm hws hfixed
        have hrun := ih (Option.map_eq_none_iff.mp h) hws' hfixed'
          (by rw [hws', effect_append, effect_of_fixed hfixed'])
        rw [heffect] at hrun
        exact hrun
      | lost executed =>
        cases again with
        | false => cases h
        | true =>
          have hnone := Option.map_eq_none_iff.mp h
          cases executed with
          | false => exact ih hnone (List.nil_append ws).symm nofun rfl
          | true =>
            have hrun := ih hnone (List.nil_append ws).symm (s := w s) nofun rfl
            rw [heffect] at hrun
            exact hrun

theorem effect_related {R : σ → σ → Prop} (hcongr : ∀ w ∈ l, ∀ s t, R s t → R (w s) (w t))
    {t : σ} (h : R s t) : R (effect l s) (effect l t) := by
  induction l generalizing s t with
  | nil => exact h
  | cons w l ih =>
    exact ih (fun v hv => hcongr v (List.mem_cons_of_mem _ hv)) (hcongr w List.mem_cons_self s t h)

/-- Statements that can be repeated and commute do not undo each other: the state is the same
afterwards if and only if it is the same after each of them. -/
theorem effect_related_iff {R : σ → σ → Prop} (hR : Equivalence R)
    (hcongr : ∀ w ∈ l, ∀ s t, R s t → R (w s) (w t)) (hidem : ∀ w ∈ l, ∀ s, w (w s) = w s)
    (hcomm : ∀ w ∈ l, ∀ v ∈ l, ∀ s, v (w s) = w (v s)) :
    R (effect l s) s ↔ ∀ w ∈ l, R (w s) s := by
  constructor
  · intro h w hw
    have heffect := effect_apply hw (hidem w hw) (hcomm w hw) s
    have hrelated : R (effect l s) (w s) := by
      have happly := hcongr w hw _ _ h
      rwa [← effect_comm (hcomm w hw), heffect] at happly
    exact hR.trans (hR.symm hrelated) h
  · intro h
    induction l with
    | nil => exact hR.refl s
    | cons w l ih =>
      have hrest := ih (fun v hv => hcongr v (List.mem_cons_of_mem _ hv))
        (fun v hv => hidem v (List.mem_cons_of_mem _ hv))
        (fun v hv u hu => hcomm v (List.mem_cons_of_mem _ hv) u (List.mem_cons_of_mem _ hu))
        fun v hv => h v (List.mem_cons_of_mem _ hv)
      exact hR.trans (effect_related (fun v hv => hcongr v (List.mem_cons_of_mem _ hv))
        (h w List.mem_cons_self)) hrest

end Attempt

end Script

end Spectrum.Lib
