import Mathlib.Logic.Function.Iterate
import Spectrum.Lib.Machine

/-!
# HTTPRequestQueue

Requests are executed one after the other, with a pause of the queue timer between them. The timer
keeps running when a request is queued in the pause and executed at once; if it then ticks while the
queue is empty, it takes the request that is in flight for finished. A request is named by the number
of its `queueRequest`.
-/

namespace Spectrum.RequestQueue

open Lib

/-- The members of the queue, whether its timer is armed, the requests that the pool has and those
that were ever executed. -/
structure State where
  queue : List Nat := []
  req : Option Nat := none
  timer : Bool := false
  inFlight : List Nat := []
  queued : Nat := 0
  executed : List Nat := []
  deriving DecidableEq, Repr

namespace State

variable (s : State)

/-- `HTTPRequest::execute` of a request that has a pool. -/
def execute (req : Nat) : State :=
  { s with inFlight := s.inFlight ++ [req], executed := s.executed ++ [req] }

def sendNextRequest : State :=
  match s.queue with
  | [] => { s with req := none, timer := false }
  | req :: queue =>
    if s.req.isSome then s
    else ({ s with req := some req, queue } : State).execute req

def queueRequest : State :=
  let s := { s with queue := s.queue ++ [s.queued], queued := s.queued + 1 }
  if s.req.isNone then s.sendNextRequest else s

def handleRequestFinished : State := { s with req := none, timer := true }

/-- `HTTPRequest::finalize`: the callback queues `n` requests, then the request is finished. -/
def finalize (req n : Nat) : State :=
  let s := queueRequest^[n] s
  ({ s with inFlight := s.inFlight.erase req } : State).handleRequestFinished

end State

/-- The timer may be one that goes on ticking. -/
inductive Event
  | queueRequest
  | finalize (req n : Nat)
  | tick (again : Bool)
  deriving DecidableEq, Repr

def step (s : State) : Event → Option State
  | .queueRequest => some s.queueRequest
  | .finalize req n => if req ∈ s.inFlight then some (s.finalize req n) else none
  | .tick again =>
    if s.timer then some ({ s with timer := again } : State).sendNextRequest else none

def machine : Machine State Event where
  init s := s = {}
  step := step

/-- One request at most is in flight, `m_req` is set while one is, the requests are executed once
and in their order, and something will take the next one from the queue. -/
structure Orderly (s : State) : Prop where
  one : s.inFlight.length ≤ 1
  req : s.req.isSome ↔ s.inFlight ≠ []
  order : s.executed ++ s.queue = List.range s.queued
  wakes : s.queue ≠ [] → s.inFlight ≠ [] ∨ s.timer

/-- A tick that finds the queue empty finds no request in flight. -/
def Idle (s : State) : Event → Prop
  | .tick _ => s.queue = [] → s.inFlight = []
  | .queueRequest | .finalize _ _ => True

instance (s : State) (e : Event) : Decidable (Idle s e) :=
  match e with
  | .tick _ => inferInstanceAs (Decidable (s.queue = [] → s.inFlight = []))
  | .queueRequest | .finalize _ _ => inferInstanceAs (Decidable True)

/-- As long as the ticks find the queue idle, `m_req` is the request in flight. -/
structure Sound (s : State) : Prop where
  req : s.inFlight = s.req.toList
  order : s.executed ++ s.queue = List.range s.queued
  wakes : s.queue ≠ [] → s.req ≠ none ∨ s.timer

section Steps

variable {s s' : State} {e : Event} {req : Nat}

theorem Sound.orderly (h : Sound s) : Orderly s := by
  constructor
  · rw [h.req]
    cases s.req <;> simp
  · rw [h.req]
    cases s.req <;> simp
  · exact h.order
  · intro hne
    rw [h.req]
    refine (h.wakes hne).imp_left fun hreq => ?_
    obtain ⟨req, heq⟩ := Option.ne_none_iff_exists'.mp hreq
    rw [heq]
    exact List.cons_ne_nil _ _

theorem sendNextRequest_of_nil (hqueue : s.queue = []) :
    s.sendNextRequest = { s with req := none, timer := false } := by
  rw [State.sendNextRequest, hqueue]

theorem sendNextRequest_of_some {req : Nat} (hne : s.queue ≠ []) (hreq : s.req = some req) :
    s.sendNextRequest = s := by
  obtain ⟨next, queue, hqueue⟩ := List.exists_cons_of_ne_nil hne
  rw [State.sendNextRequest, hqueue, hreq]
  rfl

theorem sendNextRequest_of_none {next : Nat} {queue : List Nat} (hqueue : s.queue = next :: queue)
    (hreq : s.req = none) :
    s.sendNextRequest =
      { s with
        req := some next
        queue
        inFlight := s.inFlight ++ [next]
        executed := s.executed ++ [next] } := by
  rw [State.sendNextRequest, hqueue, hreq]
  rfl

/-- The next request is executed where none is. -/
theorem sound_sendNextRequest (hreq : s.req = none) (hflight : s.inFlight = [])
    (horder : s.executed ++ s.queue = List.range s.queued) : Sound s.sendNextRequest := by
  cases hqueue : s.queue with
  | nil =>
    rw [sendNextRequest_of_nil hqueue]
    exact ⟨hflight, horder, fun hne => absurd hqueue hne⟩
  | cons next queue =>
    rw [sendNextRequest_of_none hqueue hreq]
    refine ⟨?_, ?_, fun _ => Or.inl nofun⟩
    · rw [hflight]
      rfl
    · rw [hqueue] at horder
      rw [← horder, List.append_assoc]
      rfl

theorem Sound.inFlight_of_none (h : Sound s) (hreq : s.req = none) : s.inFlight = [] := by
  rw [h.req, hreq]
  rfl

/-- A request is queued while another one is in flight, or it is executed. -/
theorem queueRequest_cases (s : State) :
    (∃ req, s.req = some req ∧ s.queueRequest =
      { s with queue := s.queue ++ [s.queued], queued := s.queued + 1 }) ∨
    s.req = none ∧ s.queueRequest =
      ({ s with queue := s.queue ++ [s.queued], queued := s.queued + 1 } :
        State).sendNextRequest := by
  unfold State.queueRequest
  cases hreq : s.req with
  | none => exact Or.inr ⟨rfl, rfl⟩
  | some req => exact Or.inl ⟨req, rfl, rfl⟩

theorem Sound.queueRequest (h : Sound s) : Sound s.queueRequest := by
  have horder : s.executed ++ (s.queue ++ [s.queued]) = List.range (s.queued + 1) := by
    rw [← List.append_assoc, h.order]
    exact List.range_succ.symm
  rcases queueRequest_cases s with ⟨req, hreq, heq⟩ | ⟨hreq, heq⟩
  · rw [heq]
    exact ⟨h.req, horder, fun _ => Or.inl (hreq ▸ nofun)⟩
  · rw [heq]
    exact sound_sendNextRequest hreq (h.inFlight_of_none hreq) horder

/-- What the callback of the request in flight queues has to wait. -/
theorem Sound.callback (h : Sound s) (hreq : s.req = some req) (n : Nat) :
    Sound (State.queueRequest^[n] s) ∧
      (State.queueRequest^[n] s).req = some req := by
  induction n generalizing s with
  | zero => exact ⟨h, hreq⟩
  | succ n ih =>
    refine ih h.queueRequest ?_
    rcases queueRequest_cases s with ⟨-, -, heq⟩ | ⟨hnone, -⟩
    · rw [heq]
      exact hreq
    · rw [hreq] at hnone
      cases hnone

theorem Sound.finalize (h : Sound s) (hmem : req ∈ s.inFlight) (n : Nat) :
    Sound (s.finalize req n) := by
  have hreq : s.req = some req := by
    rw [h.req] at hmem
    exact Option.mem_toList.mp hmem
  obtain ⟨hsound, hsame⟩ := h.callback hreq n
  refine ⟨?_, hsound.order, fun _ => Or.inr rfl⟩
  change (State.queueRequest^[n] s).inFlight.erase req = []
  rw [hsound.req, hsame]
  exact List.erase_cons_head req []

theorem Sound.tick (h : Sound s) (again : Bool) (hidle : s.queue = [] → s.inFlight = []) :
    Sound ({ s with timer := again } : State).sendNextRequest := by
  rcases Option.eq_none_or_eq_some s.req with hreq | ⟨req, hreq⟩
  · exact sound_sendNextRequest hreq (h.inFlight_of_none hreq) h.order
  · have hne : s.queue ≠ [] := by
      intro hqueue
      have hflight := hidle hqueue
      rw [h.req, hreq] at hflight
      cases hflight
    rw [sendNextRequest_of_some (s := { s with timer := again }) hne hreq]
    exact ⟨h.req, h.order, fun _ => Or.inl (hreq ▸ nofun)⟩

theorem Sound.step (h : Sound s) (hs : step s e = some s') (hidle : Idle s e) : Sound s' := by
  cases e with
  | queueRequest =>
    cases hs
    exact h.queueRequest
  | finalize req n =>
    simp only [RequestQueue.step] at hs
    split at hs
    · rename_i hmem
      cases hs
      exact h.finalize hmem n
    · cases hs
  | tick again =>
    simp only [RequestQueue.step] at hs
    split at hs
    · cases hs
      exact h.tick again hidle
    · cases hs

/-- A tick that takes the request in flight for finished is seen at once. -/
theorem idle_of_orderly (hs : step s e = some s') (horderly : Orderly s') : Idle s e := by
  cases e with
  | queueRequest => trivial
  | finalize req n => trivial
  | tick again =>
    intro hqueue
    simp only [RequestQueue.step] at hs
    split at hs
    · cases hs
      rw [sendNextRequest_of_nil (s := { s with timer := again }) hqueue] at horderly
      by_contra hne
      exact absurd (horderly.req.mpr hne) nofun
    · cases hs

end Steps

/-- The queue is orderly in every state of a run exactly when every tick that finds the queue empty
finds no request in flight. -/
theorem orderly_iff_idle {tr : List (State × Event)} {s : State} (h : machine.Run tr s) :
    Machine.Always Orderly tr s ↔ Machine.Meets Idle tr := by
  refine Machine.Run.always_iff (I := Sound) (fun s hinit => ?_) (fun s hs => hs.orderly)
    (fun s e s' hs hsound hidle => hsound.step hs hidle)
    (fun s e s' hs _ horderly => idle_of_orderly hs horderly) h
  rw [hinit]
  exact ⟨rfl, rfl, fun hne => absurd rfl hne⟩

namespace Sample

/-- The second request is queued in the pause, the third while the second one is in flight. -/
def idle : List Event :=
  [.queueRequest, .finalize 0 0, .queueRequest, .queueRequest, .tick true, .finalize 1 1, .tick true]

/-- The pause of the first request ends while the second one is in flight. -/
def late : List Event := [.queueRequest, .finalize 0 0, .queueRequest, .tick true, .queueRequest]

end Sample

theorem orderly_iff_idle_three : ∃ tr s, machine.Run tr s ∧ s.executed = [0, 1, 2] ∧
    Machine.Always Orderly tr s := by
  have hexec : ((machine.restrict Idle).exec {} Sample.idle).any (fun s => decide (
      s.executed = [0, 1, 2])) = true := by
    decide +kernel
  obtain ⟨s, hs, hexecuted⟩ := (Option.any_eq_true _ _).mp hexec
  obtain ⟨tr, hrun, hmeets⟩ := Machine.exists_run_of_restrict rfl hs
  exact ⟨tr, s, hrun, of_decide_eq_true hexecuted, (orderly_iff_idle hrun).mpr hmeets⟩

/-- Two requests are in flight. -/
theorem not_orderly_of_late : ∃ tr s, machine.Run tr s ∧ ¬ Orderly s := by
  have hexec : (machine.exec {} Sample.late).any (fun s => decide (
      s.inFlight = [1, 2])) = true := by
    decide +kernel
  obtain ⟨s, hs, hflight⟩ := (Option.any_eq_true _ _).mp hexec
  obtain ⟨tr, hrun, -⟩ := Machine.exists_run_of_exec rfl hs
  refine ⟨tr, s, hrun, fun horderly => ?_⟩
  have hone := horderly.one
  rw [of_decide_eq_true hflight] at hone
  exact absurd hone (by decide)

end Spectrum.RequestQueue
