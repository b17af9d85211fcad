import Spectrum.Http.ThreadPool

/-!
# What `getActiveThreadCount` counts

The counter is decreased twice when a job is started, by `getFreeThread` and after the thread was
created, and increased once when its slot is released. So it also counts the jobs that are over.
-/

namespace Spectrum.ThreadPool

open Lib

def State.getActiveThreadCount (s : State) : Int := s.activeThreads

/-- The jobs whose slot was released in a run. -/
def completed (tr : List (State × Event)) : Nat := tr.countP fun p => decide (p.2 = .finalized)

/-- Two for every running job and one for each of the `n` jobs that are over. -/
def Counted (s : State) (n : Nat) : Prop := s.activeThreads = -(2 * s.worker.length + n : Int)

section Steps

variable {maxThreads n : Nat} {s s' : State} {t : Thread} {q : List Nat}

theorem counted_launch {w : Nat} {free : List Nat} {job : Nat} (h : Counted s n) :
    Counted (s.launch w free job q) n := by
  unfold Counted at h ⊢
  have hcount : (s.launch w free job q).activeThreads = s.activeThreads - 2 := by
    simp only [State.launch, State.start]
    omega
  have hlength : (s.launch w free job q).worker.length = s.worker.length + 1 := by
    simp [State.launch, State.start]
  omega

theorem counted_schedule (h : Counted s n) : Counted (State.schedule q s) n := by
  induction q generalizing s with
  | nil => exact h
  | cons job q ih =>
    unfold State.schedule State.getFreeThread
    cases s.freeThreads with
    | nil => exact h
    | cons w free => exact ih (counted_launch h)

theorem counted_runAsThread (hstall : NoStall s) (h : Counted s n) :
    Counted s.runAsThread n := by
  rcases runAsThread_cases hstall with ⟨-, heq⟩ | ⟨w, free, -, -, heq⟩
  · rw [heq]
    exact h
  · rw [heq]
    exact counted_launch (s := s.push) h

/-- A thread leaves its own slot only. -/
theorem Sound.length_delete (h : Sound maxThreads s) (ht : t ∈ s.worker) :
    (s.delete maxThreads t).worker.length + 1 = s.worker.length := by
  have hwid : t.wid ∈ s.worker.map Thread.wid := List.mem_map_of_mem ht
  have hlength := congrArg List.length (h.map_wid_filter t)
  rw [List.length_map, List.length_erase_of_mem hwid, List.length_map] at hlength
  have hpos : 0 < s.worker.length := List.length_pos_of_mem ht
  rw [h.delete_eq ht]
  change (s.worker.filter fun t' => decide (t'.wid ≠ t.wid)).length + 1 = s.worker.length
  omega

theorem Sound.counted_delete (h : Sound maxThreads s) (ht : t ∈ s.worker) (hcount : Counted s n) :
    Counted (s.delete maxThreads t) (n + 1) := by
  have hlength := h.length_delete ht
  have hnext : (s.delete maxThreads t).activeThreads = s.activeThreads + 1 := by
    rw [h.delete_eq ht]
  unfold Counted at hcount ⊢
  omega

end Steps

section Runs

variable {maxThreads : Nat} {s s' : State} {tr tr' : List (State × Event)}

theorem counted_of_run (h : (machine maxThreads).Run tr s) : Counted s (completed tr) := by
  induction h with
  | init hinit =>
    rw [hinit]
    rfl
  | @step tr s s' e hrun hs ih =>
    obtain ⟨hsound, hstall⟩ := sound_of_run hrun
    have hcompleted : completed ((s, e) :: tr) = completed tr + if e = .finalized then 1 else 0 := by
      simp [completed, List.countP_cons]
    rw [hcompleted]
    cases e with
    | runAsThread =>
      cases hs
      exact counted_runAsThread hstall ih
    | ran t =>
      simp only [machine, step] at hs
      split at hs
      · cases hs
        exact ih
      · cases hs
    | cleandUp =>
      simp only [machine, step] at hs
      split at hs
      · cases hs
        exact ih
      · cases hs
    | finalized =>
      obtain ⟨t, ht, rfl⟩ := Option.map_eq_some_iff.mp hs
      exact counted_schedule (hsound.counted_delete (hsound.finalizing t ht).1 ih)

/-- The distance of the counter from where it started. -/
theorem activeThreadCount_of_run (h : (machine maxThreads).Run tr s) :
    s.getActiveThreadCount - (State.create maxThreads).getActiveThreadCount =
      -(2 * s.worker.length + completed tr : Int) := by
  have hcount := counted_of_run h
  have hinit : (State.create maxThreads).getActiveThreadCount = 0 := rfl
  unfold Counted at hcount
  rw [hinit, State.getActiveThreadCount, hcount, sub_zero]

/-- Two histories with equally many running jobs agree in the counter if and only if equally many
jobs are over, and when nothing runs and nothing waits the counter is back where it started if and
only if no job is over. -/
theorem activeThreadCount_agrees_iff (h : (machine maxThreads).Run tr s)
    (h' : (machine maxThreads).Run tr' s') (hrunning : s.worker.length = s'.worker.length) :
    (s.getActiveThreadCount - (State.create maxThreads).getActiveThreadCount =
        s'.getActiveThreadCount - (State.create maxThreads).getActiveThreadCount ↔
      completed tr = completed tr') ∧
    (s.worker = [] → s.requestQueue = [] →
      (s.getActiveThreadCount - (State.create maxThreads).getActiveThreadCount = 0 ↔
        completed tr = 0)) := by
  rw [activeThreadCount_of_run h, activeThreadCount_of_run h', hrunning]
  constructor
  · omega
  · intro hworker _
    have hzero : s'.worker.length = 0 := by
      rw [← hrunning, hworker]
      rfl
    omega

end Runs

namespace Sample

/-- One job from its submission to the release of its slot. -/
def oneJob : List Event := [.runAsThread, .ran ⟨0, 0⟩, .cleandUp, .finalized]

end Sample

theorem activeThreadCount_agrees_iff_running : ∃ tr s tr' s',
    (machine 2).Run tr s ∧ (machine 2).Run tr' s' ∧ s.worker.length = 1 ∧ s'.worker.length = 1 ∧
    (s.getActiveThreadCount - (State.create 2).getActiveThreadCount =
        s'.getActiveThreadCount - (State.create 2).getActiveThreadCount ↔
      completed tr = completed tr') := by
  have hexec : ((machine 2).exec (.create 2) (Sample.oneJob ++ [.runAsThread])).any
      (fun s => decide (s.worker.length = 1)) = true := by
    decide +kernel
  obtain ⟨s, hs, hone⟩ := (Option.any_eq_true _ _).mp hexec
  have hone := of_decide_eq_true hone
  obtain ⟨tr, hrun, -⟩ := Machine.exists_run_of_exec rfl hs
  have hrun' : (machine 2).Run [(.create 2, .runAsThread)] (State.create 2).runAsThread :=
    .step (.init rfl) rfl
  exact ⟨tr, s, _, _, hrun, hrun', hone, rfl, (activeThreadCount_agrees_iff hrun hrun' hone).1⟩

/-- After one job the pool is idle again, and the counter is not where it was. -/
theorem activeThreadCount_drifts : ∃ tr s tr' s',
    (machine 2).Run tr s ∧ (machine 2).Run tr' s' ∧ s.worker.length = s'.worker.length ∧
    s.worker = [] ∧ s.requestQueue = [] ∧
    s.getActiveThreadCount - (State.create 2).getActiveThreadCount ≠ 0 ∧
    s.getActiveThreadCount - (State.create 2).getActiveThreadCount ≠
      s'.getActiveThreadCount - (State.create 2).getActiveThreadCount := by
  have hexec : ((machine 2).exec (.create 2) Sample.oneJob).any (fun s => decide (
      s.worker = [] ∧ s.requestQueue = [] ∧ s.activeThreads = -1)) = true := by
    decide +kernel
  obtain ⟨s, hs, hfacts⟩ := (Option.any_eq_true _ _).mp hexec
  obtain ⟨hworker, hqueue, hcount⟩ := of_decide_eq_true hfacts
  obtain ⟨tr, hrun, -⟩ := Machine.exists_run_of_exec rfl hs
  have hmoved : s.getActiveThreadCount - (State.create 2).getActiveThreadCount = -1 := by
    rw [State.getActiveThreadCount, hcount]
    rfl
  refine ⟨tr, s, [], .create 2, hrun, .init rfl, by rw [hworker]; rfl, hworker, hqueue, ?_, ?_⟩
  · rw [hmoved]
    decide
  · rw [hmoved]
    decide

end Spectrum.ThreadPool
