import Mathlib.Algebra.Order.Ring.Nat
import Mathlib.Data.List.Nodup
import Spectrum.Lib.Machine

/-!
# ThreadPool

Jobs run in a fixed number of slots, and wait in a queue while no slot is free. A job is started
when it is submitted or when another one is cleaned up; `finalize` runs on the loop, before the slot
is released, and may submit jobs of its own. A job is named by the number of its submission.
-/

namespace Spectrum.ThreadPool

open Lib

/-- What happens to a job. -/
inductive Entry
  | started (job wid : Nat)
  | ran (job : Nat)
  | finalized (job : Nat)
  | deleted (job : Nat)
  deriving DecidableEq, Repr

namespace Entry

def job : Entry → Nat
  | started job _ | ran job | finalized job | deleted job => job

def startedJob : Entry → Option Nat
  | started job _ => some job
  | ran _ | finalized _ | deleted _ => none

end Entry

/-- A job in its slot. -/
structure Thread where
  wid : Nat
  job : Nat
  deriving DecidableEq, Repr

/-- What happens to a job that gets through. -/
def Thread.life (t : Thread) : List Entry :=
  [.started t.job t.wid, .ran t.job, .finalized t.job, .deleted t.job]

/-- The members of the pool, the events that are posted to the loop and the job whose `finalize` is
running. -/
structure State where
  freeThreads : List Nat
  requestQueue : List Nat := []
  worker : List Thread := []
  activeThreads : Int := 0
  events : List Thread := []
  finalizing : Option Thread := none
  submitted : Nat := 0
  log : List Entry := []
  deriving DecidableEq, Repr

namespace State

variable (maxThreads : Nat) (s : State)

def create : State := { freeThreads := List.range maxThreads }

/-- `new boost::thread` in a slot that has been taken. -/
def start (w job : Nat) : State :=
  { s with
    worker := s.worker ++ [⟨w, job⟩]
    activeThreads := s.activeThreads - 1
    log := s.log ++ [.started job w] }

def getFreeThread : Option (Nat × State) :=
  match s.freeThreads with
  | [] => none
  | w :: freeThreads => some (w, { s with freeThreads, activeThreads := s.activeThreads - 1 })

def releaseThread (i : Nat) : State :=
  if maxThreads < i then s
  else
    { s with
      worker := s.worker.filter fun t => decide (t.wid ≠ i)
      freeThreads := s.freeThreads ++ [i]
      activeThreads := s.activeThreads + 1 }

/-- The loop of `scheduleFromQueue`. -/
def schedule : List Nat → State → State
  | [], s => s
  | job :: requestQueue, s =>
    match s.getFreeThread with
    | none => s
    | some (w, s) => schedule requestQueue ({ s with requestQueue }.start w job)

def scheduleFromQueue : State := schedule s.requestQueue s

def runAsThread : State :=
  let job := s.submitted
  let s := { s with submitted := s.submitted + 1 }
  match s.getFreeThread with
  | some (w, s) => s.start w job
  | none => { s with requestQueue := s.requestQueue ++ [job] }

/-- `workerBody` after `run`. -/
def post (t : Thread) : State :=
  { s with events := s.events ++ [t], log := s.log ++ [.ran t.job] }

/-- `cleandUp` up to the call of `finalize`. -/
def finalize (t : Thread) (events : List Thread) : State :=
  { s with events, finalizing := some t, log := s.log ++ [.finalized t.job] }

/-- `cleandUp` after `finalize`, up to the signal. -/
def delete (t : Thread) : State :=
  ({ s with finalizing := none, log := s.log ++ [.deleted t.job] } : State).releaseThread
    maxThreads t.wid

/-- What has happened to a job. -/
def about (job : Nat) : List Entry := s.log.filter fun e => decide (e.job = job)

/-- How far the job in a slot is. -/
def stage (t : Thread) : Nat :=
  if s.finalizing = some t then 3 else if t ∈ s.events then 2 else 1

end State

/-- A call of `runAsThread` by the loop, in `finalize` or not; `run` returns; `cleandUp` begins; its
`finalize` returns. -/
inductive Event
  | runAsThread
  | ran (t : Thread)
  | cleandUp
  | finalized
  deriving DecidableEq, Repr

def step (maxThreads : Nat) (s : State) : Event → Option State
  | .runAsThread => some s.runAsThread
  | .ran t => if t ∈ s.worker ∧ s.stage t = 1 then some (s.post t) else none
  | .cleandUp =>
    match s.finalizing, s.events with
    | none, t :: events => some (s.finalize t events)
    | _, _ => none
  | .finalized => s.finalizing.map fun t => (s.delete maxThreads t).scheduleFromQueue

def machine (maxThreads : Nat) : Machine State Event where
  init s := s = .create maxThreads
  step := step maxThreads

/-! ## The invariant -/

/-- The slots are divided between the free ones and the threads, jobs are started in the order of
their submission, and what has happened to a job is the beginning of its life. -/
structure Sound (maxThreads : Nat) (s : State) : Prop where
  slots : (s.freeThreads ++ s.worker.map Thread.wid).Perm (List.range maxThreads)
  order : s.log.filterMap Entry.startedJob ++ s.requestQueue = List.range s.submitted
  jobs : (s.worker.map Thread.job).Nodup
  events : s.events.Nodup ∧ s.events ⊆ s.worker
  finalizing : ∀ t, s.finalizing = some t → t ∈ s.worker ∧ t ∉ s.events
  waiting : ∀ job, job ∈ s.requestQueue ∨ s.submitted ≤ job → s.about job = []
  running : ∀ t ∈ s.worker, s.about t.job = t.life.take (s.stage t)
  finished : ∀ job < s.submitted, job ∉ s.requestQueue → job ∉ s.worker.map Thread.job →
    ∃ w, s.about job = (Thread.mk w job).life

/-- Nothing waits while a slot is free. -/
def NoStall (s : State) : Prop := s.requestQueue ≠ [] → s.freeThreads = []

section Log

variable {s s' : State} {e : Entry} {job : Nat} {t t' : Thread} {maxThreads : Nat}

theorem about_of_ne (hlog : s'.log = s.log ++ [e]) (hne : e.job ≠ job) :
    s'.about job = s.about job := by
  rw [State.about, hlog, List.filter_append, List.filter_singleton, decide_eq_false hne,
    cond_false, List.append_nil]
  rfl

theorem about_of_eq (hlog : s'.log = s.log ++ [e]) (heq : e.job = job) :
    s'.about job = s.about job ++ [e] := by
  rw [State.about, hlog, List.filter_append, List.filter_singleton, decide_eq_true heq,
    cond_true]
  rfl

theorem stage_pos (s : State) (t : Thread) : 1 ≤ s.stage t := by
  unfold State.stage
  split
  · decide
  · split <;> decide

theorem stage_eq_one : s.stage t = 1 ↔ s.finalizing ≠ some t ∧ t ∉ s.events := by
  unfold State.stage
  split
  · simp [*]
  · split <;> simp [*]

theorem Sound.about_ne_nil (h : Sound maxThreads s) (ht : t ∈ s.worker) : s.about t.job ≠ [] := by
  rw [h.running t ht]
  obtain ⟨n, hn⟩ := Nat.exists_eq_add_of_le (stage_pos s t)
  rw [hn, Nat.add_comm]
  exact List.cons_ne_nil _ _

theorem Sound.not_waiting (h : Sound maxThreads s) (ht : t ∈ s.worker) :
    t.job ∉ s.requestQueue ∧ t.job < s.submitted := by
  constructor
  · intro hmem
    exact h.about_ne_nil ht (h.waiting _ (Or.inl hmem))
  · by_contra hle
    exact h.about_ne_nil ht (h.waiting _ (Or.inr (Nat.le_of_not_lt hle)))

theorem Sound.job_ne (h : Sound maxThreads s) (ht : t ∈ s.worker) (ht' : t' ∈ s.worker)
    (hne : t ≠ t') : t.job ≠ t'.job := fun heq => hne (List.inj_on_of_nodup_map h.jobs ht ht' heq)

theorem Sound.queue_nodup (h : Sound maxThreads s) : s.requestQueue.Nodup :=
  (h.order ▸ List.nodup_range).of_append_right

theorem Sound.lt_submitted (h : Sound maxThreads s) (hjob : job ∈ s.requestQueue) :
    job < s.submitted := by
  rw [← List.mem_range, ← h.order]
  exact List.mem_append_right _ hjob

/-! An entry about a job in a slot leaves the other jobs as they are. -/

section Entry

variable (h : Sound maxThreads s) (ht : t ∈ s.worker) (hlog : s'.log = s.log ++ [e])
  (he : e.job = t.job)

include h in
theorem Sound.order_of_log (hlog : s'.log = s.log ++ [e]) (he : e.startedJob = none) :
    s'.log.filterMap Entry.startedJob ++ s.requestQueue = List.range s.submitted := by
  rw [hlog, List.filterMap_append, List.filterMap_cons_none he, List.filterMap_nil, List.append_nil]
  exact h.order

include h ht hlog he

theorem Sound.about_waiting (hjob : job ∈ s.requestQueue ∨ s.submitted ≤ job) :
    s'.about job = [] := by
  obtain ⟨hqueue, hlt⟩ := h.not_waiting ht
  have hne : e.job ≠ job := by
    rw [he]
    rintro rfl
    exact hjob.elim hqueue (Nat.not_le.mpr hlt)
  rw [about_of_ne hlog hne]
  exact h.waiting job hjob

theorem Sound.about_other (ht' : t' ∈ s.worker) (hne : t ≠ t') :
    s'.about t'.job = t'.life.take (s.stage t') := by
  rw [about_of_ne hlog (he.trans_ne (h.job_ne ht ht' hne))]
  exact h.running t' ht'

theorem Sound.about_finished (hjob : job < s.submitted) (hnot : job ∉ s.requestQueue)
    (hworker : job ∉ s.worker.map Thread.job) : ∃ w, s'.about job = (Thread.mk w job).life := by
  have hne : t.job ≠ job := fun heq => hworker (heq ▸ List.mem_map_of_mem ht)
  rw [about_of_ne hlog (he.trans_ne hne)]
  exact h.finished job hjob hnot hworker

end Entry

end Log

/-! ## What the members of the pool do -/

section Steps

variable {s : State} {job w : Nat} {t : Thread} {maxThreads : Nat} {free q : List Nat}

/-- A job is submitted and put into the queue. -/
def State.push (s : State) : State :=
  { s with submitted := s.submitted + 1, requestQueue := s.requestQueue ++ [s.submitted] }

/-- A job is started in the first free slot, the rest of the queue is `q`. -/
def State.launch (s : State) (w : Nat) (free : List Nat) (job : Nat) (q : List Nat) : State :=
  ({ s with freeThreads := free, activeThreads := s.activeThreads - 1, requestQueue := q } :
    State).start w job

theorem sound_create (maxThreads : Nat) : Sound maxThreads (.create maxThreads) where
  slots := by simp [State.create]
  order := rfl
  jobs := List.nodup_nil
  events := ⟨List.nodup_nil, List.nil_subset _⟩
  finalizing t ht := by cases ht
  waiting job _ := rfl
  running t ht := by cases ht
  finished job hjob := absurd hjob (Nat.not_lt_zero job)

theorem Sound.push (h : Sound maxThreads s) : Sound maxThreads s.push where
  slots := h.slots
  order := by
    change s.log.filterMap Entry.startedJob ++ (s.requestQueue ++ [s.submitted]) = _
    rw [← List.append_assoc, h.order]
    exact List.range_succ.symm
  jobs := h.jobs
  events := h.events
  finalizing := h.finalizing
  waiting job hjob := by
    refine h.waiting job ?_
    rcases hjob with hmem | hle
    · rcases List.mem_append.mp hmem with hmem | hmem
      · exact Or.inl hmem
      · exact Or.inr (Nat.le_of_eq (List.mem_singleton.mp hmem).symm)
    · exact Or.inr (Nat.le_of_succ_le hle)
  running := h.running
  finished job hjob hqueue hworker := by
    obtain ⟨hqueue, hne⟩ := not_or.mp (mt List.mem_append.mpr hqueue)
    have hlt : job < s.submitted :=
      Nat.lt_of_le_of_ne (Nat.le_of_lt_succ hjob) fun heq => hne (List.mem_singleton.mpr heq)
    exact h.finished job hlt hqueue hworker

theorem Sound.launch (h : Sound maxThreads s) (hqueue : s.requestQueue = job :: q)
    (hfree : s.freeThreads = w :: free) : Sound maxThreads (s.launch w free job q) := by
  have hjob : job ∈ s.requestQueue := by
    rw [hqueue]
    exact List.mem_cons_self
  have hnew : job ∉ s.worker.map Thread.job := by
    intro hmem
    obtain ⟨t, ht, heq⟩ := List.mem_map.mp hmem
    exact (h.not_waiting ht).1 (heq ▸ hjob)
  have hq : job ∉ q := by
    have hnodup := h.queue_nodup
    rw [hqueue] at hnodup
    exact (List.nodup_cons.mp hnodup).1
  have hlog : (s.launch w free job q).log = s.log ++ [.started job w] := rfl
  have hthread : (⟨w, job⟩ : Thread) ∉ s.worker := fun hmem =>
    hnew (List.mem_map_of_mem (f := Thread.job) hmem)
  constructor
  · change (free ++ (s.worker ++ [Thread.mk w job]).map Thread.wid).Perm _
    refine List.Perm.trans ?_ h.slots
    rw [hfree, List.map_append, ← List.append_assoc]
    exact List.perm_append_singleton w _
  · rw [hlog, List.filterMap_append, List.append_assoc]
    exact (congrArg _ hqueue.symm).trans h.order
  · change ((s.worker ++ [Thread.mk w job]).map Thread.job).Nodup
    rw [List.map_append]
    exact h.jobs.append (List.nodup_singleton _) (by simpa using hnew)
  · exact ⟨h.events.1, List.subset_append_of_subset_left _ h.events.2⟩
  · intro t ht
    exact ⟨List.mem_append_left _ (h.finalizing t ht).1, (h.finalizing t ht).2⟩
  · intro job' hjob'
    have hold : job' ∈ s.requestQueue ∨ s.submitted ≤ job' := by
      rw [hqueue]
      exact hjob'.imp_left (List.mem_cons_of_mem job)
    have hne : job ≠ job' := by
      rintro rfl
      rcases hjob' with hmem | hle
      · exact hq hmem
      · exact Nat.not_lt.mpr hle (h.lt_submitted hjob)
    rw [about_of_ne hlog hne]
    exact h.waiting job' hold
  · intro t ht
    rcases List.mem_append.mp ht with ht | ht
    · have hne : job ≠ t.job := fun heq => hnew (heq ▸ List.mem_map_of_mem ht)
      rw [about_of_ne hlog hne]
      exact h.running t ht
    · rw [List.mem_singleton.mp ht]
      have habout : (s.launch w free job q).about job = s.about job ++ [.started job w] :=
        about_of_eq hlog rfl
      have hstage : (s.launch w free job q).stage ⟨w, job⟩ = 1 :=
        stage_eq_one.mpr ⟨fun heq => hthread (h.finalizing _ heq).1,
          fun hmem => hthread (h.events.2 hmem)⟩
      rw [hstage, habout, h.waiting job (Or.inl hjob)]
      rfl
  · intro job' hlt hnot hworker
    change job' ∉ (s.worker ++ [Thread.mk w job]).map Thread.job at hworker
    rw [List.map_append, List.mem_append, not_or] at hworker
    obtain ⟨hworker, hne⟩ := hworker
    have hne : job' ≠ job := by simpa using hne
    have hnot' : job' ∉ s.requestQueue := by
      rw [hqueue, List.mem_cons, not_or]
      exact ⟨hne, hnot⟩
    obtain ⟨w', hlife⟩ := h.finished job' hlt hnot' hworker
    exact ⟨w', (about_of_ne hlog hne.symm).trans hlife⟩

/-- `run` of a job returns. -/
theorem Sound.post (h : Sound maxThreads s) (ht : t ∈ s.worker) (hstage : s.stage t = 1) :
    Sound maxThreads (s.post t) := by
  obtain ⟨hfinalizing, hevents⟩ := stage_eq_one.mp hstage
  have hlog : (s.post t).log = s.log ++ [.ran t.job] := rfl
  constructor
  · exact h.slots
  · exact h.order_of_log hlog rfl
  · exact h.jobs
  · refine ⟨h.events.1.append (List.nodup_singleton _) (by simpa using hevents), ?_⟩
    exact List.append_subset.mpr ⟨h.events.2, fun _ hmem => List.mem_singleton.mp hmem ▸ ht⟩
  · intro t' ht'
    obtain ⟨hmem, hnot⟩ := h.finalizing t' ht'
    refine ⟨hmem, fun hmem' => ?_⟩
    rcases List.mem_append.mp hmem' with hmem' | hmem'
    · exact hnot hmem'
    · exact hfinalizing (List.mem_singleton.mp hmem' ▸ ht')
  · exact fun job => h.about_waiting ht hlog rfl
  · intro t' ht'
    by_cases heq : t = t'
    · subst heq
      have hnext : (s.post t).stage t = 2 := by
        simp [State.stage, State.post, hfinalizing]
      have habout : (s.post t).about t.job = s.about t.job ++ [.ran t.job] :=
        about_of_eq hlog rfl
      rw [habout, h.running t ht, hstage, hnext]
      rfl
    · have hsame : (s.post t).stage t' = s.stage t' := by
        simp [State.stage, State.post, Ne.symm heq]
      rw [hsame]
      exact h.about_other ht hlog rfl ht' heq
  · exact fun job => h.about_finished ht hlog rfl

/-- `finalize` of the first job that is posted is called. -/
theorem Sound.finalize (h : Sound maxThreads s) {events : List Thread} (hnone : s.finalizing = none)
    (hevents : s.events = t :: events) : Sound maxThreads (s.finalize t events) := by
  have hlog : (s.finalize t events).log = s.log ++ [.finalized t.job] := rfl
  have hmem : t ∈ s.events := by
    rw [hevents]
    exact List.mem_cons_self
  have ht := h.events.2 hmem
  obtain ⟨hnot, hnodup⟩ := List.nodup_cons.mp (hevents ▸ h.events.1)
  constructor
  · exact h.slots
  · exact h.order_of_log hlog rfl
  · exact h.jobs
  · refine ⟨hnodup, fun t' ht' => h.events.2 ?_⟩
    rw [hevents]
    exact List.mem_cons_of_mem t ht'
  · intro t' ht'
    cases ht'
    exact ⟨ht, hnot⟩
  · exact fun job => h.about_waiting ht hlog rfl
  · intro t' ht'
    by_cases heq : t = t'
    · subst heq
      have hstage : s.stage t = 2 := by
        simp [State.stage, hnone, hmem]
      have hnext : (s.finalize t events).stage t = 3 := by
        simp [State.stage, State.finalize]
      have habout : (s.finalize t events).about t.job = s.about t.job ++ [.finalized t.job] :=
        about_of_eq hlog rfl
      rw [habout, h.running t ht, hstage, hnext]
      rfl
    · have hiff : t' ∈ events ↔ t' ∈ s.events := by
        rw [hevents, List.mem_cons]
        exact ⟨Or.inr, fun hmem' => hmem'.resolve_left (Ne.symm heq)⟩
      have hnew : (s.finalize t events).finalizing ≠ some t' := fun hsome =>
        heq (Option.some.inj hsome)
      have hold : s.finalizing ≠ some t' := by
        rw [hnone]
        exact (Option.some_ne_none t').symm
      have hsame : (s.finalize t events).stage t' = s.stage t' := by
        unfold State.stage
        rw [if_neg hnew, if_neg hold]
        exact if_congr hiff rfl rfl
      rw [hsame]
      exact h.about_other ht hlog rfl ht' heq
  · exact fun job => h.about_finished ht hlog rfl

theorem Sound.wid_lt (h : Sound maxThreads s) (ht : t ∈ s.worker) : t.wid < maxThreads :=
  List.mem_range.mp (h.slots.subset (List.mem_append_right _ (List.mem_map_of_mem ht)))

theorem Sound.wids_nodup (h : Sound maxThreads s) : (s.worker.map Thread.wid).Nodup :=
  (h.slots.nodup_iff.mpr List.nodup_range).of_append_right

theorem Sound.wid_ne (h : Sound maxThreads s) (ht : t ∈ s.worker) {t' : Thread} (ht' : t' ∈ s.worker)
    (hne : t ≠ t') : t'.wid ≠ t.wid := fun heq =>
  hne (List.inj_on_of_nodup_map h.wids_nodup ht ht' heq.symm)

/-- The slot of a thread is put to the end of the free ones. -/
theorem Sound.delete_eq (h : Sound maxThreads s) (ht : t ∈ s.worker) :
    s.delete maxThreads t =
      { s with
        finalizing := none
        log := s.log ++ [.deleted t.job]
        worker := s.worker.filter fun t' => decide (t'.wid ≠ t.wid)
        freeThreads := s.freeThreads ++ [t.wid]
        activeThreads := s.activeThreads + 1 } := by
  unfold State.delete State.releaseThread
  exact if_neg (Nat.not_lt.mpr (Nat.le_of_lt (h.wid_lt ht)))

/-- A thread takes its own slot away only. -/
theorem Sound.map_wid_filter (h : Sound maxThreads s) (t : Thread) :
    (s.worker.filter fun t' => decide (t'.wid ≠ t.wid)).map Thread.wid =
      (s.worker.map Thread.wid).erase t.wid := by
  rw [h.wids_nodup.erase_eq_filter, List.filter_map]
  refine congrArg _ (List.filter_congr fun t' _ => ?_)
  rw [Bool.eq_iff_iff]
  simp

/-- The job is deleted and its slot is released. -/
theorem Sound.delete (h : Sound maxThreads s) (hfinalizing : s.finalizing = some t) :
    Sound maxThreads (s.delete maxThreads t) := by
  obtain ⟨ht, hnot⟩ := h.finalizing t hfinalizing
  have hdelete := h.delete_eq ht
  have hlog : (s.delete maxThreads t).log = s.log ++ [.deleted t.job] := by
    rw [hdelete]
  have hlife : (s.delete maxThreads t).about t.job = t.life := by
    have hstage : s.stage t = 3 := by
      simp [State.stage, hfinalizing]
    have habout : (s.delete maxThreads t).about t.job = s.about t.job ++ [.deleted t.job] :=
      about_of_eq hlog rfl
    rw [habout, h.running t ht, hstage]
    rfl
  constructor
  · rw [hdelete]
    change (s.freeThreads ++ [t.wid] ++ (s.worker.filter _).map Thread.wid).Perm _
    refine List.Perm.trans ?_ h.slots
    rw [h.map_wid_filter, List.append_assoc]
    exact (List.perm_cons_erase (List.mem_map_of_mem ht)).symm.append_left _
  · have horder := h.order_of_log hlog rfl
    rw [hdelete] at horder ⊢
    exact horder
  · rw [hdelete]
    exact h.jobs.sublist (List.filter_sublist.map _)
  · rw [hdelete]
    refine ⟨h.events.1, fun t' ht' => List.mem_filter.mpr ⟨h.events.2 ht', ?_⟩⟩
    exact decide_eq_true (h.wid_ne ht (h.events.2 ht') fun heq => hnot (heq ▸ ht'))
  · intro t' ht'
    rw [hdelete] at ht'
    cases ht'
  · intro job hjob
    rw [hdelete] at hjob
    exact h.about_waiting ht hlog rfl hjob
  · intro t' ht'
    have hmem : t' ∈ s.worker ∧ t'.wid ≠ t.wid := by
      rw [hdelete] at ht'
      simpa using List.mem_filter.mp ht'
    have hne : t ≠ t' := by
      rintro rfl
      exact hmem.2 rfl
    have hsame : (s.delete maxThreads t).stage t' = s.stage t' := by
      rw [hdelete]
      simp [State.stage, hfinalizing, hne]
    rw [hsame]
    exact h.about_other ht hlog rfl hmem.1 hne
  · intro job hjob hnot' hworker
    rw [hdelete] at hjob hnot' hworker
    by_cases heq : t.job = job
    · subst heq
      exact ⟨t.wid, hlife⟩
    · have hgone : job ∉ s.worker.map Thread.job := by
        intro hmem
        obtain ⟨t', ht', rfl⟩ := List.mem_map.mp hmem
        have hne : t ≠ t' := by
          rintro rfl
          exact heq rfl
        exact hworker (List.mem_map_of_mem
          (List.mem_filter.mpr ⟨ht', decide_eq_true (h.wid_ne ht ht' hne)⟩))
      exact h.about_finished ht hlog rfl hjob hnot' hgone

/-- The loop stops when the queue is empty or no slot is free. -/
theorem Sound.schedule (h : Sound maxThreads s) (hqueue : s.requestQueue = q) :
    Sound maxThreads (State.schedule q s) ∧ NoStall (State.schedule q s) := by
  induction q generalizing s with
  | nil => exact ⟨h, fun hne => absurd hqueue hne⟩
  | cons job q ih =>
    unfold State.schedule State.getFreeThread
    cases hfree : s.freeThreads with
    | nil => exact ⟨h, fun _ => hfree⟩
    | cons w free => exact ih (h.launch hqueue hfree) rfl

/-- A new job is put into the queue, or started at once. -/
theorem runAsThread_cases (hstall : NoStall s) :
    s.freeThreads = [] ∧ s.runAsThread = s.push ∨
    ∃ w free, s.freeThreads = w :: free ∧ s.push.requestQueue = [s.submitted] ∧
      s.runAsThread = s.push.launch w free s.submitted [] := by
  unfold State.runAsThread State.getFreeThread
  cases hfree : s.freeThreads with
  | nil => exact Or.inl ⟨rfl, by simp [hfree, State.push]⟩
  | cons w free =>
    have hqueue : s.requestQueue = [] := by
      by_contra hne
      rw [hstall hne] at hfree
      cases hfree
    refine Or.inr ⟨w, free, rfl, by simp [State.push, hqueue], ?_⟩
    simp [hfree, State.push, State.launch, State.start, hqueue]

theorem Sound.runAsThread (h : Sound maxThreads s) (hstall : NoStall s) :
    Sound maxThreads s.runAsThread ∧ NoStall s.runAsThread := by
  rcases runAsThread_cases hstall with ⟨hfree, heq⟩ | ⟨w, free, hfree, hqueue, heq⟩
  · rw [heq]
    exact ⟨h.push, fun _ => hfree⟩
  · rw [heq]
    exact ⟨h.push.launch hqueue hfree, fun hne => absurd rfl hne⟩

theorem Sound.step {e : Event} {s' : State} (h : Sound maxThreads s) (hstall : NoStall s)
    (hs : step maxThreads s e = some s') : Sound maxThreads s' ∧ NoStall s' := by
  cases e with
  | runAsThread =>
    cases hs
    exact h.runAsThread hstall
  | ran t =>
    simp only [ThreadPool.step] at hs
    split at hs
    · rename_i hrunning
      cases hs
      exact ⟨h.post hrunning.1 hrunning.2, hstall⟩
    · cases hs
  | cleandUp =>
    simp only [ThreadPool.step] at hs
    split at hs
    · rename_i t events hnone hevents
      cases hs
      exact ⟨h.finalize hnone hevents, hstall⟩
    · cases hs
  | finalized =>
    obtain ⟨t, ht, rfl⟩ := Option.map_eq_some_iff.mp hs
    exact (h.delete ht).schedule rfl

end Steps

/-! ## Runs -/

section Runs

variable {maxThreads : Nat} {s : State} {tr : List (State × Event)}

theorem sound_of_run (h : (machine maxThreads).Run tr s) : Sound maxThreads s ∧ NoStall s := by
  refine Machine.Run.invariant (I := fun s => Sound maxThreads s ∧ NoStall s)
    (fun s hinit => ?_) (fun s e s' hs ih => ?_) h
  · rw [hinit]
    exact ⟨sound_create maxThreads, fun hne => absurd rfl hne⟩
  · exact ih.1.step ih.2 hs

/-- What has happened to a job is the beginning of its life. -/
theorem Sound.about_prefix (h : Sound maxThreads s) (job : Nat) :
    ∃ w, s.about job <+: (Thread.mk w job).life := by
  by_cases hwaiting : job ∈ s.requestQueue ∨ s.submitted ≤ job
  · rw [h.waiting job hwaiting]
    exact ⟨0, List.nil_prefix⟩
  · obtain ⟨hqueue, hlt⟩ := not_or.mp hwaiting
    by_cases hworker : job ∈ s.worker.map Thread.job
    · obtain ⟨t, ht, rfl⟩ := List.mem_map.mp hworker
      rw [h.running t ht]
      exact ⟨t.wid, List.take_prefix _ _⟩
    · obtain ⟨w, hlife⟩ := h.finished job (Nat.lt_of_not_le hlt) hqueue hworker
      exact ⟨w, hlife ▸ List.prefix_rfl⟩

/-- When nothing is left to do, every job has got through. -/
theorem Sound.all_over (h : Sound maxThreads s) (hstall : NoStall s) (hmax : 1 ≤ maxThreads)
    (hquiet : ∀ e, e ≠ .runAsThread → ThreadPool.step maxThreads s e = none) :
    ∀ job < s.submitted, ∃ w, s.about job = (Thread.mk w job).life := by
  have hfinalizing : s.finalizing = none := by
    simpa [ThreadPool.step] using hquiet .finalized nofun
  have hevents : s.events = [] := by
    cases hevents : s.events with
    | nil => rfl
    | cons t events =>
      have hnone := hquiet .cleandUp nofun
      simp [ThreadPool.step, hfinalizing, hevents] at hnone
  have hworker : s.worker = [] := by
    refine List.eq_nil_iff_forall_not_mem.mpr fun t ht => ?_
    have hstage : s.stage t = 1 := by
      simp [State.stage, hfinalizing, hevents]
    have hnone := hquiet (.ran t) nofun
    simp [ThreadPool.step, ht, hstage] at hnone
  have hfree : s.freeThreads ≠ [] := by
    intro hnil
    have hlength := h.slots.length_eq
    rw [hnil, hworker, List.length_range] at hlength
    exact Nat.ne_of_gt hmax hlength.symm
  have hqueue : s.requestQueue = [] := by
    by_contra hne
    exact hfree (hstall hne)
  intro job hjob
  refine h.finished job hjob ?_ ?_
  · rw [hqueue]
    exact List.not_mem_nil
  · rw [hworker]
    exact List.not_mem_nil

/-- In every run the slots are divided between the free ones and those of running jobs, jobs are
started in the order of their submission, every job is started, run, finalized and deleted at most
once and in this order, nothing waits while a slot is free, and when nothing is left to do every job
has got through. -/
theorem scheduling_of_run (hmax : 1 ≤ maxThreads) (h : (machine maxThreads).Run tr s) :
    (s.freeThreads ++ s.worker.map Thread.wid).Perm (List.range maxThreads) ∧
    s.worker.length ≤ maxThreads ∧
    s.log.filterMap Entry.startedJob ++ s.requestQueue = List.range s.submitted ∧
    (∀ job, ∃ w, s.about job <+: (Thread.mk w job).life) ∧
    (s.requestQueue ≠ [] → s.freeThreads = []) ∧
    ((∀ e, e ≠ .runAsThread → step maxThreads s e = none) →
      ∀ job < s.submitted, ∃ w, s.about job = (Thread.mk w job).life) := by
  obtain ⟨hsound, hstall⟩ := sound_of_run h
  refine ⟨hsound.slots, ?_, hsound.order, hsound.about_prefix, hstall,
    hsound.all_over hstall hmax⟩
  have hlength := hsound.slots.length_eq
  rw [List.length_append, List.length_map, List.length_range] at hlength
  omega

end Runs

namespace Sample

/-- A job submits another one in its `finalize` while one waits for the only slot. -/
def events : List Event :=
  [.runAsThread, .runAsThread, .ran ⟨0, 0⟩, .cleandUp, .runAsThread, .finalized, .ran ⟨0, 1⟩,
   .cleandUp, .finalized]

end Sample

theorem scheduling_of_run_waiting : ∃ tr s, (machine 1).Run tr s ∧
    s.worker = [⟨0, 2⟩] ∧ s.about 1 = (Thread.mk 0 1).life ∧
    (s.freeThreads ++ s.worker.map Thread.wid).Perm (List.range 1) := by
  have hexec : ((machine 1).exec (.create 1) Sample.events).any (fun s => decide (
      s.worker = [⟨0, 2⟩] ∧ s.about 1 = (Thread.mk 0 1).life)) = true := by
    decide +kernel
  obtain ⟨s, hs, hfacts⟩ := (Option.any_eq_true _ _).mp hexec
  obtain ⟨hworker, habout⟩ := of_decide_eq_true hfacts
  obtain ⟨tr, hrun, -⟩ := Machine.exists_run_of_exec rfl hs
  exact ⟨tr, s, hrun, hworker, habout, (scheduling_of_run (Nat.le_refl 1) hrun).1⟩

end Spectrum.ThreadPool
