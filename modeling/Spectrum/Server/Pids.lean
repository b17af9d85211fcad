import Mathlib.Algebra.Group.Nat.Defs
import Mathlib.Data.List.Nodup
import Spectrum.Lib.Machine

/-!
# The processes of the backends

`m_pids`, the table that gives every backend process its log id, shared between `start`, which
forks the first backend, the end of `getFreeClient`, which forks the others, and the handler of
SIGCHLD, which frees the entries of the processes that have ended. Neither way to fork is atomic: a
process can end and a signal can arrive between any two statements. `start` installs the handler
last; before that the signal is discarded. `__block_signals` and `__unblock_signals` count their
calls; an enclosing or enclosed pair of other code is a section of its own.

The index of an entry plus one is the log id of the process stored in it, 0 is a free entry.
-/

namespace Spectrum

/-- A backend process with the log id it was started with. -/
structure Pids.Child where
  pid : Nat
  logId : Nat
  deriving DecidableEq, Repr

/-- What `waitpid` says about the end of a process. -/
inductive Pids.Status
  | exited (code : Nat)
  | signaled
  deriving DecidableEq, Repr

/-- A process that has ended and has not been waited for. -/
structure Pids.Zombie extends Pids.Child where
  status : Pids.Status
  deriving DecidableEq, Repr

/-- Where the server is: in `start`, which tries until a process is there after a second, in the
spawn at the end of `getFreeClient`, or idle. `slot` is `log_id_it`, absent for the end of the
table. -/
inductive Pids.Spawn
  | starting
  | sleeping (pid : Nat)
  | alive (pid : Nat)
  | listed
  | idle
  | begun
  | found (slot : Option Nat)
  | forked (slot : Option Nat) (pid : Nat)
  | recorded
  deriving DecidableEq, Repr

/-- An open pair of `__block_signals` and `__unblock_signals`. -/
inductive Pids.Section
  | spawn
  | other
  deriving DecidableEq, Repr

/-- `pending` is the SIGCHLD that has not been delivered. -/
structure Pids where
  pids : List Nat := []
  spawn : Pids.Spawn := .starting
  sigBlockCount : Int := 0
  blocked : Bool := false
  pending : Bool := false
  sections : List Pids.Section := []
  children : List Pids.Child := []
  zombies : List Pids.Zombie := []
  deriving DecidableEq, Repr

namespace Pids

/-- What `exec_` returns when `fork` fails: -1 as an `unsigned long`. -/
def forkFailed : Nat := 2 ^ 64 - 1

/-- `handlePIDTerminated`. -/
def handlePidTerminated (pid : Nat) (pids : List Nat) : List Nat := pids.replace pid 0

/-- The processes that have ended. -/
def ended (s : Pids) : List Child := s.zombies.map Zombie.toChild

/-- `SigCatcher` waits for every process that has ended. -/
def sigCatcher (s : Pids) : Pids :=
  { s with
    pids := s.ended.foldl (fun pids c => handlePidTerminated c.pid pids) s.pids
    pending := false
    zombies := [] }

/-- `signal(SIGCHLD, SigCatcher)` is the last statement of `start`. -/
def Spawn.handlerInstalled : Spawn → Bool
  | .starting | .sleeping _ | .alive _ | .listed => false
  | .idle | .begun | .found _ | .forked _ _ | .recorded => true

def blockSignals (s : Pids) : Pids :=
  { s with
    sigBlockCount := s.sigBlockCount + 1
    blocked := if s.sigBlockCount ≠ 1 then s.blocked else true }

def unblockSignals (s : Pids) : Pids :=
  { s with
    sigBlockCount := s.sigBlockCount - 1
    blocked := if s.sigBlockCount ≠ 0 then s.blocked else false }

/-- The log id that is passed to the new process. -/
def logIdOf (slot : Option Nat) (pids : List Nat) : Nat :=
  match slot with
  | none => pids.length + 1
  | some i => i + 1

def recordPid (slot : Option Nat) (pid : Nat) (pids : List Nat) : List Nat :=
  match slot with
  | none => pids ++ [pid]
  | some i => pids.set i pid

/-- The statements of `start` and of a spawn, the calls of other sections, the end of a process and
the delivery of SIGCHLD. A failed `fork` has no process. `waitpid` fails when there is no process,
and the status is then what the uninitialised variable holds. -/
inductive Event
  | forkFirst (pid : Option Nat)
  | waitFirst (uninitialised : Status)
  | push
  | install
  | block
  | find
  | fork (pid : Option Nat)
  | record
  | unblock
  | enter
  | leave
  | exit (pid : Nat) (status : Status)
  | sigchld
  deriving DecidableEq, Repr

/-- A process id is positive, fits in a `pid_t` and belongs to no other process. -/
def isFresh (pid : Nat) (s : Pids) : Bool :=
  0 < pid && pid < 2 ^ 31 && (s.children ++ s.ended).all fun c => c.pid != pid

/-- What `start` does with the status of a process that is not there after the second: it tries
again unless the process has exited with 0. -/
def afterWait (pid : Nat) : Status → Spawn
  | .exited 0 => .alive pid
  | .exited _ | .signaled => .starting

def step (s : Pids) : Event → Option Pids
  | .forkFirst none =>
    if s.spawn = .starting then some { s with spawn := .sleeping forkFailed } else none
  | .forkFirst (some pid) =>
    if s.spawn = .starting ∧ isFresh pid s = true then
      some { s with spawn := .sleeping pid, children := ⟨pid, 1⟩ :: s.children }
    else none
  | .waitFirst uninitialised =>
    match s.spawn with
    | .sleeping pid =>
      match s.zombies with
      | z :: zombies => some { s with spawn := afterWait pid z.status, zombies }
      | [] =>
        if s.children = [] then some { s with spawn := afterWait pid uninitialised }
        else some { s with spawn := .alive pid }
    | _ => none
  | .push =>
    match s.spawn with
    | .alive pid => some { s with spawn := .listed, pids := s.pids ++ [pid] }
    | _ => none
  | .install => if s.spawn = .listed then some { s with spawn := .idle } else none
  | .block =>
    if s.spawn = .idle then
      some { s.blockSignals with spawn := .begun, sections := .spawn :: s.sections }
    else none
  | .find =>
    if s.spawn = .begun then some { s with spawn := .found (s.pids.idxOf? 0) } else none
  | .fork none =>
    match s.spawn with
    | .found slot => some { s with spawn := .forked slot forkFailed }
    | _ => none
  | .fork (some pid) =>
    match s.spawn with
    | .found slot =>
      if isFresh pid s then
        some { s with
          spawn := .forked slot pid
          children := ⟨pid, logIdOf slot s.pids⟩ :: s.children }
      else none
    | _ => none
  | .record =>
    match s.spawn with
    | .forked slot pid => some { s with spawn := .recorded, pids := recordPid slot pid s.pids }
    | _ => none
  | .unblock =>
    match s.spawn, s.sections with
    | .recorded, .spawn :: rest => some { s.unblockSignals with spawn := .idle, sections := rest }
    | _, _ => none
  | .enter => some { s.blockSignals with sections := .other :: s.sections }
  | .leave =>
    match s.sections with
    | .other :: rest => some { s.unblockSignals with sections := rest }
    | _ => none
  | .exit pid status =>
    match s.children.find? fun c => c.pid = pid with
    | some c =>
      some { s with
        children := s.children.erase c
        zombies := s.zombies ++ [⟨c, status⟩]
        pending := s.pending || s.spawn.handlerInstalled }
    | none => none
  | .sigchld => if s.pending = true ∧ s.blocked = false then some s.sigCatcher else none

/-- All interleavings, from the start of the server. -/
def machine : Lib.Machine Pids Event where
  init s := s = {}
  step := step

/-! ## The bookkeeping -/

/-- The events that wait for processes that have ended. -/
def Event.Collects : Event → Prop
  | .waitFirst _ | .sigchld => True
  | _ => False

/-- The processes in the table that run have different log ids, an entry is in use only as long
as its process runs or waits to be collected, a process that has ended can be collected outside
of all sections, and the handler does not run inside of one. -/
structure Kept (s : Pids) : Prop where
  distinct : ∀ c ∈ s.children, ∀ d ∈ s.children, c.pid ∈ s.pids → d.pid ∈ s.pids →
    c ≠ d → c.logId ≠ d.logId
  available : ∀ i v, s.pids[i]? = some v → v ≠ 0 → v ≠ forkFailed →
    ∃ c ∈ s.children ++ s.ended, c.pid = v ∧ c.logId = i + 1
  collectable : s.zombies ≠ [] → s.sections = [] →
    ∃ e s', e.Collects ∧ step s e = some s' ∧ s'.zombies = []
  closed : s.sections ≠ [] → step s .sigchld = none

/-- In `start` a process ends only while the server sleeps, and not with the exit code 0. -/
def EndsWell (status : Status) : Spawn → Prop
  | .sleeping _ => status ≠ .exited 0
  | .alive _ | .listed => False
  | _ => True

instance (status : Status) : (p : Spawn) → Decidable (EndsWell status p)
  | .sleeping _ => inferInstanceAs (Decidable (status ≠ .exited 0))
  | .alive _ | .listed => .isFalse not_false
  | .starting | .idle | .begun | .found _ | .forked _ _ | .recorded => .isTrue trivial

/-- Sections are not nested, they open when every process that has ended has been collected, and no
process ends inside of one or in `start` after it has been looked for or with success. -/
def Calm (s : Pids) : Event → Prop
  | .block | .enter => s.sections = [] ∧ s.zombies = []
  | .exit _ status => s.sections = [] ∧ EndsWell status s.spawn
  | _ => True

instance (s : Pids) : (e : Event) → Decidable (Calm s e)
  | .block | .enter => inferInstanceAs (Decidable (s.sections = [] ∧ s.zombies = []))
  | .exit _ status => inferInstanceAs (Decidable (s.sections = [] ∧ EndsWell status s.spawn))
  | .forkFirst _ | .waitFirst _ | .push | .install | .find | .fork _ | .record | .unblock | .leave
  | .sigchld => .isTrue trivial

/-! ## The handler -/

section Handler

variable {pids : List Nat} {i v pid : Nat}

theorem getElem?_of_terminated (h : (handlePidTerminated pid pids)[i]? = some v) (hv : v ≠ 0) :
    pids[i]? = some v := by
  unfold handlePidTerminated at h
  rw [List.getElem?_replace] at h
  split at h
  · rename_i hpid
    have hpid : pids[i]? = some pid := by simpa using hpid
    split at h
    · rw [hpid, h]
    · exact absurd (Option.some.inj h).symm hv
  · exact h

/-- The value stands in at most one entry. -/
def Once (pids : List Nat) (v : Nat) : Prop :=
  ∀ i j : Nat, pids[i]? = some v → pids[j]? = some v → i = j

theorem Once.terminated (h : Once pids v) (hv : v ≠ 0) :
    Once (handlePidTerminated pid pids) v := fun i j hi hj =>
  h i j (getElem?_of_terminated hi hv) (getElem?_of_terminated hj hv)

theorem not_mem_terminated (h : Once pids pid) (hpid : pid ≠ 0) :
    pid ∉ handlePidTerminated pid pids := by
  intro hmem
  obtain ⟨i, hi⟩ := List.getElem?_of_mem hmem
  have hold := getElem?_of_terminated hi hpid
  unfold handlePidTerminated at hi
  rw [List.getElem?_replace, hold] at hi
  simp only [BEq.rfl, if_true] at hi
  split at hi
  · rename_i htake
    obtain ⟨j, hj⟩ := List.getElem?_of_mem htake
    rw [List.getElem?_take] at hj
    split at hj
    · have := h i j hold hj
      omega
    · cases hj
  · exact hpid (Option.some.inj hi).symm

variable {cs : List Child}

theorem getElem?_of_collected
    (h : (cs.foldl (fun pids c => handlePidTerminated c.pid pids) pids)[i]? = some v)
    (hv : v ≠ 0) : pids[i]? = some v := by
  induction cs generalizing pids with
  | nil => exact h
  | cons c cs ih => exact getElem?_of_terminated (ih h) hv

theorem not_mem_collected (h : ∀ c ∈ cs, Once pids c.pid ∧ c.pid ≠ 0) {c : Child} (hc : c ∈ cs) :
    c.pid ∉ cs.foldl (fun pids c => handlePidTerminated c.pid pids) pids := by
  induction cs generalizing pids with
  | nil => cases hc
  | cons d cs ih =>
    rw [List.foldl_cons]
    rcases List.mem_cons.mp hc with rfl | hc
    · intro hmem
      obtain ⟨i, hi⟩ := List.getElem?_of_mem hmem
      obtain ⟨honce, hpid⟩ := h c List.mem_cons_self
      exact not_mem_terminated honce hpid
        (List.mem_of_getElem? (getElem?_of_collected hi hpid))
    · refine ih (fun e he => ?_) hc
      obtain ⟨honce, hpid⟩ := h e (List.mem_cons_of_mem d he)
      exact ⟨honce.terminated hpid, hpid⟩

end Handler

/-! ## The invariant of the calm runs -/

/-- The entry that a spawn has chosen exists. -/
def InTable (pids : List Nat) (slot : Option Nat) : Prop := ∀ i ∈ slot, i < pids.length

/-- What `start` and a spawn know about the table and the processes. While `start` sleeps, only its
process can have ended, and `waitpid` will see the failure. -/
def Spawning (s : Pids) : Spawn → Prop
  | .starting => s.pids = [] ∧ s.children = [] ∧ s.zombies = []
  | .sleeping pid => s.pids = [] ∧
    (pid = forkFailed ∧ s.children = [] ∧ s.zombies = [] ∨
      s.children = [⟨pid, 1⟩] ∧ s.zombies = [] ∨
      s.children = [] ∧ ∃ status, s.zombies = [⟨⟨pid, 1⟩, status⟩] ∧ status ≠ .exited 0)
  | .alive pid => s.pids = [] ∧ s.zombies = [] ∧ (pid = forkFailed ∨ ⟨pid, 1⟩ ∈ s.children)
  | .listed => s.zombies = []
  | .found slot => InTable s.pids slot
  | .forked slot pid =>
    InTable s.pids slot ∧ (pid = forkFailed ∨ ⟨pid, logIdOf slot s.pids⟩ ∈ s.children)
  | _ => True

/-- An entry in use belongs to a process that runs or waits to be collected. -/
def Available (s : Pids) : Prop :=
  ∀ i v, s.pids[i]? = some v → v ≠ 0 → v ≠ forkFailed →
    ∃ c ∈ s.children ++ s.ended, c.pid = v ∧ c.logId = i + 1

/-- The statements between the two calls of a spawn. -/
def Spawn.Inside : Spawn → Prop
  | .begun | .found _ | .forked _ _ | .recorded => True
  | _ => False

structure Inv (s : Pids) : Prop where
  unique : ((s.children ++ s.ended).map Child.pid).Nodup
  pids : ∀ c ∈ s.children ++ s.ended, 0 < c.pid ∧ c.pid < 2 ^ 31
  available : Available s
  count : s.sigBlockCount = s.sections.length
  unblocked : s.blocked = false
  flat : s.sections.length ≤ 1
  quiet : s.sections ≠ [] → s.zombies = []
  signalled : s.pending = true ↔ s.spawn.handlerInstalled = true ∧ s.zombies ≠ []
  own : s.spawn.Inside → s.sections = [.spawn]
  spawning : Spawning s s.spawn

variable {s s' : Pids}

theorem Inv.eq_of_pid (h : Inv s) {c d : Child} (hc : c ∈ s.children ++ s.ended)
    (hd : d ∈ s.children ++ s.ended) (hpid : c.pid = d.pid) : c = d :=
  List.inj_on_of_nodup_map h.unique hc hd hpid

/-- A process in the table stands in the entry of its log id. -/
theorem Inv.logId_of_getElem? (h : Inv s) {c : Child} (hc : c ∈ s.children ++ s.ended) {i : Nat}
    (hi : s.pids[i]? = some c.pid) : c.logId = i + 1 := by
  obtain ⟨hpos, hlt⟩ := h.pids c hc
  have hfailed : c.pid ≠ forkFailed := by
    unfold forkFailed
    omega
  obtain ⟨d, hd, hpid, hlog⟩ := h.available i c.pid hi (by omega) hfailed
  rw [h.eq_of_pid hc hd hpid.symm]
  exact hlog

theorem Inv.once (h : Inv s) {c : Child} (hc : c ∈ s.children ++ s.ended) :
    Once s.pids c.pid := by
  intro i j hi hj
  have h1 := h.logId_of_getElem? hc hi
  have h2 := h.logId_of_getElem? hc hj
  omega

/-- `waitpid` collects a process that has ended in the second of `start`, and the handler every
other one. -/
theorem Inv.collectable (h : Inv s) (hz : s.zombies ≠ []) :
    ∃ e s', e.Collects ∧ step s e = some s' ∧ s'.zombies = [] := by
  cases hinstalled : s.spawn.handlerInstalled with
  | true =>
    refine ⟨.sigchld, s.sigCatcher, trivial, ?_, rfl⟩
    simp [step, h.signalled.mpr ⟨hinstalled, hz⟩, h.unblocked]
  | false =>
    have hspawning := h.spawning
    cases hp : s.spawn with
    | starting =>
      rw [hp] at hspawning
      exact absurd hspawning.2.2 hz
    | sleeping pid =>
      rw [hp] at hspawning
      rcases hspawning.2 with ⟨-, -, hnone⟩ | ⟨-, hnone⟩ | ⟨-, status, hone, -⟩
      · exact absurd hnone hz
      · exact absurd hnone hz
      · exact ⟨.waitFirst .signaled, { s with spawn := afterWait pid status, zombies := [] },
          trivial, by simp [step, hp, hone], rfl⟩
    | alive pid =>
      rw [hp] at hspawning
      exact absurd hspawning.2.1 hz
    | listed =>
      rw [hp] at hspawning
      exact absurd hspawning hz
    | idle | begun | found | forked | recorded =>
      rw [hp] at hinstalled
      cases hinstalled

theorem Inv.kept (h : Inv s) : Kept s where
  distinct := by
    intro c hc d hd hcp hdp hne heq
    obtain ⟨i, hi⟩ := List.getElem?_of_mem hcp
    obtain ⟨j, hj⟩ := List.getElem?_of_mem hdp
    have hc' : c ∈ s.children ++ s.ended := List.mem_append_left _ hc
    have hd' : d ∈ s.children ++ s.ended := List.mem_append_left _ hd
    have h1 := h.logId_of_getElem? hc' hi
    have h2 := h.logId_of_getElem? hd' hj
    have hij : i = j := by omega
    subst hij
    rw [hi] at hj
    exact hne (h.eq_of_pid hc' hd' (Option.some.inj hj))
  available := h.available
  collectable hz _ := h.collectable hz
  closed := by
    intro hopen
    have hpending : ¬ s.pending = true := fun hp => (h.signalled.mp hp).2 (h.quiet hopen)
    simp [step, hpending]

/-! ## One lemma for each event -/

/-! ### New processes -/

/-- An entry of the table after a process has been recorded is old or that of the process. -/
theorem getElem?_recordPid {slot : Option Nat} {pid i v : Nat} {pids : List Nat}
    (hslot : InTable pids slot) (h : (recordPid slot pid pids)[i]? = some v) :
    pids[i]? = some v ∨ v = pid ∧ logIdOf slot pids = i + 1 := by
  cases slot with
  | none =>
    simp only [recordPid] at h
    by_cases hi : i < pids.length
    · rw [List.getElem?_append_left hi] at h
      exact .inl h
    · rw [List.getElem?_append_right (by omega)] at h
      have hzero : i - pids.length = 0 := by
        by_contra hne
        rw [List.getElem?_eq_none (by simp; omega)] at h
        cases h
      rw [hzero] at h
      refine .inr ⟨(Option.some.inj h).symm, ?_⟩
      simp only [logIdOf]
      omega
  | some k =>
    simp only [recordPid] at h
    by_cases hik : k = i
    · subst hik
      rw [List.getElem?_set_self (hslot k rfl)] at h
      exact .inr ⟨(Option.some.inj h).symm, rfl⟩
    · rw [List.getElem?_set_ne hik] at h
      exact .inl h

theorem isFresh_iff {pid : Nat} :
    isFresh pid s = true ↔
      (0 < pid ∧ pid < 2 ^ 31) ∧ ∀ c ∈ s.children ++ s.ended, c.pid ≠ pid := by
  simp only [isFresh, Bool.and_eq_true, decide_eq_true_eq, List.all_eq_true, bne_iff_ne]

/-- A new process joins. -/
theorem Inv.unique_cons (h : Inv s) {c : Child} (hfresh : isFresh c.pid s = true) :
    ((c :: s.children ++ s.ended).map Child.pid).Nodup := by
  refine List.nodup_cons.mpr ⟨?_, h.unique⟩
  intro hmem
  obtain ⟨d, hd, heq⟩ := List.mem_map.mp hmem
  exact (isFresh_iff.mp hfresh).2 d hd heq

theorem Inv.pids_cons (h : Inv s) {c : Child} (hfresh : isFresh c.pid s = true) :
    ∀ d ∈ c :: s.children ++ s.ended, 0 < d.pid ∧ d.pid < 2 ^ 31 := by
  intro d hd
  rcases List.mem_cons.mp hd with rfl | hd
  · exact (isFresh_iff.mp hfresh).1
  · exact h.pids d hd

theorem Inv.available_cons (h : Inv s) (c : Child) {i v : Nat} (hi : s.pids[i]? = some v)
    (hv : v ≠ 0) (hf : v ≠ forkFailed) :
    ∃ d ∈ c :: s.children ++ s.ended, d.pid = v ∧ d.logId = i + 1 := by
  obtain ⟨d, hd, hdv⟩ := h.available i v hi hv hf
  exact ⟨d, List.mem_cons_of_mem _ hd, hdv⟩

/-! ### The first process -/

theorem Inv.not_pending (h : Inv s) (hp : s.spawn.handlerInstalled = false) : s.pending = false := by
  cases hpending : s.pending with
  | false => rfl
  | true =>
    have := (h.signalled.mp hpending).1
    rw [hp] at this
    cases this

theorem Inv.firstForkFails (h : Inv s) (hp : s.spawn = .starting) :
    Inv { s with spawn := .sleeping forkFailed } where
  unique := h.unique
  pids := h.pids
  available := h.available
  count := h.count
  unblocked := h.unblocked
  flat := h.flat
  quiet := h.quiet
  signalled := by simp [Spawn.handlerInstalled, h.not_pending (by simp [hp, Spawn.handlerInstalled])]
  own := nofun
  spawning := by
    have hspawning := h.spawning
    rw [hp] at hspawning
    exact ⟨hspawning.1, .inl ⟨rfl, hspawning.2⟩⟩

theorem Inv.firstForked (h : Inv s) {pid : Nat} (hp : s.spawn = .starting)
    (hfresh : isFresh pid s = true) :
    Inv { s with spawn := .sleeping pid, children := ⟨pid, 1⟩ :: s.children } where
  unique := h.unique_cons hfresh
  pids := h.pids_cons hfresh
  available i v hi hv hf := h.available_cons ⟨pid, 1⟩ hi hv hf
  count := h.count
  unblocked := h.unblocked
  flat := h.flat
  quiet := h.quiet
  signalled := by simp [Spawn.handlerInstalled, h.not_pending (by simp [hp, Spawn.handlerInstalled])]
  own := nofun
  spawning := by
    have hspawning := h.spawning
    rw [hp] at hspawning
    obtain ⟨hpids, hchildren, hz⟩ := hspawning
    exact ⟨hpids, .inr (.inl ⟨by rw [hchildren], hz⟩)⟩

theorem afterWait_of_ne {pid : Nat} {status : Status} (h : status ≠ .exited 0) :
    afterWait pid status = .starting := by
  cases status with
  | exited code =>
    cases code with
    | zero => exact absurd rfl h
    | succ n => rfl
  | signaled => rfl

theorem afterWait_cases (pid : Nat) (status : Status) :
    afterWait pid status = .alive pid ∨ afterWait pid status = .starting := by
  by_cases hzero : status = .exited 0
  · exact .inl (by rw [hzero]; rfl)
  · exact .inr (afterWait_of_ne hzero)

/-- After `waitpid` the process is there, or `start` tries again. -/
theorem Inv.waited (h : Inv s) {pid : Nat} (hp : s.spawn = .sleeping pid) {p : Spawn}
    {zombies : List Zombie} (hpids : s.pids = []) (hkept : zombies = [])
    (hnext : p = .alive pid ∧ (pid = forkFailed ∨ ⟨pid, 1⟩ ∈ s.children) ∨
      p = .starting ∧ s.children = []) : Inv { s with spawn := p, zombies } := by
  subst hkept
  have hinstalled : p.handlerInstalled = false := by rcases hnext with ⟨rfl, -⟩ | ⟨rfl, -⟩ <;> rfl
  have hsub : s.children.Sublist (s.children ++ s.ended) := List.sublist_append_left _ _
  have hended : ended { s with spawn := p, zombies := [] } = [] := rfl
  refine
    { unique := ?_, pids := ?_, available := ?_, count := h.count, unblocked := h.unblocked
      flat := h.flat, quiet := fun _ => rfl, signalled := ?_, own := ?_, spawning := ?_ }
  · rw [hended, List.append_nil]
    exact (hsub.map Child.pid).nodup h.unique
  · rw [hended, List.append_nil]
    exact fun c hc => h.pids c (hsub.mem hc)
  · intro i v hi
    change s.pids[i]? = some v at hi
    rw [hpids] at hi
    cases hi
  · simp [h.not_pending (by simp [hp, Spawn.handlerInstalled])]
  · rcases hnext with ⟨rfl, -⟩ | ⟨rfl, -⟩ <;> exact nofun
  · rcases hnext with ⟨rfl, hchild⟩ | ⟨rfl, hnone⟩
    · exact ⟨hpids, rfl, hchild⟩
    · exact ⟨hpids, hnone, rfl⟩

theorem Inv.pushed (h : Inv s) {pid : Nat} (hp : s.spawn = .alive pid) :
    Inv { s with spawn := .listed, pids := s.pids ++ [pid] } := by
  have hspawning := h.spawning
  rw [hp] at hspawning
  obtain ⟨hpids, hz, hpid⟩ := hspawning
  refine
    { unique := h.unique, pids := h.pids, available := ?_, count := h.count
      unblocked := h.unblocked, flat := h.flat, quiet := h.quiet, signalled := ?_, own := nofun
      spawning := hz }
  · intro i v hi hv hf
    have hslot : InTable s.pids none := nofun
    rcases getElem?_recordPid hslot hi with hold | ⟨rfl, hlog⟩
    · exact h.available i v hold hv hf
    · rcases hpid with hpid | hmem
      · exact absurd hpid hf
      · rw [hpids] at hlog
        exact ⟨_, List.mem_append_left _ hmem, rfl, hlog⟩
  · simp [Spawn.handlerInstalled, h.not_pending (by simp [hp, Spawn.handlerInstalled])]

theorem Inv.installed (h : Inv s) (hp : s.spawn = .listed) : Inv { s with spawn := .idle } where
  unique := h.unique
  pids := h.pids
  available := h.available
  count := h.count
  unblocked := h.unblocked
  flat := h.flat
  quiet := h.quiet
  signalled := by
    have hz := h.spawning
    rw [hp] at hz
    simp [h.not_pending (by simp [hp, Spawn.handlerInstalled]), show s.zombies = [] from hz]
  own := nofun
  spawning := trivial

/-! ### Sections and spawns -/

/-- Nothing is pending when every process that has ended has been collected. -/
theorem Inv.signalled_of_nil (h : Inv s) (hz : s.zombies = []) (p : Spawn) :
    s.pending = true ↔ p.handlerInstalled = true ∧ s.zombies ≠ [] := by
  have hpending : ¬ s.pending = true := fun hpending => (h.signalled.mp hpending).2 hz
  simp [hpending, hz]

/-- A section opens: the first call of a count that starts at 0 blocks nothing. -/
theorem Inv.opened (h : Inv s) (hs : s.sections = []) (hz : s.zombies = []) {x : Section}
    {p : Spawn} (hp : p = s.spawn ∨ p = .begun ∧ x = .spawn) :
    Inv { s.blockSignals with spawn := p, sections := x :: s.sections } where
  unique := h.unique
  pids := h.pids
  available := h.available
  count := by simp [blockSignals, h.count]
  unblocked := by
    have h0 : s.sigBlockCount = 0 := by simp [h.count, hs]
    simp [blockSignals, h0, h.unblocked]
  flat := by simp [hs]
  quiet := fun _ => hz
  signalled := h.signalled_of_nil hz p
  own := by
    rcases hp with rfl | ⟨rfl, rfl⟩
    · intro hinside
      have hown := h.own hinside
      rw [hs] at hown
      cases hown
    · exact fun _ => by simp [hs]
  spawning := by
    rcases hp with rfl | ⟨rfl, rfl⟩
    · exact h.spawning
    · trivial

/-- A section closes: the last call finds the count at 1 and unblocks nothing. -/
theorem Inv.closed (h : Inv s) {x : Section} {rest : List Section} (hs : s.sections = x :: rest)
    {p : Spawn} (hp : p = s.spawn ∧ ¬ p.Inside ∨ p = .idle) :
    Inv { s.unblockSignals with spawn := p, sections := rest } where
  unique := h.unique
  pids := h.pids
  available := h.available
  count := by simp [unblockSignals, h.count, hs]
  unblocked := by simp [unblockSignals, h.unblocked]
  flat := by
    have := h.flat
    simp only [hs, List.length_cons] at this
    show rest.length ≤ 1
    omega
  quiet := fun _ => h.quiet (by simp [hs])
  signalled := h.signalled_of_nil (h.quiet (by simp [hs])) p
  own := by
    rcases hp with ⟨-, hout⟩ | rfl
    · exact fun hinside => absurd hinside hout
    · exact nofun
  spawning := by
    rcases hp with ⟨rfl, -⟩ | rfl
    · exact h.spawning
    · trivial

/-- A statement of a spawn that changes nothing else. -/
theorem Inv.next (h : Inv s) {p : Spawn} (hp : s.spawn.Inside) (hinstalled : p.handlerInstalled = true)
    (hspawning : Spawning s p) : Inv { s with spawn := p } where
  unique := h.unique
  pids := h.pids
  available := h.available
  count := h.count
  unblocked := h.unblocked
  flat := h.flat
  quiet := h.quiet
  signalled := h.signalled_of_nil (h.quiet (by simp [h.own hp])) p
  own := fun _ => h.own hp
  spawning := by cases p <;> exact hspawning

theorem Inv.find (h : Inv s) (hp : s.spawn = .begun) :
    Inv { s with spawn := .found (s.pids.idxOf? 0) } := by
  refine h.next (by rw [hp]; trivial) rfl ?_
  intro i hi
  obtain ⟨hlt, -⟩ := List.idxOf?_eq_some_iff.mp hi
  exact hlt

theorem Inv.forkFails (h : Inv s) {slot : Option Nat} (hp : s.spawn = .found slot) :
    Inv { s with spawn := .forked slot forkFailed } := by
  have hslot := h.spawning
  rw [hp] at hslot
  exact h.next (by rw [hp]; trivial) rfl ⟨hslot, .inl rfl⟩

theorem Inv.fork (h : Inv s) {slot : Option Nat} {pid : Nat} (hp : s.spawn = .found slot)
    (hfresh : isFresh pid s = true) :
    Inv { s with
      spawn := .forked slot pid
      children := ⟨pid, logIdOf slot s.pids⟩ :: s.children } := by
  have hinside : s.spawn.Inside := by
    rw [hp]
    trivial
  have hslot := h.spawning
  rw [hp] at hslot
  exact
    { unique := h.unique_cons hfresh
      pids := h.pids_cons hfresh
      available := fun i v hi hv hf => h.available_cons ⟨pid, logIdOf slot s.pids⟩ hi hv hf
      count := h.count
      unblocked := h.unblocked
      flat := h.flat
      quiet := h.quiet
      signalled := h.signalled_of_nil (h.quiet (by simp [h.own hinside])) (.forked slot pid)
      own := fun _ => h.own hinside
      spawning := ⟨hslot, .inr List.mem_cons_self⟩ }

theorem Inv.record (h : Inv s) {slot : Option Nat} {pid : Nat} (hp : s.spawn = .forked slot pid) :
    Inv { s with spawn := .recorded, pids := recordPid slot pid s.pids } := by
  have hinside : s.spawn.Inside := by
    rw [hp]
    trivial
  have hspawn := h.spawning
  rw [hp] at hspawn
  obtain ⟨hslot, hpid⟩ := hspawn
  refine
    { unique := h.unique, pids := h.pids, available := ?_, count := h.count
      unblocked := h.unblocked, flat := h.flat, quiet := h.quiet
      signalled := h.signalled_of_nil (h.quiet (by simp [h.own hinside])) .recorded
      own := fun _ => h.own hinside, spawning := trivial }
  intro i v hi hv hf
  rcases getElem?_recordPid hslot hi with hold | ⟨rfl, hlog⟩
  · exact h.available i v hold hv hf
  · rcases hpid with hpid | hmem
    · exact absurd hpid hf
    · exact ⟨_, List.mem_append_left _ hmem, rfl, hlog⟩

/-! ### The end of a process -/

/-- A process that ends changes from one list to the other. -/
theorem ended_perm {c : Child} (hc : c ∈ s.children) (status : Status) :
    (s.children.erase c ++ (s.zombies ++ [(⟨c, status⟩ : Zombie)]).map Zombie.toChild).Perm
      (s.children ++ s.ended) := by
  have hcons := (List.perm_cons_erase hc).symm.append_right s.ended
  refine List.Perm.trans ?_ hcons
  rw [List.map_append, ← List.append_assoc]
  exact List.perm_append_singleton c _

/-- In `start` the end of the process is a failure that `waitpid` will see. -/
theorem Inv.spawning_exit (h : Inv s) {c : Child} (hc : c ∈ s.children) (hs : s.sections = [])
    {status : Status} (hwell : EndsWell status s.spawn) {pending : Bool} :
    Spawning { s with
      children := s.children.erase c
      zombies := s.zombies ++ [⟨c, status⟩]
      pending } s.spawn := by
  have hspawning := h.spawning
  have hown := h.own
  cases hp : s.spawn with
  | starting =>
    rw [hp] at hspawning
    rw [hspawning.2.1] at hc
    cases hc
  | sleeping pid =>
    rw [hp] at hspawning hwell
    obtain ⟨hpids, hcase⟩ := hspawning
    rcases hcase with ⟨-, hnone, -⟩ | ⟨hone, hz⟩ | ⟨hnone, -⟩
    · rw [hnone] at hc
      cases hc
    · rw [hone] at hc
      obtain rfl := List.mem_singleton.mp hc
      refine ⟨hpids, .inr (.inr ⟨?_, status, ?_, hwell⟩)⟩
      · change s.children.erase _ = []
        rw [hone, List.erase_cons_head]
      · change s.zombies ++ _ = _
        rw [hz, List.nil_append]
    · rw [hnone] at hc
      cases hc
  | alive | listed =>
    rw [hp] at hwell
    exact hwell.elim
  | idle => trivial
  | begun | found | forked | recorded =>
    rw [hp] at hown
    have hopen := hown trivial
    rw [hs] at hopen
    cases hopen

theorem Inv.exit (h : Inv s) {c : Child} (hc : c ∈ s.children) (hs : s.sections = [])
    {status : Status} (hwell : EndsWell status s.spawn) :
    Inv { s with
      children := s.children.erase c
      zombies := s.zombies ++ [⟨c, status⟩]
      pending := s.pending || s.spawn.handlerInstalled } := by
  have hperm := ended_perm hc status
  refine
    { unique := ?_, pids := ?_, available := ?_, count := h.count, unblocked := h.unblocked
      flat := h.flat, quiet := fun hopen => absurd hs hopen, signalled := ?_, own := h.own
      spawning := h.spawning_exit hc hs hwell }
  · exact (hperm.map Child.pid).nodup_iff.mpr h.unique
  · exact fun d hd => h.pids d (hperm.mem_iff.mp hd)
  · intro i v hi hv hf
    obtain ⟨d, hd, hdv⟩ := h.available i v hi hv hf
    exact ⟨d, hperm.mem_iff.mpr hd, hdv⟩
  · cases hinstalled : s.spawn.handlerInstalled with
    | true => simp
    | false => simp [h.not_pending hinstalled]

theorem Inv.sigCatcher (h : Inv s) (hpending : s.pending = true) (hs : s.sections = []) :
    Inv s.sigCatcher := by
  have hinstalled := (h.signalled.mp hpending).1
  have hended : s.sigCatcher.ended = [] := rfl
  refine
    { unique := ?_, pids := ?_, available := ?_, count := h.count, unblocked := h.unblocked
      flat := h.flat, quiet := fun hopen => absurd hs hopen, signalled := ?_, own := h.own
      spawning := ?_ }
  · have hsub : (s.children.map Child.pid).Sublist ((s.children ++ s.ended).map Child.pid) :=
      (List.sublist_append_left _ _).map _
    rw [hended, List.append_nil]
    exact hsub.nodup h.unique
  · intro c hc
    rw [hended, List.append_nil] at hc
    exact h.pids c (List.mem_append_left _ hc)
  · intro i v hi hv hf
    obtain ⟨c, hc, rfl, hlog⟩ := h.available i v (getElem?_of_collected hi hv) hv hf
    rcases List.mem_append.mp hc with hrun | hended
    · exact ⟨c, List.mem_append_left _ hrun, rfl, hlog⟩
    · -- the entry of a process that has ended is free now
      refine absurd (List.mem_of_getElem? hi) (not_mem_collected (fun d hd => ?_) hended)
      have hd' : d ∈ s.children ++ s.ended := List.mem_append_right _ hd
      have hpos := (h.pids d hd').1
      exact ⟨h.once hd', by omega⟩
  · simp [Pids.sigCatcher]
  · show Spawning _ s.spawn
    have hown := h.own
    cases hp : s.spawn with
    | starting | sleeping | alive | listed =>
      rw [hp] at hinstalled
      cases hinstalled
    | idle => trivial
    | begun | found | forked | recorded =>
      rw [hp] at hown
      have hopen := hown trivial
      rw [hs] at hopen
      cases hopen

/-! ## Every event -/

theorem Inv.forkFirst (h : Inv s) {pid : Option Nat} (hs : step s (.forkFirst pid) = some s') :
    Inv s' := by
  cases pid with
  | none =>
    simp only [step] at hs
    split at hs
    · rename_i hp
      cases hs
      exact h.firstForkFails hp
    · cases hs
  | some pid =>
    simp only [step] at hs
    split at hs
    · rename_i hp
      cases hs
      exact h.firstForked hp.1 hp.2
    · cases hs

theorem Inv.waitFirst (h : Inv s) {uninitialised : Status}
    (hs : step s (.waitFirst uninitialised) = some s') : Inv s' := by
  simp only [step] at hs
  split at hs
  · rename_i pid hp
    have hspawning := h.spawning
    rw [hp] at hspawning
    obtain ⟨hpids, ⟨rfl, hnone, hz⟩ | ⟨hone, hz⟩ | ⟨hnone, status, hz, hfailed⟩⟩ := hspawning
    · simp only [hz, if_pos hnone] at hs
      cases hs
      rw [← hz]
      refine h.waited hp hpids hz ?_
      rcases afterWait_cases forkFailed uninitialised with hnext | hnext
      · exact .inl ⟨hnext, .inl rfl⟩
      · exact .inr ⟨hnext, hnone⟩
    · have hsome : s.children ≠ [] := by simp [hone]
      simp only [hz, if_neg hsome] at hs
      cases hs
      rw [← hz]
      refine h.waited hp hpids hz (.inl ⟨rfl, .inr ?_⟩)
      rw [hone]
      exact List.mem_singleton_self _
    · simp only [hz] at hs
      cases hs
      exact h.waited hp hpids rfl (.inr ⟨afterWait_of_ne hfailed, hnone⟩)
  · cases hs

theorem inv_step {e : Event} (hc : Calm s e) (hs : step s e = some s') (h : Inv s) : Inv s' := by
  cases e with
  | forkFirst pid => exact h.forkFirst hs
  | waitFirst uninitialised => exact h.waitFirst hs
  | push =>
    simp only [step] at hs
    split at hs
    · rename_i pid hp
      cases hs
      exact h.pushed hp
    · cases hs
  | install =>
    simp only [step] at hs
    split at hs
    · rename_i hp
      cases hs
      exact h.installed hp
    · cases hs
  | block =>
    simp only [step] at hs
    split at hs
    · cases hs
      exact h.opened hc.1 hc.2 (.inr ⟨rfl, rfl⟩)
    · cases hs
  | find =>
    simp only [step] at hs
    split at hs
    · rename_i hp
      cases hs
      exact h.find hp
    · cases hs
  | fork pid =>
    cases pid with
    | none =>
      simp only [step] at hs
      split at hs
      · rename_i slot hp
        cases hs
        exact h.forkFails hp
      · cases hs
    | some pid =>
      simp only [step] at hs
      split at hs
      · rename_i slot hp
        split at hs
        · rename_i hfresh
          cases hs
          exact h.fork hp hfresh
        · cases hs
      · cases hs
  | record =>
    simp only [step] at hs
    split at hs
    · rename_i slot pid hp
      cases hs
      exact h.record hp
    · cases hs
  | unblock =>
    simp only [step] at hs
    split at hs
    · rename_i hsec
      cases hs
      exact h.closed hsec (.inr rfl)
    · cases hs
  | enter =>
    cases hs
    exact h.opened hc.1 hc.2 (.inl rfl)
  | leave =>
    simp only [step] at hs
    split at hs
    · rename_i rest hsec
      cases hs
      refine h.closed hsec (.inl ⟨rfl, fun hinside => ?_⟩)
      have hown := h.own hinside
      rw [hsec] at hown
      cases hown
    · cases hs
  | exit pid status =>
    simp only [step] at hs
    split at hs
    · rename_i c hfind
      cases hs
      exact h.exit (List.mem_of_find?_eq_some hfind) hc.1 hc.2
    · cases hs
  | sigchld =>
    simp only [step] at hs
    split at hs
    · rename_i hsignal
      cases hs
      refine h.sigCatcher hsignal.1 ?_
      by_contra hopen
      exact (h.signalled.mp hsignal.1).2 (h.quiet hopen)
    · cases hs

theorem inv_init : Inv {} where
  unique := List.nodup_nil
  pids := nofun
  available := by
    intro i v hi
    simp at hi
  count := rfl
  unblocked := rfl
  flat := Nat.zero_le _
  quiet := fun _ => rfl
  signalled := by simp
  own := nofun
  spawning := ⟨rfl, rfl, rfl⟩

/-- The bookkeeping is right in every run whose sections are not nested and not disturbed by the
end of a process, and whose first process does not end with success or unseen in `start`. -/
theorem kept_of_calm {tr : List (Pids × Event)} (h : machine.Run tr s)
    (hc : Lib.Machine.Meets Calm tr) : Kept s := by
  refine Inv.kept (h.invariant_of_steps (C := Calm) ?_ ?_ hc)
  · rintro s rfl
    exact inv_init
  · exact fun s e s' hcalm hstep hinv => inv_step hcalm hstep hinv

namespace Sample

/-- `start` with a first process that fails and one that lives. -/
def started : List Event :=
  [.forkFirst (some 5), .exit 5 (.exited 2), .waitFirst .signaled, .forkFirst (some 6),
   .waitFirst .signaled, .push, .install]

/-- Two spawns, the end of the first process of them, its collection, and a third spawn. -/
def reused : List Event := started ++
  [.block, .find, .fork (some 7), .record, .unblock,
   .block, .find, .fork (some 8), .record, .unblock,
   .exit 7 .signaled, .sigchld, .block, .find, .fork (some 9), .record, .unblock]

/-- A process that ends before it is recorded. -/
def lost : List Event := started ++ [.block, .find, .fork (some 7), .exit 7 .signaled]

/-- A first process that exits with 0 within the second. -/
def gone : List Event :=
  [.forkFirst (some 5), .exit 5 (.exited 0), .waitFirst .signaled, .push, .install]

end Sample

theorem kept_of_calm_reused : ∃ s, (∃ tr, machine.Run tr s) ∧
    s.pids = [6, 9, 8] ∧ s.children = [⟨9, 2⟩, ⟨8, 3⟩, ⟨6, 1⟩] ∧ Kept s := by
  have hexec : ∃ s, (machine.restrict Calm).exec {} Sample.reused = some s ∧
      s.pids = [6, 9, 8] ∧ s.children = [⟨9, 2⟩, ⟨8, 3⟩, ⟨6, 1⟩] := ⟨_, rfl, rfl, rfl⟩
  obtain ⟨s, hs, hpids, hchildren⟩ := hexec
  obtain ⟨tr, h, hc⟩ := Lib.Machine.exists_run_of_restrict rfl hs
  exact ⟨s, ⟨tr, h⟩, hpids, hchildren, kept_of_calm h hc⟩

/-- The first call of `__block_signals` blocks nothing, so the handler can run inside a spawn. -/
theorem not_kept_of_lost : ¬ ∀ tr s, machine.Run tr s → Kept s := by
  intro hall
  have hexec : ∃ s, machine.exec {} Sample.lost = some s ∧ s.sections ≠ [] ∧
      step s .sigchld ≠ none := ⟨_, rfl, nofun, nofun⟩
  obtain ⟨s, hs, hopen, hruns⟩ := hexec
  obtain ⟨tr, h, -⟩ := Lib.Machine.exists_run_of_exec rfl hs
  exact hruns ((hall tr s h).closed hopen)

/-- A first process that exits with 0 within the second is collected before it is recorded, so its
entry is never freed. -/
theorem not_kept_of_gone : ∃ tr s, machine.Run tr s ∧ s.sections = [] ∧ ¬ Kept s := by
  have hexec : ∃ s, machine.exec {} Sample.gone = some s ∧ s.sections = [] ∧ s.pids = [5] ∧
      s.children ++ s.ended = [] := ⟨_, rfl, rfl, rfl, rfl⟩
  obtain ⟨s, hs, hclosed, hpids, hnone⟩ := hexec
  obtain ⟨tr, h, -⟩ := Lib.Machine.exists_run_of_exec rfl hs
  refine ⟨tr, s, h, hclosed, fun hkept => ?_⟩
  obtain ⟨c, hc, -⟩ := hkept.available 0 5 (by rw [hpids]; rfl) (by decide) (by decide)
  rw [hnone] at hc
  cases hc

end Pids

end Spectrum
