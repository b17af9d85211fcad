import Mathlib.Data.List.Perm.Basic
import Spectrum.Transport.Calls

/-!
# The class of a new backend

A process is started for normal or for long-running use, and the next connection is classified by
`m_isNextLongRun`, which the latest start has set. The processes of `NetworkPluginServer::start`, which
tries until one of them lives, are for normal use. `m_startingBackend` keeps a second process from
being started until the first one has connected, but the ping sweep clears it. The transport is put
together with the processes it has started and that have not connected yet.
-/

namespace Spectrum

open World NetworkPluginServer

/-! ## What an event starts -/

/-- The use of the process that is started. -/
def Effect.spawned : Effect → Option Bool
  | .exec longRun => some longRun
  | _ => none

/-- The uses of the processes that were started so far, newest first. -/
def World.execs (w : World) : List Bool := w.log.filterMap Effect.spawned

/-- Processes were started for the uses `ks`, oldest first, and the last one set the flag. -/
structure Spawning (ks : List Bool) (w w' : World) : Prop where
  next : w'.isNextLongRun = ks.getLast?.getD w.isNextLongRun
  execs : w'.execs = ks.reverse ++ w.execs

/-- The uses of the processes that were started from one state to the other, oldest first. -/
def started (w w' : World) : List Bool :=
  (w'.execs.take (w'.execs.length - w.execs.length)).reverse

section Spawning

variable {ks ks' : List Bool} {w w₁ w' : World}

theorem Effect.Silent.not_spawned (e : Effect) (h : e.Silent) : e.spawned = none := by
  cases e <;> first | rfl | cases h

theorem Spawning.refl (w : World) : Spawning [] w w := ⟨rfl, rfl⟩

theorem Spawning.trans (h : Spawning ks w w₁) (h' : Spawning ks' w₁ w') :
    Spawning (ks ++ ks') w w' where
  next := by
    rw [h'.next, h.next]
    cases hlast : ks'.getLast? with
    | none =>
      rw [List.getLast?_eq_none_iff.mp hlast, List.append_nil]
      rfl
    | some k => simp [List.getLast?_append, hlast]
  execs := by
    rw [h'.execs, h.execs, List.reverse_append, List.append_assoc]

theorem Spawning.of_log (hnext : w'.isNextLongRun = w.isNextLongRun)
    (hlog : Logs Effect.Silent w w') : Spawning [] w w' := by
  obtain ⟨l, hl, hall⟩ := hlog
  have hnil : l.filterMap Effect.spawned = [] :=
    List.filterMap_eq_nil_iff.mpr fun e he => Effect.Silent.not_spawned e (hall e he)
  refine ⟨hnext, ?_⟩
  unfold World.execs
  rw [hl, List.filterMap_append, hnil]
  rfl

theorem Spawning.started_eq (h : Spawning ks w w') : started w w' = ks := by
  unfold started
  rw [h.execs]
  simp

theorem spawning_spawn (longRun : Bool) (w : World) : ∃ ks, Spawning ks w (spawn longRun w) := by
  unfold spawn
  split
  · exact ⟨[], .refl w⟩
  · exact ⟨[longRun], rfl, rfl⟩

theorem spawning_getFreeClient (acceptUsers longRun check : Bool) (w : World) :
    ∃ ks, Spawning ks w (getFreeClient acceptUsers longRun check w).2 := by
  rcases getFreeClient_cases acceptUsers longRun check w with
    ⟨-, heq⟩ | ⟨-, w₁, hw₁, ⟨c, -, heq⟩ | ⟨-, heq⟩⟩
  · rw [heq]
    exact ⟨[], rfl, rfl⟩
  · have hfirst : Spawning [] w w₁ := by
      rw [hw₁]
      split <;> exact ⟨rfl, rfl⟩
    have hclose : Spawning [] w₁ (closeIfFull check c w₁) := by
      unfold closeIfFull
      split <;> exact ⟨rfl, rfl⟩
    rw [heq]
    exact ⟨_, hfirst.trans hclose⟩
  · have hfirst : Spawning [] w w₁ := by
      rw [hw₁]
      split <;> exact ⟨rfl, rfl⟩
    obtain ⟨ks, hspawn⟩ := spawning_spawn longRun w₁
    rw [heq]
    exact ⟨_, hfirst.trans hspawn⟩

theorem Proceeds.spawning (h : Proceeds w w') : ∃ ks, Spawning ks w w' := by
  induction h with
  | inert h => exact ⟨[], .of_log h.next h.log⟩
  | search acceptUsers longRun check w => exact spawning_getFreeClient acceptUsers longRun check w
  | create j info w => exact ⟨[], rfl, rfl⟩
  | trans _ _ ih ih' =>
    obtain ⟨ks, hks⟩ := ih
    obtain ⟨ks', hks'⟩ := ih'
    exact ⟨_, hks.trans hks'⟩

theorem Calling.spawning {cs : List Call} (h : Calling w cs w') : ∃ ks, Spawning ks w w' := by
  induction h with
  | other hp => exact hp.spawning
  | @call x c _ _ =>
    have hcounted : Spawning [] c.world c.counted := by
      unfold Call.counted
      split <;> exact ⟨rfl, rfl⟩
    obtain ⟨ks, hks⟩ := c.proceeds_after.spawning
    exact ⟨_, hcounted.trans hks⟩
  | trans _ _ ih ih' =>
    obtain ⟨ks, hks⟩ := ih
    obtain ⟨ks', hks'⟩ := ih'
    exact ⟨_, hks.trans hks'⟩

theorem spawning_run (hlink : Link none none w) (e : Event) : ∃ ks, Spawning ks w (e.run w) := by
  by_cases hconn : ∃ b j pw, e = .received b (.connected j pw)
  · obtain ⟨b, j, pw, rfl⟩ := hconn
    obtain ⟨ks, hnote⟩ := (Proceeds.inert (.noteData b w)).spawning
    rcases connected_cases b j pw w with ⟨-, heq⟩ | ⟨v, -, hq⟩
    · rw [heq]
      exact ⟨ks, hnote⟩
    · have hmark : Spawning [] (noteData b w) (markConnected v (noteData b w)) := ⟨rfl, rfl⟩
      have hrest := Inert.of_quiet hq fun _ he => he.silent
      exact ⟨_, (hnote.trans hmark).trans (.of_log hrest.next hrest.log)⟩
  · exact (Calling.run hlink fun b j pw heq => hconn ⟨b, j, pw, heq⟩).spawning

end Spawning

/-! ## The transport and its processes -/

/-- The transport, the uses of the processes that have not connected yet, the backends that have
connected, each as it was right after its connection, and the number of processes that `start` has
tried. -/
structure Deployment where
  world : World
  starting : List Bool
  connected : List Backend
  first : Nat

/-- An event of the transport other than a connection, or the connection of a started process. -/
inductive Happening
  | transport (e : Event)
  | connect (i : Nat)

namespace Deployment

def step (s : Deployment) : Happening → Option Deployment
  | .transport e =>
    if e = .backendConnected then none
    else (s.world.step e).map fun w =>
      { s with world := w, starting := s.starting ++ started s.world w }
  | .connect i =>
    if i < s.starting.length then (s.world.step .backendConnected).map fun w =>
      { world := w
        starting := s.starting.eraseIdx i
        connected := s.connected ++ [w.backends s.world.nextBackend]
        first := s.first }
    else none

/-- All runs of the transport in which only started processes connect. -/
def machine : Lib.Machine Deployment Happening where
  init s := ∃ cfg now storage n, s = ⟨World.start cfg now storage, List.replicate n false, [], n⟩
  step := step

/-- The backend was classified for the use. -/
def isFor (longRun : Bool) (b : Backend) : Bool :=
  b.longRun == longRun && b.acceptUsers == !longRun

/-- The uses of all processes that were started. -/
def requested (s : Deployment) : List Bool := s.world.execs ++ List.replicate s.first false

/-- For no use there are more backends than processes were started for it. -/
def WithinRequests (s : Deployment) : Prop :=
  ∀ k, s.connected.countP (isFor k) ≤ s.requested.count k

/-- Neither now, nor whatever started processes connect next. -/
def StaysWithin (s : Deployment) : Prop :=
  ∀ (order : List Nat) (s' : Deployment),
    machine.exec s (order.map .connect) = some s' → s'.WithinRequests

/-- The condition. The processes that an event starts, and those that have not connected yet, are
for one use. -/
def Orderly (s : Deployment) : Happening → Prop
  | .transport e => ∀ k ∈ started s.world (e.run s.world),
      ∀ k' ∈ s.starting ++ started s.world (e.run s.world), k' = k
  | .connect _ => True

instance (s : Deployment) (e : Happening) : Decidable (Orderly s e) :=
  match e with
  | .transport e => inferInstanceAs (Decidable (∀ k ∈ started s.world (e.run s.world),
      ∀ k' ∈ s.starting ++ started s.world (e.run s.world), k' = k))
  | .connect _ => isTrue trivial

/-- Every process is accounted for. -/
def Accounted (s : Deployment) : Prop :=
  ∀ k, s.connected.countP (isFor k) + s.starting.count k = s.requested.count k

/-- Every process that has not connected yet is for the use that its backend will get. -/
structure Sorted (s : Deployment) : Prop where
  link : Link none none s.world
  fault : s.world.fault = false
  starting : ∀ k ∈ s.starting, k = s.world.isNextLongRun
  accounted : s.Accounted

section Steps

variable {s s' : Deployment} {e : Event}

theorem Accounted.within (h : s.Accounted) : s.WithinRequests := by
  intro k
  rw [← h k]
  exact Nat.le_add_right _ _

theorem requested_eq (hfirst : s'.first = s.first) (h : Spawning [] s.world s'.world) :
    s'.requested = s.requested := by
  rw [requested, requested, hfirst, h.execs, List.reverse_nil, List.nil_append]

/-- A new backend is classified by the flag, and nothing is started. -/
theorem newBackend_spec (w : World) :
    (handleNewClientConnection w).fault = w.fault ∧
      Spawning [] w (handleNewClientConnection w) ∧
      ∀ k, isFor k ((handleNewClientConnection w).backends w.nextBackend) =
        decide (k = w.isNextLongRun) := by
  refine ⟨?_, ?_, fun k => ?_⟩
  · simp [handleNewClientConnection, sendPing, send, modBackend, emit]
  · have hn := Inert.of_pinged (pinged_sendPing w.nextBackend (withBackend w))
    rw [handleNewClientConnection_eq]
    exact .of_log hn.next hn.log
  · cases k <;> cases hnext : w.isNextLongRun <;>
      simp [handleNewClientConnection, sendPing, send, modBackend, emit, isFor, hnext]

theorem step_transport (hs : s.step (.transport e) = some s') :
    s.world.step e = some s'.world ∧ s'.starting = s.starting ++ started s.world s'.world ∧
      s'.connected = s.connected ∧ s'.first = s.first := by
  simp only [step] at hs
  split at hs
  · cases hs
  · obtain ⟨w, hw, rfl⟩ := Option.map_eq_some_iff.mp hs
    exact ⟨hw, rfl, rfl, rfl⟩

theorem step_connect (hfault : s.world.fault = false) {i : Nat} (hi : i < s.starting.length) :
    ∃ s', s.step (.connect i) = some s' ∧ s'.world = handleNewClientConnection s.world ∧
      s'.starting = s.starting.eraseIdx i ∧
      s'.connected = s.connected ++ [s'.world.backends s.world.nextBackend] ∧
      s'.first = s.first := by
  have hnew := (newBackend_spec s.world).1.trans hfault
  have hstep : s.world.step .backendConnected = some (handleNewClientConnection s.world) := by
    simp [World.step, Event.enabled, Event.run, hnew]
  refine ⟨⟨handleNewClientConnection s.world, s.starting.eraseIdx i, s.connected ++
    [(handleNewClientConnection s.world).backends s.world.nextBackend], s.first⟩,
    ?_, rfl, rfl, rfl, rfl⟩
  simp only [step, if_pos hi, hstep, Option.map_some]

theorem exists_event_of_step {a : Happening} (hs : s.step a = some s') :
    ∃ e, s.world.step e = some s'.world := by
  cases a with
  | transport e => exact ⟨e, (step_transport hs).1⟩
  | connect i =>
    simp only [step] at hs
    split at hs
    · obtain ⟨w, hw, rfl⟩ := Option.map_eq_some_iff.mp hs
      exact ⟨_, hw⟩
    · cases hs

theorem Sorted.link_step (h : s.Sorted) {a : Happening} (hs : s.step a = some s') :
    Link none none s'.world ∧ s'.world.fault = false := by
  obtain ⟨e, he⟩ := exists_event_of_step hs
  obtain ⟨-, hfault, hrun⟩ := step_eq_some he
  rw [← hrun]
  exact ⟨h.link.run e, hfault⟩

/-- An event of the transport starts processes, and they are accounted for. -/
theorem Sorted.transport (h : s.Sorted) (hs : s.step (.transport e) = some s') :
    ∃ ks, started s.world (e.run s.world) = ks ∧ s'.starting = s.starting ++ ks ∧
      s'.world.isNextLongRun = ks.getLast?.getD s.world.isNextLongRun ∧ s'.Accounted := by
  obtain ⟨hw, hstarting, hconnected, hfirst⟩ := step_transport hs
  obtain ⟨-, -, hrun⟩ := step_eq_some hw
  obtain ⟨ks, hks⟩ := spawning_run h.link e
  have hstarted := hks.started_eq
  rw [hrun] at hks
  rw [hks.started_eq] at hstarting
  refine ⟨ks, hstarted, hstarting, hks.next, fun k => ?_⟩
  have hcount := h.accounted k
  rw [requested, List.count_append] at hcount
  rw [requested, hconnected, hstarting, hfirst, hks.execs, List.count_append, List.count_append,
    List.count_append, List.count_reverse]
  omega

theorem Sorted.connect (h : s.Sorted) {i : Nat} (hs : s.step (.connect i) = some s') :
    s'.Sorted := by
  obtain ⟨hlink, hfault⟩ := h.link_step hs
  have hi : i < s.starting.length := by
    by_contra hnot
    simp [step, hnot] at hs
  obtain ⟨s₁, hs₁, hworld, hstarting, hconnected, hfirst⟩ := step_connect h.fault hi
  obtain rfl : s₁ = s' := Option.some.inj (hs₁.symm.trans hs)
  obtain ⟨-, hspawning, hclass⟩ := newBackend_spec s.world
  rw [← hworld] at hspawning hclass
  have hnext : s₁.world.isNextLongRun = s.world.isNextLongRun := hspawning.next
  refine ⟨hlink, hfault, fun k hk => ?_, fun k => ?_⟩
  · rw [hstarting] at hk
    rw [hnext]
    exact h.starting k (List.mem_of_mem_eraseIdx hk)
  · have hcount := h.accounted k
    have hmem : s.starting[i] = s.world.isNextLongRun := h.starting _ (List.getElem_mem hi)
    have herase : (s.starting.eraseIdx i).count k + (if k = s.world.isNextLongRun then 1 else 0) =
        s.starting.count k := by
      have hperm := (List.getElem_cons_eraseIdx_perm hi).count_eq k
      rw [List.count_cons, hmem] at hperm
      rw [← hperm]
      by_cases hk : k = s.world.isNextLongRun
      · simp [hk]
      · simp [hk, Ne.symm hk]
    rw [requested_eq hfirst hspawning, hconnected, hstarting, List.countP_append, List.countP_singleton, hclass k]
    simp only [decide_eq_true_eq]
    omega

theorem Sorted.step (h : s.Sorted) {a : Happening} (hs : s.step a = some s') (hC : Orderly s a) :
    s'.Sorted := by
  cases a with
  | connect i => exact h.connect hs
  | transport e =>
    obtain ⟨hlink, hfault⟩ := h.link_step hs
    obtain ⟨ks, hstarted, hstarting, hnext, haccounted⟩ := h.transport hs
    refine ⟨hlink, hfault, fun k' hk' => ?_, haccounted⟩
    rw [hstarting] at hk'
    cases hlast : ks.getLast? with
    | none =>
      rw [hlast] at hnext
      rw [List.getLast?_eq_none_iff.mp hlast, List.append_nil] at hk'
      exact (h.starting k' hk').trans hnext.symm
    | some k =>
      rw [hlast] at hnext
      simp only [Orderly, hstarted] at hC
      exact (hC k (List.mem_of_getLast? hlast) k' hk').trans hnext.symm

theorem Sorted.stays (h : s.Sorted) : s.StaysWithin := by
  intro order
  induction order generalizing s with
  | nil =>
    intro s' hs'
    obtain rfl := Option.some.inj hs'
    exact h.accounted.within
  | cons i order ih =>
    intro s' hs'
    obtain ⟨s₁, hs₁, hrest⟩ := Option.bind_eq_some_iff.mp hs'
    exact ih (h.connect hs₁) s' hrest

/-- Everything that has been started connects, and all get the class of the flag. -/
theorem exists_connect_all (hfault : s.world.fault = false) :
    ∃ order s', machine.exec s (List.map .connect order) = some s' ∧
      s'.requested = s.requested ∧
      s'.connected.countP (isFor s.world.isNextLongRun) =
        s.connected.countP (isFor s.world.isNextLongRun) + s.starting.length := by
  generalize hn : s.starting.length = n
  induction n generalizing s with
  | zero => exact ⟨[], s, rfl, rfl, rfl⟩
  | succ n ih =>
    obtain ⟨s₁, hs₁, hworld, hstarting, hconnected, hfirst⟩ :=
      step_connect hfault (i := 0) (by omega)
    obtain ⟨hfault₁, hspawning, hclass⟩ := newBackend_spec s.world
    rw [← hworld] at hfault₁ hspawning hclass
    have hlength : s₁.starting.length = n := by
      rw [hstarting, List.length_eraseIdx_of_lt (by omega), hn, Nat.add_sub_cancel]
    obtain ⟨order, s', hs', hrequested, hcount⟩ := ih (hfault₁.trans hfault) hlength
    have hnext : s₁.world.isNextLongRun = s.world.isNextLongRun := hspawning.next
    refine ⟨0 :: order, s', Option.bind_eq_some_iff.mpr ⟨s₁, hs₁, hs'⟩,
      hrequested.trans (requested_eq hfirst hspawning), ?_⟩
    rw [hnext] at hcount
    rw [hcount, hconnected, List.countP_append, List.countP_singleton, hclass]
    simp only [decide_true, if_true]
    omega

/-- With a process that is for another use than the flag, the backends of the flag's use can become
more than were asked for. -/
theorem starting_of_stays (haccounted : s.Accounted) (hfault : s.world.fault = false)
    (hstays : s.StaysWithin) : ∀ k ∈ s.starting, k = s.world.isNextLongRun := by
  obtain ⟨order, s', hs', hrequested, hcount⟩ := exists_connect_all hfault
  have hle := hstays order s' hs' s.world.isNextLongRun
  rw [hcount, hrequested, ← haccounted] at hle
  have hall : s.starting.count s.world.isNextLongRun = s.starting.length :=
    Nat.le_antisymm List.count_le_length (by omega)
  intro k hk
  exact (List.count_eq_length.mp hall k hk).symm

end Steps

/-! ## Every run -/

variable {s : Deployment} {tr : List (Deployment × Happening)}

theorem sorted_start (cfg : Config) (now : Int) (storage : Option (Jid → Option UserInfo)) (n : Nat) :
    Sorted ⟨World.start cfg now storage, List.replicate n false, [], n⟩ where
  link := link_start cfg now storage
  fault := rfl
  starting _ hk := List.eq_of_mem_replicate hk
  accounted k := Nat.zero_add ((List.replicate n false).count k)

/-- A run of the deployment is one of the transport. -/
theorem exists_transport_run (h : machine.Run tr s) : ∃ tr', World.machine.Run tr' s.world := by
  induction h with
  | init h0 =>
    obtain ⟨cfg, now, storage, n, rfl⟩ := h0
    exact ⟨[], .init (init_start cfg now storage)⟩
  | @step tr s s' a _ hs ih =>
    obtain ⟨tr', hrun⟩ := ih
    obtain ⟨e, he⟩ := exists_event_of_step hs
    exact ⟨_, hrun.step he⟩

/-- In every run in which all processes that are started while others have not connected are for
the same use, no use has more backends than were asked for it, and only in these runs this stays so
whatever processes connect. -/
theorem staysWithin_iff_orderly (h : machine.Run tr s) :
    (Lib.Machine.Meets Orderly tr → Lib.Machine.Always WithinRequests tr s) ∧
      (Lib.Machine.Always StaysWithin tr s ↔ Lib.Machine.Meets Orderly tr) := by
  have hiff : Lib.Machine.Always StaysWithin tr s ↔ Lib.Machine.Meets Orderly tr := by
    refine h.always_iff (I := Sorted) ?_ (fun s hs => hs.stays) ?_ ?_
    · rintro s ⟨cfg, now, storage, n, rfl⟩
      exact sorted_start cfg now storage n
    · intro s a s' hs hsorted hC
      exact hsorted.step hs hC
    · intro s a s' hs hsorted hstays
      change s.step a = some s' at hs
      cases a with
      | connect i => trivial
      | transport e =>
        obtain ⟨-, hfault⟩ := hsorted.link_step hs
        obtain ⟨ks, hstarted, hstarting, -, haccounted⟩ := hsorted.transport hs
        have hall := starting_of_stays haccounted hfault hstays
        rw [hstarting] at hall
        simp only [Orderly, hstarted]
        intro k hk k' hk'
        exact (hall k' hk').trans (hall k (List.mem_append_right _ hk)).symm
  have hwithin : ∀ s, StaysWithin s → WithinRequests s := fun s hs => hs [] s rfl
  refine ⟨fun hC => ?_, hiff⟩
  obtain ⟨hlast, hall⟩ := hiff.mpr hC
  exact ⟨hwithin s hlast, fun p hp => hwithin p.1 (hall p hp)⟩

namespace Sample

/-- One user for each backend, and users are moved after one second without activity. -/
def cfg : Config := { Spectrum.Sample.cfg with usersPerBackend := 1, idleReconnectTime := 1 }

/-- `start` has started one process. -/
def fresh : Deployment := ⟨World.start cfg 0 none, [false], [], 1⟩

/-- Alice is on backend 0, and a process for long-running use is started for her. -/
def moved : List Happening :=
  [.connect 0, .transport (.received 0 .pong),
    .transport (.presence (Spectrum.Sample.available "alice")), .transport (.clock 5),
    .transport .pingTimeout, .connect 0]

/-- A process for bob has been started and not connected when the one for alice is started. -/
def crossed : List Happening :=
  [.connect 0, .transport (.received 0 .pong),
    .transport (.presence (Spectrum.Sample.available "alice")), .transport (.presence (Spectrum.Sample.available "bob")),
    .transport (.clock 5), .transport .pingTimeout, .transport (.received 0 .pong),
    .transport .pingTimeout, .connect 0, .connect 0]

end Sample

theorem init_fresh : machine.init Sample.fresh := ⟨Sample.cfg, 0, none, 1, rfl⟩

/-- A backend for each use, one after the other. -/
theorem staysWithin_iff_orderly_moved : ∃ tr s, machine.Run tr s ∧
    s.connected.map Backend.longRun = [false, true] ∧ Lib.Machine.Always WithinRequests tr s := by
  have hexec : ∃ s, (machine.restrict Orderly).exec Sample.fresh Sample.moved = some s ∧
      s.connected.map Backend.longRun = [false, true] := ⟨_, by rfl, by rfl⟩
  obtain ⟨s, hs, hclasses⟩ := hexec
  obtain ⟨tr, hrun, hmeets⟩ := Lib.Machine.exists_run_of_restrict init_fresh hs
  exact ⟨tr, s, hrun, hclasses, (staysWithin_iff_orderly hrun).1 hmeets⟩

/-- One process was started for long-running use, and two backends are long-running. -/
theorem not_withinRequests_crossed : ∃ tr s, machine.Run tr s ∧
    s.requested.count true = 1 ∧ s.connected.countP (isFor true) = 2 ∧ ¬ s.WithinRequests := by
  have hexec : ∃ s, machine.exec Sample.fresh Sample.crossed = some s ∧
      s.requested.count true = 1 ∧ s.connected.countP (isFor true) = 2 :=
    ⟨_, by rfl, by rfl, by rfl⟩
  obtain ⟨s, hs, hspawned, hconnected⟩ := hexec
  obtain ⟨tr, hrun, -⟩ := Lib.Machine.exists_run_of_exec init_fresh hs
  refine ⟨tr, s, hrun, hspawned, hconnected, fun hwithin => ?_⟩
  have hle := hwithin true
  omega

end Deployment

end Spectrum
