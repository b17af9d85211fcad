import Spectrum.Transport.Flow

/-!
# Capacity and class of backends

No backend has more than `users_per_backend` users, and a user is assigned only to a backend
that has answered its first PING, is not dying, and is of the class the assignment is for:
`handleUserCreated` assigns to normal backends and `moveToLongRunBackend` to long-running ones.
-/

namespace Spectrum

open World NetworkPluginServer

/-- The invariant. `ready` and `recorded` tie the log to the state. -/
structure Fits (w : World) : Prop where
  capacity : ∀ b ∈ w.clients, ((w.backends b).users.length : Int) ≤ w.cfg.usersPerBackend
  ready : ∀ b ∈ w.clients, (w.backends b).willDie = false → .pong b ∈ w.log
  recorded : ∀ b ∈ w.clients, ∀ u ∈ (w.backends b).users, ∃ how c, .assign how u b c ∈ w.log
  assigned : ∀ how u b c l, (.assign how u b c :: l) <:+ w.log →
    .pong b ∈ l ∧ c.willDie = false ∧ c.longRun = how.longRun

section Fits

variable {X : BackendId → Prop} {w w' : World}

/-- An effect that was not logged now was logged before. -/
theorem Logs.suffix_of {P : Effect → Prop} (h : Logs P w w') {e : Effect} (he : ¬P e)
    {l : List Effect} (hl : (e :: l) <:+ w'.log) : (e :: l) <:+ w.log := by
  obtain ⟨new, hnew, hP⟩ := h
  rw [hnew] at hl
  clear hnew
  induction new with
  | nil => exact hl
  | cons a new ih =>
    rcases List.suffix_cons_iff.mp hl with heq | hl
    · have hea : e = a := (List.cons.inj heq).1
      subst hea
      exact absurd (hP e List.mem_cons_self) he
    · exact ih hl fun x hx => hP x (List.mem_cons_of_mem a hx)

theorem Fits.shrink (h : Fits w) (hs : Shrinks w w') : Fits w' where
  capacity := by
    intro b hb
    rw [hs.clients] at hb
    rw [hs.cfg]
    have hcap := h.capacity b hb
    have hle := (hs.usersOf b).length_le
    omega
  ready := by
    intro b hb hdie
    rw [hs.clients] at hb
    apply hs.log.mem_of_mem
    apply h.ready b hb
    by_contra hne
    rw [hs.willDie b (by simpa using hne)] at hdie
    cases hdie
  recorded := by
    intro b hb u hu
    rw [hs.clients] at hb
    obtain ⟨how, c, hmem⟩ := h.recorded b hb u ((hs.usersOf b).subset hu)
    exact ⟨how, c, hs.log.mem_of_mem hmem⟩
  assigned := by
    intro how u b c l hl
    have hnot : ¬Effect.Calm (.assign how u b c) := fun hcalm => hcalm
    exact h.assigned how u b c l (hs.log.suffix_of hnot hl)

theorem Fits.attach (h : Fits w) (how : Assignment) (u : UserId) {c : BackendId}
    (hc : c ∈ w.clients) (hdie : (w.backends c).willDie = false)
    (hlen : ((w.backends c).users.length : Int) < w.cfg.usersPerBackend)
    (hlong : (w.backends c).longRun = how.longRun) : Fits (attach how u c w) := by
  have hlog : (NetworkPluginServer.attach how u c w).log =
      .assign how u c (w.backends c) :: w.log := rfl
  refine ⟨?_, ?_, ?_, ?_⟩
  · intro b hb
    show _ ≤ w.cfg.usersPerBackend
    rw [attach_usersOf]
    split
    · rename_i hbc
      subst hbc
      rw [List.length_append, List.length_singleton]
      push_cast
      omega
    · exact h.capacity b hb
  · intro b hb hb'
    rw [attach_willDie] at hb'
    rw [hlog]
    exact List.mem_cons_of_mem _ (h.ready b hb hb')
  · intro b hb v hv
    rw [hlog]
    rcases mem_attach hv with hv | ⟨rfl, rfl⟩
    · obtain ⟨how', c', hmem⟩ := h.recorded b hb v hv
      exact ⟨how', c', List.mem_cons_of_mem _ hmem⟩
    · exact ⟨how, w.backends b, List.mem_cons_self⟩
  · intro how' v b c' l hl
    rw [hlog] at hl
    rcases List.suffix_cons_iff.mp hl with heq | hl
    · obtain ⟨heff, rfl⟩ := List.cons.inj heq
      cases heff
      exact ⟨h.ready c hc hdie, hdie, hlong⟩
    · exact h.assigned how' v b c' l hl

theorem Fits.drop (h : Fits w) (c : BackendId) :
    Fits { w.modBackend c (fun b => { b with connection := false }) with
      clients := w.clients.filter fun b => b ≠ c } := by
  have hback : ∀ b, b ∈ w.clients.filter (fun b => b ≠ c) → b ∈ w.clients ∧
      (w.modBackend c (fun b => { b with connection := false })).backends b = w.backends b := by
    intro b hb
    have hb' : b ∈ w.clients ∧ b ≠ c := by simpa using hb
    exact ⟨hb'.1, by simp [modBackend, Function.update_of_ne hb'.2]⟩
  refine ⟨?_, ?_, ?_, h.assigned⟩
  · intro b hb
    obtain ⟨hmem, heq⟩ := hback b hb
    rw [heq]
    exact h.capacity b hmem
  · intro b hb hdie
    obtain ⟨hmem, heq⟩ := hback b hb
    rw [heq] at hdie
    exact h.ready b hmem hdie
  · intro b hb u hu
    obtain ⟨hmem, heq⟩ := hback b hb
    rw [heq] at hu
    exact h.recorded b hmem u hu

theorem Fits.flow (h : Fits w) (hf : Flow X w w') : Fits w' := by
  induction hf with
  | shrink hs => exact h.shrink hs
  | attach how u c hc hdie hlen hlong => exact h.attach how u hc hdie hlen hlong
  | enqueue u _ => exact ⟨h.capacity, h.ready, h.recorded, h.assigned⟩
  | drop c _ => exact h.drop c
  | trans _ _ ih ih' => exact ih' (ih h)

/-- A change of a backend that keeps its users and does not revive it. -/
theorem Fits.modBackend (h : Fits w) (b : BackendId) {f : Backend → Backend}
    (husers : ∀ c, (f c).users = c.users)
    (hdie : b ∈ w.clients → (f (w.backends b)).willDie = false →
      (w.backends b).willDie = false ∨ .pong b ∈ w.log) : Fits (w.modBackend b f) := by
  have hback : ∀ c, ((w.modBackend b f).backends c).users = (w.backends c).users := by
    intro c
    by_cases hc : c = b
    · subst hc
      simp [World.modBackend, husers]
    · simp [World.modBackend, Function.update_of_ne hc]
  refine ⟨?_, ?_, ?_, h.assigned⟩
  · intro c hc
    rw [hback]
    exact h.capacity c hc
  · intro c hc hc'
    by_cases hcb : c = b
    · subst hcb
      have hdie' : (f (w.backends c)).willDie = false := by simpa [World.modBackend] using hc'
      rcases hdie hc hdie' with hold | hpong
      · exact h.ready c hc hold
      · exact hpong
    · have hold : (w.backends c).willDie = false := by
        simpa [World.modBackend, Function.update_of_ne hcb] using hc'
      exact h.ready c hc hold
  · intro c hc u hu
    rw [hback] at hu
    exact h.recorded c hc u hu

theorem Fits.sendPing (h : Fits w) (b : BackendId) : Fits (sendPing b w) := by
  rcases sendPing_cases b w with heq | ⟨w₁, hq, heq⟩
  · rw [heq]
    exact h
  · rw [heq]
    exact (h.shrink (.of_idle hq)).modBackend b (fun _ => rfl) fun _ hd => .inl hd

theorem Fits.noteData (h : Fits w) (b : BackendId) : Fits (noteData b w) := by
  obtain ⟨v, hv⟩ := noteData_eq b w
  rw [hv]
  exact h.modBackend b (fun _ => rfl) fun _ hd => .inl hd

theorem Fits.pong (h : Fits w) (b : BackendId) : Fits (handlePongReceived b w) := by
  have hemit : Fits (w.emit (.pong b)) := by
    have hmem : ∀ e, e ∈ w.log → e ∈ (w.emit (.pong b)).log :=
      fun e he => List.mem_cons_of_mem _ he
    refine ⟨h.capacity, ?_, ?_, ?_⟩
    · intro c hc hdie
      exact hmem _ (h.ready c hc hdie)
    · intro c hc u hu
      obtain ⟨how, st, hin⟩ := h.recorded c hc u hu
      exact ⟨how, st, hmem _ hin⟩
    · intro how u c st l hl
      rcases List.suffix_cons_iff.mp hl with heq | hl
      · exact absurd (List.cons.inj heq).1 (by simp)
      · exact h.assigned how u c st l hl
  simp only [handlePongReceived]
  split
  · have hready : Fits ((w.emit (.pong b)).modBackend b fun c => { c with willDie := false }) :=
      hemit.modBackend b (fun _ => rfl) fun _ _ => .inr List.mem_cons_self
    have hdrain := (hready.flow (X := fun _ => False) (flow_startComponent _)).flow
      (X := fun _ => False) (flow_connectWaitingUsers _)
    exact hdrain.modBackend b (fun _ => rfl) fun _ hd => .inl hd
  · exact hemit.modBackend b (fun _ => rfl) fun _ hd => .inl hd

theorem Fits.newBackend (h : Fits w) (hlink : Link none none w)
    (hone : 1 ≤ w.cfg.usersPerBackend) : Fits (handleNewClientConnection w) := by
  have hnew : Fits (withBackend w) := by
    have hback : ∀ b ∈ w.clients, (withBackend w).backends b = w.backends b := by
      intro b hb
      have hne : b ≠ w.nextBackend := Nat.ne_of_lt (hlink.fresh b hb)
      simp [withBackend, Function.update_of_ne hne]
    refine ⟨?_, ?_, ?_, h.assigned⟩
    · intro b hb
      rcases List.mem_cons.mp hb with rfl | hb
      · have hempty : ((withBackend w).backends w.nextBackend).users = [] := by
          simp [withBackend]
        rw [hempty]
        show ((0 : Nat) : Int) ≤ w.cfg.usersPerBackend
        omega
      · rw [hback b hb]
        exact h.capacity b hb
    · intro b hb hdie
      rcases List.mem_cons.mp hb with rfl | hb
      · simp [withBackend] at hdie
      · rw [hback b hb] at hdie
        exact h.ready b hb hdie
    · intro b hb u hu
      rcases List.mem_cons.mp hb with rfl | hb
      · simp [withBackend] at hu
      · rw [hback b hb] at hu
        exact h.recorded b hb u hu
  rw [handleNewClientConnection_eq]
  exact (hnew.sendPing _).modBackend _ (fun _ => rfl) fun _ hd => .inl hd

theorem Fits.checkBackends (h : Fits w) (bs : List BackendId) : Fits (checkBackends bs w).2 := by
  induction bs generalizing w with
  | nil => exact h
  | cons b bs ih =>
    simp only [NetworkPluginServer.checkBackends]
    split
    · exact ih h
    · exact ih (h.sendPing b)

theorem Fits.sweep (h : Fits w) : Fits (sweep w) := by
  have hstart : Fits { w with startingBackend := false } :=
    ⟨h.capacity, h.ready, h.recorded, h.assigned⟩
  have hcheck := hstart.checkBackends w.clients
  exact hcheck.flow (X := fun _ => True)
    (Flow.foldl (fun w b => flow_finished trivial w) _ _)

theorem Fits.run (h : Fits w) (hlink : Link none none w) (hone : 1 ≤ w.cfg.usersPerBackend)
    (e : Event) : Fits (e.run w) := by
  by_cases he : e.flows = true
  · exact h.flow (X := fun _ => True) (flow_run he (fun _ _ => trivial) w)
  · cases e with
    | backendConnected => exact h.newBackend hlink hone
    | received b m =>
      by_cases hm : m = .pong
      · subst hm
        exact (h.noteData b).pong b
      · exact (h.noteData b).flow (X := fun _ => False) (flow_handleMessage hm w)
    | pingTimeout => exact (h.flow (X := fun _ => False) (flow_moveIdleUsers w)).sweep
    | loginDelay =>
      have htimer : Fits { w with loginTimer := false } :=
        ⟨h.capacity, h.ready, h.recorded, h.assigned⟩
      exact htimer.flow (X := fun _ => False) (flow_connectWaitingUsers _)
    | _ => exact absurd rfl he

/-! ## Every run -/

theorem fits_of_run {tr : List (World × Event)} (h : machine.Run tr w)
    (hone : 1 ≤ w.cfg.usersPerBackend) : Fits w := by
  have hinv : Link none none w ∧ (1 ≤ w.cfg.usersPerBackend → Fits w) := by
    refine h.invariant (I := fun w => Link none none w ∧ (1 ≤ w.cfg.usersPerBackend → Fits w))
      ?_ ?_
    · rintro s ⟨cfg, now, storage, rfl⟩
      exact ⟨link_start cfg now storage, fun _ => by constructor <;> simp [World.start]⟩
    · rintro s e s' hs ⟨hlink, hfits⟩
      obtain ⟨-, -, rfl⟩ := step_eq_some hs
      refine ⟨hlink.run e, fun hone => ?_⟩
      rw [run_cfg] at hone
      exact (hfits hone).run hlink hone e
  exact hinv.2 hone

/-- In every run, every backend has at most `users_per_backend` users; every listed user was
assigned; and at every assignment the backend had answered a PING before, was not dying, and
was of the class of the assignment. -/
theorem backends_fit {tr : List (World × Event)} (h : machine.Run tr w)
    (hone : 1 ≤ w.cfg.usersPerBackend) :
    (∀ b ∈ w.clients, ((w.backends b).users.length : Int) ≤ w.cfg.usersPerBackend) ∧
      (∀ b ∈ w.clients, ∀ u ∈ (w.backends b).users, ∃ how c, .assign how u b c ∈ w.log) ∧
      ∀ how u b c l, (.assign how u b c :: l) <:+ w.log →
        .pong b ∈ l ∧ c.willDie = false ∧
          (how = .created → c.longRun = false) ∧ (how = .moved → c.longRun = true) := by
  have hfits := fits_of_run h hone
  refine ⟨hfits.capacity, hfits.recorded, ?_⟩
  intro how u b c l hl
  obtain ⟨hpong, hdie, hlong⟩ := hfits.assigned how u b c l hl
  refine ⟨hpong, hdie, ?_, ?_⟩
  · rintro rfl
    exact hlong
  · rintro rfl
    exact hlong

/-- A user that waits for the only backend is assigned at its first PONG. -/
theorem backends_fit_alice :
    ∃ tr w, machine.Run tr w ∧ 1 ≤ w.cfg.usersPerBackend ∧ (w.backends 0).users = [0] ∧
      (∀ b ∈ w.clients, ((w.backends b).users.length : Int) ≤ w.cfg.usersPerBackend) ∧
      ∀ how u b c l, (.assign how u b c :: l) <:+ w.log →
        .pong b ∈ l ∧ c.willDie = false ∧
          (how = .created → c.longRun = false) ∧ (how = .moved → c.longRun = true) := by
  have hexec : ∃ w, machine.exec (World.start Sample.cfg 0 none)
      [.presence (Sample.available "alice"), .backendConnected, .received 0 .pong] = some w ∧
      (w.backends 0).users = [0] ∧ w.cfg.usersPerBackend = 100 := ⟨_, by rfl, by rfl, by rfl⟩
  obtain ⟨w, hw, husers, hcfg⟩ := hexec
  obtain ⟨tr, hrun, -⟩ := Lib.Machine.exists_run_of_exec (init_start Sample.cfg 0 none) hw
  have hone : 1 ≤ w.cfg.usersPerBackend := by omega
  obtain ⟨hcap, -, hassigned⟩ := backends_fit hrun hone
  exact ⟨tr, w, hrun, hone, husers, hcap, hassigned⟩

end Fits

end Spectrum
