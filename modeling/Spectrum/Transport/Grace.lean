import Spectrum.Transport.Flow

/-!
# The start-up grace of a backend

A backend that has just connected has `pongReceived == -1` until its first PONG. The first
PONG always makes it ready. The comments of `handleNewClientConnection` and `pingTimeout`
promise that a sweep leaves a just connected backend alone, but the test for idle backends
does not: such a backend has no users yet, so every sweep that sees one finishes it.
-/

namespace Spectrum

open World NetworkPluginServer

/-- Backends outside `Y` that have not answered yet are just connected, empty and marked. -/
structure Grace (Y : BackendId → Prop) (w : World) : Prop where
  unanswered : ∀ b ∈ w.clients, ¬Y b → .pong b ∉ w.log →
    (w.backends b).pongReceived = -1 ∧ (w.backends b).users = [] ∧ (w.backends b).willDie = true
  first : ∀ b ∈ w.clients, ¬Y b → (w.backends b).pongReceived = -1 → .pong b ∉ w.log
  known : ∀ b, .pong b ∈ w.log → b < w.nextBackend

section Grace

variable {X Y : BackendId → Prop} {w w' : World}

theorem Logs.pong_iff (h : Logs Effect.Calm w w') (b : BackendId) :
    .pong b ∈ w'.log ↔ .pong b ∈ w.log := by
  obtain ⟨l, hl, hcalm⟩ := h
  rw [hl, List.mem_append]
  constructor
  · rintro (hmem | hmem)
    · exact absurd (hcalm _ hmem) (fun hc => hc)
    · exact hmem
  · exact .inr

theorem Grace.shrink (h : Grace Y w) (hs : Shrinks w w') : Grace Y w' := by
  refine ⟨?_, ?_, ?_⟩
  · intro b hb hY hpong
    rw [hs.clients] at hb
    rw [hs.log.pong_iff] at hpong
    obtain ⟨hone, husers, hdie⟩ := h.unanswered b hb hY hpong
    refine ⟨by rw [hs.pongReceived]; exact hone, ?_, hs.willDie b hdie⟩
    have hsub := hs.usersOf b
    rw [husers] at hsub
    exact List.sublist_nil.mp hsub
  · intro b hb hY hone
    rw [hs.clients] at hb
    rw [hs.pongReceived] at hone
    rw [hs.log.pong_iff]
    exact h.first b hb hY hone
  · intro b hb
    rw [hs.log.pong_iff] at hb
    rw [hs.nextBackend]
    exact h.known b hb

theorem Grace.attach (h : Grace Y w) (how : Assignment) (u : UserId) {c : BackendId}
    (hdie : (w.backends c).willDie = false) : Grace Y (attach how u c w) := by
  have hlog : ∀ b, Effect.pong b ∈ (NetworkPluginServer.attach how u c w).log ↔
      Effect.pong b ∈ w.log := by
    intro b
    rw [attach_log]
    simp
  refine ⟨?_, ?_, ?_⟩
  · intro b hb hY hpong
    rw [hlog] at hpong
    obtain ⟨hone, husers, hdie'⟩ := h.unanswered b hb hY hpong
    have hne : b ≠ c := by
      rintro rfl
      rw [hdie] at hdie'
      cases hdie'
    rw [attach_pongReceived, attach_usersOf, attach_willDie, if_neg hne]
    exact ⟨hone, husers, hdie'⟩
  · intro b hb hY hone
    rw [attach_pongReceived] at hone
    rw [hlog]
    exact h.first b hb hY hone
  · intro b hb
    rw [hlog] at hb
    exact h.known b hb

theorem Grace.drop (h : Grace Y w) (c : BackendId) :
    Grace Y { w.modBackend c (fun b => { b with connection := false }) with
      clients := w.clients.filter fun b => b ≠ c } := by
  have hback : ∀ b, b ∈ w.clients.filter (fun b => b ≠ c) → b ∈ w.clients ∧
      (w.modBackend c (fun b => { b with connection := false })).backends b = w.backends b := by
    intro b hb
    have hb' : b ∈ w.clients ∧ b ≠ c := by simpa using hb
    exact ⟨hb'.1, by simp [modBackend, Function.update_of_ne hb'.2]⟩
  refine ⟨?_, ?_, h.known⟩
  · intro b hb hY hpong
    obtain ⟨hmem, heq⟩ := hback b hb
    rw [heq]
    exact h.unanswered b hmem hY hpong
  · intro b hb hY hone
    obtain ⟨hmem, heq⟩ := hback b hb
    rw [heq] at hone
    exact h.first b hmem hY hone

theorem Grace.flow (h : Grace Y w) (hf : Flow X w w') : Grace Y w' := by
  induction hf with
  | shrink hs => exact h.shrink hs
  | attach how u c _ hdie _ _ => exact h.attach how u hdie
  | enqueue u _ => exact ⟨h.unanswered, h.first, h.known⟩
  | drop c _ => exact h.drop c
  | trans _ _ ih ih' => exact ih' (ih h)

/-! ## PONGs and new backends -/

theorem Grace.noteData (h : Grace Y w) (b : BackendId) : Grace Y (noteData b w) := by
  unfold NetworkPluginServer.noteData
  split
  · rename_i hzero
    refine ⟨?_, ?_, h.known⟩
    · intro c hc hY hpong
      obtain ⟨hone, husers, hdie⟩ := h.unanswered c hc hY hpong
      have hne : c ≠ b := by
        rintro rfl
        rw [hzero] at hone
        cases hone
      simp only [modBackend, Function.update_of_ne hne]
      exact ⟨hone, husers, hdie⟩
    · intro c hc hY hone
      by_cases hcb : c = b
      · subst hcb
        simp [modBackend] at hone
      · simp only [modBackend, Function.update_of_ne hcb] at hone
        exact h.first c hc hY hone
  · exact h

/-- A backend that has a PONG in the log may change as it likes, short of being `-1`. -/
theorem Grace.modBackend (h : Grace Y w) {b : BackendId} (hpong : .pong b ∈ w.log)
    {f : Backend → Backend} (hf : (f (w.backends b)).pongReceived = -1 →
      (w.backends b).pongReceived = -1) : Grace Y (w.modBackend b f) := by
  refine ⟨?_, ?_, h.known⟩
  · intro c hc hY hpong'
    have hne : c ≠ b := by
      rintro rfl
      exact hpong' hpong
    simp only [World.modBackend, Function.update_of_ne hne]
    exact h.unanswered c hc hY hpong'
  · intro c hc hY hone
    by_cases hcb : c = b
    · subst hcb
      have hone' : (f (w.backends c)).pongReceived = -1 := by
        simpa [World.modBackend] using hone
      exact h.first c hc hY (hf hone')
    · simp only [World.modBackend, Function.update_of_ne hcb] at hone
      exact h.first c hc hY hone

theorem Grace.pong (h : Grace (fun _ => False) w) (hlink : Link none none w) {b : BackendId}
    (hb : b ∈ w.clients) : Grace (fun _ => False) (handlePongReceived b w) := by
  -- between the PONG and the assignment of `pongReceived` the backend is left out
  have hemit : Grace (fun c => c = b ∨ False) (w.emit (.pong b)) := by
    refine ⟨?_, ?_, ?_⟩
    · intro c hc hY hpong
      have hpong' : .pong c ∉ w.log := fun hmem => hpong (List.mem_cons_of_mem _ hmem)
      exact h.unanswered c hc (fun hf => hf) hpong'
    · intro c hc hY hone hmem
      rcases List.mem_cons.mp hmem with heq | hmem
      · cases heq
        exact hY (.inl rfl)
      · exact h.first c hc (fun hf => hf) hone hmem
    · intro c hmem
      rcases List.mem_cons.mp hmem with heq | hmem
      · cases heq
        exact hlink.fresh b hb
      · exact h.known c hmem
  have hlast : ∀ w' : World, Grace (fun c => c = b ∨ False) w' → .pong b ∈ w'.log →
      Grace (fun _ => False) (w'.modBackend b fun c => { c with pongReceived := 1 }) := by
    intro w' hg hpong
    refine ⟨?_, ?_, hg.known⟩
    · intro c hc _ hpong'
      have hne : c ≠ b := by
        rintro rfl
        exact hpong' hpong
      simp only [World.modBackend, Function.update_of_ne hne]
      exact hg.unanswered c hc (by simpa using hne) hpong'
    · intro c hc _ hone
      by_cases hcb : c = b
      · subst hcb
        simp [World.modBackend] at hone
      · simp only [World.modBackend, Function.update_of_ne hcb] at hone
        exact hg.first c hc (by simpa using hcb) hone
  simp only [handlePongReceived]
  split
  · have hready : Grace (fun c => c = b ∨ False)
        ((w.emit (.pong b)).modBackend b fun c => { c with willDie := false }) :=
      hemit.modBackend List.mem_cons_self (fun hone => hone)
    have hstart := flow_startComponent (X := fun _ => False)
      ((w.emit (.pong b)).modBackend b fun c => { c with willDie := false })
    have hdrain := Flow.trans hstart (flow_connectWaitingUsers _)
    exact hlast _ (hready.flow hdrain) (hdrain.log.mem_of_mem List.mem_cons_self)
  · exact hlast _ hemit List.mem_cons_self

theorem Grace.newBackend (h : Grace (fun _ => False) w) (hlink : Link none none w) :
    Grace (fun _ => False) (handleNewClientConnection w) := by
  have hj := joined_newBackend w
  have hlog := (hj.log.mono fun _ ht => Effect.Plain.calm ht).pong_iff
  refine ⟨?_, ?_, ?_⟩
  · intro b hb _ hpong
    rw [hlog] at hpong
    rw [hj.clients] at hb
    rcases List.mem_cons.mp hb with rfl | hb
    · exact ⟨hj.pong_new, hj.users_new, hj.willDie_new⟩
    · rw [hj.old b (Nat.ne_of_lt (hlink.fresh b hb))]
      exact h.unanswered b hb (fun hf => hf) hpong
  · intro b hb _ hone hmem
    rw [hlog] at hmem
    rw [hj.clients] at hb
    rcases List.mem_cons.mp hb with rfl | hb
    · exact Nat.lt_irrefl _ (h.known _ hmem)
    · rw [hj.old b (Nat.ne_of_lt (hlink.fresh b hb))] at hone
      exact h.first b hb (fun hf => hf) hone hmem
  · intro b hmem
    rw [hlog] at hmem
    rw [hj.nextBackend]
    exact Nat.lt_succ_of_lt (h.known b hmem)

/-! ## The sweep -/

/-- A sweep finishes every backend without users, so the unanswered ones are gone. -/
theorem Grace.sweep (h : Grace (fun _ => False) w) : Grace (fun _ => False) (sweep w) := by
  have hping := pinged_checkBackends w.clients { w with startingBackend := false }
  have hempty : ∀ b ∈ w.clients, (w.backends b).users = [] →
      b ∈ (checkBackends w.clients { w with startingBackend := false }).1 :=
    fun b hb he => mem_checkBackends_of_empty (w := { w with startingBackend := false }) hb he
  unfold NetworkPluginServer.sweep
  generalize checkBackends w.clients { w with startingBackend := false } = r at hping hempty
  obtain ⟨toRemove, w₁⟩ := r
  have hlog := (hping.log.mono fun _ ht => Effect.Plain.calm ht).pong_iff
  have hmid : Grace (fun b => b ∈ toRemove) w₁ := by
    refine ⟨?_, ?_, ?_⟩
    · intro b hb hY hpong
      rw [hlog] at hpong
      rw [hping.clients] at hb
      obtain ⟨-, husers, -⟩ := h.unanswered b hb (fun hf => hf) hpong
      exact absurd (hempty b hb husers) hY
    · intro b hb hY hone
      rw [hping.clients] at hb
      rw [hlog]
      exact h.first b hb (fun hf => hf) (hping.pong_of_one hone)
    · intro b hmem
      rw [hlog] at hmem
      rw [hping.nextBackend]
      exact h.known b hmem
  have hflow : Flow (fun _ => True) w₁
      (toRemove.foldl (fun w b => handleSessionFinished b w) w₁) :=
    Flow.foldl (fun w b => flow_finished trivial w) _ _
  have hend := hmid.flow hflow
  have hgone := (finishAll_clients toRemove w₁).2
  exact ⟨fun b hb _ => hend.unanswered b hb fun hmem => hgone b hmem hb,
    fun b hb _ => hend.first b hb fun hmem => hgone b hmem hb, hend.known⟩

theorem Grace.run (h : Grace (fun _ => False) w) (hlink : Link none none w) {e : Event}
    (he : e.enabled w = true) : Grace (fun _ => False) (e.run w) := by
  by_cases hflows : e.flows = true
  · exact h.flow (X := fun _ => True) (flow_run hflows (fun _ _ => trivial) w)
  · cases e with
    | backendConnected => exact h.newBackend hlink
    | received b m =>
      by_cases hm : m = .pong
      · subst hm
        have hb := mem_clients_of_enabled he
        have hclients : (NetworkPluginServer.noteData b w).clients = w.clients := by
          obtain ⟨v, hv⟩ := noteData_eq b w
          rw [hv]
          rfl
        exact (h.noteData b).pong (hlink.noteData b) (by rw [hclients]; exact hb)
      · exact (h.noteData b).flow (X := fun _ => False) (flow_handleMessage hm w)
    | pingTimeout => exact (h.flow (X := fun _ => False) (flow_moveIdleUsers w)).sweep
    | loginDelay =>
      have htimer : Grace (fun _ => False) { w with loginTimer := false } :=
        ⟨h.unanswered, h.first, h.known⟩
      exact htimer.flow (X := fun _ => False) (flow_connectWaitingUsers _)
    | _ => exact absurd rfl hflows

theorem grace_of_run {tr : List (World × Event)} (h : machine.Run tr w) :
    Grace (fun _ => False) w := by
  have hinv : Link none none w ∧ Grace (fun _ => False) w := by
    refine h.invariant (I := fun w => Link none none w ∧ Grace (fun _ => False) w) ?_ ?_
    · rintro s ⟨cfg, now, storage, rfl⟩
      exact ⟨link_start cfg now storage, by constructor <;> simp [World.start]⟩
    · rintro s e s' hs ⟨hlink, hgrace⟩
      obtain ⟨hen, -, rfl⟩ := step_eq_some hs
      exact ⟨hlink.run e, hgrace.run hlink hen⟩
  exact hinv.2

/-! ## The grace of one step -/

/-- The grace in one step: a sweep does not finish a just connected backend, and a
first PONG makes the backend ready and serves the queue. -/
def GraceStep (w : World) : Event → Prop
  | .pingTimeout => ∀ b ∈ w.clients, (w.backends b).pongReceived = -1 →
      b ∈ (NetworkPluginServer.pingTimeout w).clients
  | .received b .pong => .pong b ∉ w.log →
      ((handleMessage b .pong w).backends b).willDie = false ∧
        ∃ l, (handleMessage b .pong w).log = l ++ w.log ∧ .connectWaitingUsers ∈ l
  | _ => True

/-- Every connected backend has handled its first PONG when a sweep starts. -/
def Settled (w : World) (e : Event) : Prop :=
  e = .pingTimeout → ∀ b ∈ w.clients, (w.backends b).pongReceived ≠ -1

instance (w : World) (e : Event) : Decidable (Settled w e) :=
  inferInstanceAs (Decidable (_ → _))

theorem Flow.pong_iff (h : Flow X w w') (b : BackendId) : .pong b ∈ w'.log ↔ .pong b ∈ w.log := by
  induction h with
  | shrink hs => exact hs.log.pong_iff b
  | attach how u c =>
    rw [attach_log]
    simp
  | enqueue => exact Iff.rfl
  | drop => exact Iff.rfl
  | trans _ _ ih ih' => exact ih'.trans ih

theorem sweep_clients (w : World) : (sweep w).clients.Sublist w.clients ∧
    ∀ b ∈ w.clients, (w.backends b).users = [] → b ∉ (sweep w).clients := by
  have hping := pinged_checkBackends w.clients { w with startingBackend := false }
  have hfinish := finishAll_clients
    (checkBackends w.clients { w with startingBackend := false }).1
    (checkBackends w.clients { w with startingBackend := false }).2
  have hclients : (checkBackends w.clients { w with startingBackend := false }).2.clients =
      w.clients := hping.clients
  rw [hclients] at hfinish
  refine ⟨hfinish.1, ?_⟩
  intro b hb hempty
  exact hfinish.2 b
    (mem_checkBackends_of_empty (w := { w with startingBackend := false }) hb hempty)

/-- A sweep that sees a just connected backend finishes it. -/
theorem pingTimeout_finishes (h : Grace (fun _ => False) w) {b : BackendId} (hb : b ∈ w.clients)
    (hone : (w.backends b).pongReceived = -1) :
    b ∉ (NetworkPluginServer.pingTimeout w).clients := by
  have hflow := flow_moveIdleUsers (X := fun _ => False) w
  have hgrace := h.flow hflow
  have hpong : .pong b ∉ (moveIdleUsers w).log := by
    rw [hflow.pong_iff]
    exact h.first b hb (fun hf => hf) hone
  obtain ⟨hsub, hempty⟩ := sweep_clients (moveIdleUsers w)
  intro hmem
  have hmem' : b ∈ (moveIdleUsers w).clients := hsub.subset hmem
  obtain ⟨-, husers, -⟩ := hgrace.unanswered b hmem' (fun hf => hf) hpong
  exact hempty b hmem' husers hmem

/-- The queue is served without touching `willDie`. -/
theorem connectWaitingUsers_willDie (w : World) (b : BackendId) :
    ((connectWaitingUsers w).backends b).willDie = (w.backends b).willDie := by
  have hstart : ((w.emit .connectWaitingUsers).backends b).willDie = (w.backends b).willDie := rfl
  refine drain_induction (I := fun w' => (w'.backends b).willDie = (w.backends b).willDie)
    ?_ ?_ _ _ hstart
  · intro w₁ w₂ hs h
    rw [hs.willDie]
    exact h
  · intro w₁ u rest c _ _ _ h
    have hcreated : ((handleUserCreated u { w₁ with waitingUsers := rest }).backends b).willDie =
        (w₁.backends b).willDie := by
      obtain ⟨w₂, hs, ⟨-, heq⟩ | ⟨d, -, -, heq⟩⟩ :=
        handleUserCreated_cases u { w₁ with waitingUsers := rest }
      · rw [heq]
        exact hs.willDie b
      · rw [heq]
        exact (attach_willDie b).trans (hs.willDie b)
    unfold serve
    rw [(idle_serveLogin u _).quiet.backends, hcreated]
    exact h

/-- The first PONG makes the backend ready and serves the queue. -/
theorem firstPong_ready (h : Grace (fun _ => False) w) {b : BackendId} (hb : b ∈ w.clients)
    (hpong : .pong b ∉ w.log) :
    ((handleMessage b .pong w).backends b).willDie = false ∧
      ∃ l, (handleMessage b .pong w).log = l ++ w.log ∧ .connectWaitingUsers ∈ l := by
  obtain ⟨hone, -, -⟩ := h.unanswered b hb (fun hf => hf) hpong
  have hnote : NetworkPluginServer.noteData b w = w := by
    unfold NetworkPluginServer.noteData
    rw [if_neg (by rw [hone]; decide)]
  have hone' : ((w.emit (.pong b)).backends b).pongReceived = -1 := hone
  simp only [handleMessage, hnote, handlePongReceived, if_pos hone']
  generalize hw₁ : (w.emit (.pong b)).modBackend b (fun c => { c with willDie := false }) = w₁
  have hdie : (w₁.backends b).willDie = false := by
    rw [← hw₁]
    simp [modBackend]
  have hlog₁ : Logs (fun _ => True) w w₁ := by
    rw [← hw₁]
    exact ⟨[.pong b], rfl, fun _ _ => trivial⟩
  have hstart := flow_startComponent (X := fun _ => False) w₁
  have hstartDie : ((startComponent w₁).backends b).willDie = false := by
    rw [(quiet_startComponent w₁).backends]
    exact hdie
  refine ⟨?_, ?_⟩
  · simp only [modBackend, Function.update_self]
    rw [connectWaitingUsers_willDie]
    exact hstartDie
  · obtain ⟨l₁, hl₁, -⟩ := hlog₁.trans hstart.log
    obtain ⟨l₂, hl₂, -⟩ := drain_log (startComponent w₁).waitingUsers.length
      ((startComponent w₁).emit .connectWaitingUsers)
    refine ⟨l₂ ++ .connectWaitingUsers :: l₁, ?_, ?_⟩
    · show (connectWaitingUsers (startComponent w₁)).log = _
      unfold connectWaitingUsers
      rw [hl₂]
      show l₂ ++ (.connectWaitingUsers :: (startComponent w₁).log) = _
      rw [hl₁]
      simp
    · simp

/-! ## Every run -/

/-- A run keeps the grace of its backends exactly if no ping sweep starts while a connected
backend has not handled its first PONG. -/
theorem grace_iff_settled {tr : List (World × Event)} (h : machine.Run tr w) :
    (∀ p ∈ tr, GraceStep p.1 p.2) ↔ Lib.Machine.Meets Settled tr := by
  have hstep : ∀ p ∈ tr, p.2.enabled p.1 = true ∧ Grace (fun _ => False) p.1 := by
    intro p hp
    obtain ⟨tr', hrun, -⟩ := h.source p hp
    obtain ⟨w', hs⟩ := h.step_of_mem p hp
    exact ⟨(step_eq_some hs).1, grace_of_run hrun⟩
  constructor
  · rintro hall ⟨w₁, e⟩ hp he b hb hone
    obtain ⟨-, hgrace⟩ := hstep _ hp
    have hkept := hall _ hp
    have he' : e = .pingTimeout := he
    subst he'
    exact pingTimeout_finishes hgrace hb hone (hkept b hb hone)
  · rintro hsettled ⟨w₁, e⟩ hp
    obtain ⟨hen, hgrace⟩ := hstep _ hp
    cases e with
    | pingTimeout =>
      intro b hb hone
      exact absurd hone (hsettled _ hp rfl b hb)
    | received b m =>
      cases m with
      | pong => exact firstPong_ready hgrace (mem_clients_of_enabled hen)
      | _ => trivial
    | _ => trivial

/-- A backend that answers before the sweep keeps its user. -/
theorem grace_iff_settled_alice :
    ∃ tr w, machine.Run tr w ∧ Lib.Machine.Meets Settled tr ∧ w.clients = [0] ∧
      ∀ p ∈ tr, GraceStep p.1 p.2 := by
  have hexec : ∃ w, (machine.restrict Settled).exec (World.start Sample.cfg 0 none)
      [.presence (Sample.available "alice"), .backendConnected, .received 0 .pong, .pingTimeout] =
        some w ∧ w.clients = [0] := ⟨_, by rfl, by rfl⟩
  obtain ⟨w, hw, hclients⟩ := hexec
  obtain ⟨tr, hrun, hmeets⟩ :=
    Lib.Machine.exists_run_of_restrict (init_start Sample.cfg 0 none) hw
  exact ⟨tr, w, hrun, hmeets, hclients, (grace_iff_settled hrun).mpr hmeets⟩

/-- A ping tick right after a connection finishes the new backend. -/
theorem not_grace_of_tick : ¬ ∀ (tr : List (World × Event)) (w : World), machine.Run tr w →
    ∀ p ∈ tr, GraceStep p.1 p.2 := by
  intro hall
  have hexec : ∃ w₁ w₂, machine.exec (World.start Sample.cfg 0 none) [.backendConnected] = some w₁ ∧
      machine.step w₁ .pingTimeout = some w₂ ∧ w₁.clients = [0] ∧
      (w₁.backends 0).pongReceived = -1 ∧ (NetworkPluginServer.pingTimeout w₁).clients = [] :=
    ⟨_, _, by rfl, by rfl, by rfl, by rfl, by rfl⟩
  obtain ⟨w₁, w₂, hw₁, hw₂, hclients, hone, hgone⟩ := hexec
  obtain ⟨tr, hrun, -⟩ := Lib.Machine.exists_run_of_exec (init_start Sample.cfg 0 none) hw₁
  have hkept := hall _ _ (hrun.step hw₂) (w₁, .pingTimeout) List.mem_cons_self
  have hmem := hkept 0 (by rw [hclients]; exact List.mem_cons_self) hone
  rw [hgone] at hmem
  cases hmem

end Grace

end Spectrum
