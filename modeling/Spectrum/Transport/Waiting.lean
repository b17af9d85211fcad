import Spectrum.Transport.Flow

/-!
# Waiting users are woken up

`connectWaitingUsers` runs when a backend answers its first PING and when the login delay is
over. While somebody waits, one of these must still be to come: a backend is being started,
a connected backend has not answered yet, or the login timer is armed.

A ping sweep clears `m_startingBackend` and finishes the backends that have not answered, and
a backend may be lost before it answers; the users that wait for it are then forgotten. The
property holds in the runs where neither takes away the last wake-up (`Vigilant`).
-/

namespace Spectrum

open World NetworkPluginServer

/-- A waiting user has a wake-up other than the backends of `Y`. -/
def Awake (Y : BackendId → Prop) (w : World) : Prop :=
  w.waitingUsers ≠ [] → w.startingBackend = true ∨ w.loginTimer = true ∨
    ∃ b ∈ w.clients, ¬Y b ∧ (w.backends b).pongReceived = -1

/-- Some event that calls `connectWaitingUsers` is outstanding if somebody waits. -/
def NotStranded (w : World) : Prop :=
  w.waitingUsers ≠ [] → w.startingBackend = true ∨
    (∃ b ∈ w.clients, (w.backends b).pongReceived = -1) ∨ w.loginTimer = true

/-- The last wake-up of a waiting user is not taken away: a backend that has not answered is
lost only if there is another wake-up, and the ping timer fires only if the login timer is
armed. Both are allowed when nobody waits. -/
def Vigilant (w : World) : Event → Prop
  | .backendLost c => (w.backends c).pongReceived = -1 → w.waitingUsers = [] ∨
      w.startingBackend = true ∨ w.loginTimer = true ∨
        ∃ b ∈ w.clients, b ≠ c ∧ (w.backends b).pongReceived = -1
  | .pingTimeout => w.waitingUsers = [] ∨ w.loginTimer = true
  | _ => True

instance (w : World) (e : Event) : Decidable (Vigilant w e) :=
  match e with
  | .backendLost c => inferInstanceAs (Decidable ((w.backends c).pongReceived = -1 →
      w.waitingUsers = [] ∨ w.startingBackend = true ∨ w.loginTimer = true ∨
        ∃ b ∈ w.clients, b ≠ c ∧ (w.backends b).pongReceived = -1))
  | .pingTimeout => inferInstanceAs (Decidable (w.waitingUsers = [] ∨ w.loginTimer = true))
  | .clock _ | .backendConnected | .received .. | .loginDelay | .collect | .presence _
  | .caps .. | .connectingTimeout _ | .activity _ | .removeTick | .unregister _ | .registryTick
  | .openSession _ | .streamStart .. | .element .. | .closeSession _ => isTrue trivial

section Awake

variable {X Y : BackendId → Prop} {w w' : World}

theorem Awake.shrink (h : Awake Y w) (hs : Shrinks w w') : Awake Y w' := by
  intro hwait
  have hwait' : w.waitingUsers ≠ [] := by
    intro hnil
    have hsub := hs.waitingUsers
    rw [hnil] at hsub
    exact hwait (List.sublist_nil.mp hsub)
  rcases h hwait' with hstart | htimer | ⟨b, hb, hY, hone⟩
  · exact .inl (hs.starting hstart)
  · exact .inr (.inl (hs.timer htimer))
  · refine .inr (.inr ⟨b, ?_, hY, ?_⟩)
    · rw [hs.clients]
      exact hb
    · rw [hs.pongReceived]
      exact hone

/-- Wake-ups outside `X` survive a flow that removes backends of `X` only. -/
theorem Awake.flow (h : Awake X w) (hf : Flow X w w') : Awake X w' := by
  induction hf with
  | shrink hs => exact h.shrink hs
  | attach how u c =>
    intro hwait
    rcases h hwait with hstart | htimer | ⟨b, hb, hX, hone⟩
    · exact .inl hstart
    · exact .inr (.inl htimer)
    · exact .inr (.inr ⟨b, hb, hX, by rw [attach_pongReceived]; exact hone⟩)
  | enqueue u hwake =>
    intro _
    rcases hwake with hstart | htimer
    · exact .inl hstart
    · exact .inr (.inl htimer)
  | @drop w c hc =>
    intro hwait
    rcases h hwait with hstart | htimer | ⟨b, hb, hX, hone⟩
    · exact .inl hstart
    · exact .inr (.inl htimer)
    · have hne : b ≠ c := by
        rintro rfl
        exact hX hc
      refine .inr (.inr ⟨b, ?_, hX, ?_⟩)
      · simpa using ⟨hb, hne⟩
      · simpa [modBackend, Function.update_of_ne hne] using hone
  | trans _ _ ih ih' => exact ih' (ih h)

/-! ## Serving the queue -/

/-- Serving the head of the queue after a successful check removes it from the queue. -/
theorem serve_waitingUsers {u : UserId} {rest : List UserId} {c : BackendId}
    (hpost : loginPostponed w = false) (hfind : findFree true false w = some c) :
    (serve u rest w).waitingUsers = rest := by
  have hpost' : loginPostponed { w with waitingUsers := rest } = false := hpost
  have hfind' : findFree true false { w with waitingUsers := rest } = some c := hfind
  obtain ⟨w₁, hs, heq⟩ := handleUserCreated_of_free (u := u) hpost' hfind'
  unfold serve
  rw [(idle_serveLogin u _).quiet.waitingUsers, heq]
  exact hs.waitingUsers

/-- After the queue has been served, nobody waits or a new wake-up has been arranged. -/
theorem drain_awake (n : Nat) (w : World) (hn : w.waitingUsers.length ≤ n) :
    (drain n w).waitingUsers ≠ [] →
      (drain n w).startingBackend = true ∨ (drain n w).loginTimer = true := by
  induction n generalizing w with
  | zero =>
    intro hwait
    exact absurd (List.length_eq_zero_iff.mp (Nat.le_zero.mp hn)) hwait
  | succ n ih =>
    unfold drain
    split
    · rename_i hnil
      intro hwait
      exact absurd hnil hwait
    · rename_i u rest hcons
      rcases getFreeClient_cases true false true w with
        ⟨-, heq⟩ | ⟨hpost, w₁, hw₁, ⟨c, hfind, heq⟩ | ⟨-, heq⟩⟩
      · have hnone := getFreeClient_eq_none true false true w
        rw [heq] at hnone ⊢
        intro _
        exact hnone rfl
      · rw [heq]
        have hclose : closeIfFull true c w₁ = w := by
          rw [hw₁]
          simp [closeIfFull]
        rw [hclose]
        have hlen : (serve u rest w).waitingUsers.length ≤ n := by
          rw [serve_waitingUsers hpost hfind]
          rw [hcons, List.length_cons] at hn
          omega
        exact ih (serve u rest w) hlen
      · have hnone := getFreeClient_eq_none true false true w
        rw [heq] at hnone ⊢
        intro _
        exact hnone rfl

theorem awake_connectWaitingUsers (w : World) : Awake (fun _ => True) (connectWaitingUsers w) := by
  intro hwait
  rcases drain_awake _ (w.emit .connectWaitingUsers) (Nat.le_refl _) hwait with hstart | htimer
  · exact .inl hstart
  · exact .inr (.inl htimer)

theorem Awake.mono (h : Awake X w) (hXY : ∀ b, Y b → X b) : Awake Y w := by
  intro hwait
  rcases h hwait with hstart | htimer | ⟨b, hb, hX, hone⟩
  · exact .inl hstart
  · exact .inr (.inl htimer)
  · exact .inr (.inr ⟨b, hb, fun hY => hX (hXY b hY), hone⟩)

/-- With no wake-up among the backends, a change of backends does not matter. -/
theorem Awake.of_queue (h : Awake (fun _ => True) w) (hwait : w'.waitingUsers = w.waitingUsers)
    (hstart : w'.startingBackend = w.startingBackend) (htimer : w'.loginTimer = w.loginTimer) :
    Awake Y w' := by
  intro hne
  rw [hwait] at hne
  rw [hstart, htimer]
  rcases h hne with hs | ht | ⟨b, -, hX, -⟩
  · exact .inl hs
  · exact .inr (.inl ht)
  · exact absurd trivial hX

/-! ## Events -/

theorem Awake.modBackend (h : Awake Y w) {b : BackendId} {f : Backend → Backend}
    (hone : (w.backends b).pongReceived ≠ -1) : Awake Y (w.modBackend b f) := by
  intro hwait
  rcases h hwait with hstart | htimer | ⟨c, hc, hY, hc'⟩
  · exact .inl hstart
  · exact .inr (.inl htimer)
  · have hne : c ≠ b := by
      rintro rfl
      exact hone hc'
    exact .inr (.inr ⟨c, hc, hY, by simpa [World.modBackend, Function.update_of_ne hne] using hc'⟩)

theorem Awake.noteData (h : Awake Y w) (b : BackendId) : Awake Y (noteData b w) := by
  unfold NetworkPluginServer.noteData
  split
  · rename_i hzero
    exact h.modBackend (by rw [hzero]; decide)
  · exact h

theorem Awake.pong (h : Awake Y w) (b : BackendId) : Awake Y (handlePongReceived b w) := by
  simp only [handlePongReceived]
  split
  · exact (awake_connectWaitingUsers _).of_queue rfl rfl rfl
  · rename_i hone
    have hemit : Awake Y (w.emit (.pong b)) := h
    exact hemit.modBackend hone

theorem Awake.newBackend (w : World) : Awake (fun _ => False) (handleNewClientConnection w) := by
  have hj := joined_newBackend w
  intro _
  refine .inr (.inr ⟨w.nextBackend, ?_, fun hf => hf, hj.pong_new⟩)
  rw [hj.clients]
  exact List.mem_cons_self

theorem moveUsers_waiting (us : List UserId) (w : World) :
    (moveUsers us w).waitingUsers = w.waitingUsers ∧
      (w.loginTimer = true → (moveUsers us w).loginTimer = true) := by
  induction us generalizing w with
  | nil => exact ⟨rfl, id⟩
  | cons u us ih =>
    obtain ⟨hqueue, -⟩ := move_keeps u w
    have htimer : w.loginTimer = true → (moveToLongRunBackend u w).2.loginTimer = true := by
      rcases moveToLongRunBackend_cases u w with heq | ⟨w₁, hs, heq⟩ | heq |
        ⟨w₁, old, c, hs, -, -, -, -, -, heq⟩
      · rw [heq]
        exact id
      · rw [heq]
        exact hs.timer
      · rw [heq]
        exact id
      · rw [heq, (idle_handleUserReadyToConnect u _).quiet.loginTimer]
        exact hs.timer
    unfold moveUsers
    generalize moveToLongRunBackend u w = r at hqueue htimer
    obtain ⟨ok, w₁⟩ := r
    cases ok with
    | false => exact ⟨hqueue, htimer⟩
    | true =>
      obtain ⟨hqueue', htimer'⟩ := ih w₁
      exact ⟨hqueue'.trans hqueue, fun ht => htimer' (htimer ht)⟩

theorem moveIdleUsers_waiting (w : World) :
    (moveIdleUsers w).waitingUsers = w.waitingUsers ∧
      (w.loginTimer = true → (moveIdleUsers w).loginTimer = true) := by
  unfold moveIdleUsers
  split
  · exact ⟨rfl, id⟩
  · exact moveUsers_waiting _ w

theorem awake_pingTimeout (h : w.waitingUsers = [] ∨ w.loginTimer = true) :
    Awake (fun _ => True) (NetworkPluginServer.pingTimeout w) := by
  obtain ⟨hqueue, htimer⟩ := moveIdleUsers_waiting w
  have hping := pinged_checkBackends (moveIdleUsers w).clients
    { moveIdleUsers w with startingBackend := false }
  have hmid : Awake (fun _ => True) (checkBackends (moveIdleUsers w).clients
      { moveIdleUsers w with startingBackend := false }).2 := by
    intro hwait
    right
    left
    rw [hping.waitingUsers] at hwait
    rw [hping.loginTimer]
    rcases h with hnil | ht
    · exact absurd (hqueue.trans hnil) hwait
    · exact htimer ht
  exact hmid.flow (Flow.foldl (fun w b => flow_finished trivial w) _ _)

theorem Awake.run (h : Awake (fun _ => False) w) {e : Event} (he : Vigilant w e) :
    Awake (fun _ => False) (e.run w) := by
  cases e with
  | backendConnected => exact Awake.newBackend w
  | backendLost c =>
    have hother : Awake (fun b => b = c) w := by
      intro hwait
      by_cases hone : (w.backends c).pongReceived = -1
      · rcases he hone with hnil | hrest
        · exact absurd hnil hwait
        · exact hrest
      · rcases h hwait with hstart | htimer | ⟨b, hb, -, hb'⟩
        · exact .inl hstart
        · exact .inr (.inl htimer)
        · refine .inr (.inr ⟨b, hb, ?_, hb'⟩)
          rintro rfl
          exact hone hb'
    have hflow := flow_finished (X := fun b => b = c) rfl w
    exact (hother.flow hflow).mono fun _ hf => hf.elim
  | received b m =>
    by_cases hm : m = .pong
    · subst hm
      exact (h.noteData b).pong b
    · exact (h.noteData b).flow (flow_handleMessage hm w)
  | pingTimeout => exact (awake_pingTimeout he).mono fun _ _ => trivial
  | loginDelay => exact (awake_connectWaitingUsers _).mono fun _ _ => trivial
  | _ => exact h.flow (flow_run rfl (by simp) w)

/-! ## Every run -/

/-- In every run that does not take away the last wake-up of a waiting user, no waiting user
is ever stranded. -/
theorem notStranded_of_vigilant {tr : List (World × Event)} (h : machine.Run tr w)
    (hv : Lib.Machine.Meets Vigilant tr) : NotStranded w := by
  have hawake : Awake (fun _ => False) w := by
    refine h.invariant_of_steps ?_ ?_ hv
    · rintro s ⟨cfg, now, storage, rfl⟩ hwait
      exact absurd rfl hwait
    · intro s e s' he hs hawake
      obtain ⟨-, -, rfl⟩ := step_eq_some hs
      exact hawake.run he
  intro hwait
  rcases hawake hwait with hstart | htimer | ⟨b, hb, -, hone⟩
  · exact .inl hstart
  · exact .inr (.inr htimer)
  · exact .inr (.inl ⟨b, hb, hone⟩)

/-- A user that waits for a backend that is being started. -/
theorem notStranded_alice :
    ∃ tr w, machine.Run tr w ∧ Lib.Machine.Meets Vigilant tr ∧ w.waitingUsers = [0] ∧
      NotStranded w := by
  have hexec : ∃ w, (machine.restrict Vigilant).exec (World.start Sample.cfg 0 none)
      [.loginDelay, .pingTimeout, .presence (Sample.available "alice"), .backendConnected] =
        some w ∧ w.waitingUsers = [0] := ⟨_, by rfl, by rfl⟩
  obtain ⟨w, hw, hwait⟩ := hexec
  obtain ⟨tr, hrun, hmeets⟩ :=
    Lib.Machine.exists_run_of_restrict (init_start Sample.cfg 0 none) hw
  exact ⟨tr, w, hrun, hmeets, hwait, notStranded_of_vigilant hrun hmeets⟩

/-- A ping tick while a backend is being started strands the user that waits for it. -/
theorem stranded_of_tick :
    ¬ ∀ (tr : List (World × Event)) (w : World), machine.Run tr w → NotStranded w := by
  intro hall
  have hexec : ∃ w, machine.exec (World.start Sample.cfg 0 none)
      [.loginDelay, .presence (Sample.available "alice"), .pingTimeout] = some w ∧
      w.waitingUsers = [0] ∧ w.startingBackend = false ∧ w.clients = [] ∧
      w.loginTimer = false := ⟨_, by rfl, by rfl, by rfl, by rfl, by rfl⟩
  obtain ⟨w, hw, hwait, hstart, hclients, htimer⟩ := hexec
  obtain ⟨tr, hrun, -⟩ := Lib.Machine.exists_run_of_exec (init_start Sample.cfg 0 none) hw
  rcases hall tr w hrun (by rw [hwait]; simp) with hs | ⟨b, hb, -⟩ | ht
  · rw [hstart] at hs
    cases hs
  · rw [hclients] at hb
    cases hb
  · rw [htimer] at ht
    cases ht

end Awake

end Spectrum
