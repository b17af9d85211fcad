import Spectrum.Transport.Lifecycle

/-!
# The four ways an operation can change backends and the queue

Seen from the backends, every operation is a sequence of four kinds of steps: one that only
takes away (`Shrinks`), the assignment of a user to a backend that may take him, a user that
is put into the queue while a wake-up is outstanding, and the removal of a backend from a
given set. `Flow X` is the closure of these steps; invariants that each step keeps follow by
induction for whole operations.
-/

namespace Spectrum

open World NetworkPluginServer

/-- The effects that neither assign a user nor answer a PING. -/
def Effect.Calm : Effect → Prop
  | .assign .. | .pong _ => False
  | _ => True

theorem Effect.Tame.calm {e : Effect} (h : e.Tame) : e.Calm := by
  cases e <;> trivial

theorem Effect.Plain.calm {e : Effect} (h : e.Plain) : e.Calm := h.tame.calm

theorem Effect.Mild.calm {e : Effect} (h : e.Mild) : e.Calm := by
  cases e <;> trivial

theorem Effect.Spawns.calm {e : Effect} (h : e.Spawns) : e.Calm := by
  cases e <;> trivial

/-- Users leave backends and the queue, backends start to die, wake-ups are added. -/
structure Shrinks (w w' : World) : Prop where
  cfg : w'.cfg = w.cfg
  clients : w'.clients = w.clients
  nextBackend : w'.nextBackend = w.nextBackend
  usersOf : ∀ b, (w'.backends b).users.Sublist (w.backends b).users
  willDie : ∀ b, (w.backends b).willDie = true → (w'.backends b).willDie = true
  pongReceived : ∀ b, (w'.backends b).pongReceived = (w.backends b).pongReceived
  waitingUsers : w'.waitingUsers.Sublist w.waitingUsers
  starting : w.startingBackend = true → w'.startingBackend = true
  timer : w.loginTimer = true → w'.loginTimer = true
  log : Logs Effect.Calm w w'

/-- The fields that `Shrinks` speaks about. -/
def Core.flow (c : Core) :=
  (c.cfg, c.clients, c.nextBackend, c.backends, c.waitingUsers, c.startingBackend, c.loginTimer)

namespace Shrinks

variable {w w' w₁ : World} {u : UserId}

/-- A change of fields of the state that `Shrinks` does not mention. -/
theorem of_core (h : w'.core.flow = w.core.flow) (hlog : Logs Effect.Calm w w') :
    Shrinks w w' := by
  obtain ⟨hcfg, hclients, hnext, hbackends, hwait, hstart, htimer⟩ :
      w'.cfg = w.cfg ∧ w'.clients = w.clients ∧ w'.nextBackend = w.nextBackend ∧
        w'.backends = w.backends ∧ w'.waitingUsers = w.waitingUsers ∧
        w'.startingBackend = w.startingBackend ∧ w'.loginTimer = w.loginTimer := by
    simpa only [Core.flow, core, Prod.mk.injEq] using h
  exact {
    cfg := hcfg
    clients := hclients
    nextBackend := hnext
    usersOf := fun b => by rw [hbackends]
    willDie := fun b hb => by rw [hbackends]; exact hb
    pongReceived := fun b => by rw [hbackends]
    waitingUsers := by rw [hwait]
    starting := fun h => by rw [hstart]; exact h
    timer := fun h => by rw [htimer]; exact h
    log := hlog }

theorem of_quiet {P : Effect → Prop} (hP : ∀ e, P e → e.Calm) (h : Quiet P w w') :
    Shrinks w w' := of_core (congrArg Core.flow h.core) (h.log.mono hP)

theorem of_tame (h : Quiet Effect.Tame w w') : Shrinks w w' := of_quiet (fun _ h => h.calm) h

theorem of_idle (h : Idle w w') : Shrinks w w' := of_tame h.quiet

theorem of_searched (h : Searched w w') : Shrinks w w' where
  cfg := h.cfg
  clients := h.clients
  nextBackend := h.nextBackend
  usersOf := fun b => by rw [h.usersOf b]
  willDie := fun b hb => by rw [h.willDie b]; exact hb
  pongReceived := h.pongReceived
  waitingUsers := by rw [h.waitingUsers]
  starting := h.starting
  timer := h.timer
  log := h.log.mono fun _ h => h.calm

theorem of_destroyed (h : Destroyed u w w') : Shrinks w w' where
  cfg := h.cfg
  clients := h.clients
  nextBackend := h.nextBackend
  usersOf := h.usersOf_subset
  willDie := fun _ hb => h.willDie hb
  pongReceived := h.pongReceived
  waitingUsers := by rw [h.waitingUsers]; exact List.filter_sublist
  starting := fun hs => by rw [h.startingBackend]; exact hs
  timer := fun ht => by rw [h.loginTimer]; exact ht
  log := h.log.mono fun _ h => Effect.Plain.calm h

theorem emit {e : Effect} (he : e.Calm) : Shrinks w (w.emit e) :=
  of_core rfl (.emit he)

theorem modUser {f : User → User} : Shrinks w (w.modUser u f) :=
  of_core rfl (.of_eq rfl)

theorem modBackend {b : BackendId} {f : Backend → Backend} (husers : ∀ c, (f c).users = c.users)
    (hdie : ∀ c, c.willDie = true → (f c).willDie = true)
    (hpong : ∀ c, (f c).pongReceived = c.pongReceived) : Shrinks w (w.modBackend b f) := by
  refine ⟨rfl, rfl, rfl, ?_, ?_, ?_, List.Sublist.refl _, id, id, .of_eq rfl⟩
  · intro c
    by_cases hc : c = b
    · subst hc
      simp [World.modBackend, husers]
    · simp [World.modBackend, Function.update_of_ne hc]
  · intro c hc
    by_cases hcb : c = b
    · subst hcb
      simpa [World.modBackend] using hdie _ hc
    · simpa [World.modBackend, Function.update_of_ne hcb] using hc
  · intro c
    by_cases hc : c = b
    · subst hc
      simp [World.modBackend, hpong]
    · simp [World.modBackend, Function.update_of_ne hc]

theorem removeFrom (old : BackendId) : Shrinks w (removeFrom u old w) where
  cfg := rfl
  clients := rfl
  nextBackend := rfl
  usersOf := removeFrom_subset old
  willDie := fun b hb => by rw [removeFrom_willDie]; exact hb
  pongReceived := by
    intro b
    by_cases hb : b = old
    · subst hb
      simp [NetworkPluginServer.removeFrom, World.modBackend]
    · simp [NetworkPluginServer.removeFrom, World.modBackend, Function.update_of_ne hb]
  waitingUsers := List.Sublist.refl _
  starting := id
  timer := id
  log := .of_eq rfl

end Shrinks

/-- The class of backends that an assignment is for. -/
def Assignment.longRun : Assignment → Bool
  | .created => false
  | .moved => true

/-- The closure of the four kinds of steps. -/
inductive Flow (X : BackendId → Prop) : World → World → Prop
  | shrink {w w' : World} (h : Shrinks w w') : Flow X w w'
  | attach {w : World} (how : Assignment) (u : UserId) (c : BackendId) (hc : c ∈ w.clients)
      (hdie : (w.backends c).willDie = false)
      (hlen : ((w.backends c).users.length : Int) < w.cfg.usersPerBackend)
      (hlong : (w.backends c).longRun = how.longRun) : Flow X w (attach how u c w)
  | enqueue {w : World} (u : UserId) (h : w.startingBackend = true ∨ w.loginTimer = true) :
      Flow X w { w with waitingUsers := w.waitingUsers ++ [u] }
  | drop {w : World} (c : BackendId) (hc : X c) :
      Flow X w { w.modBackend c (fun b => { b with connection := false }) with
        clients := w.clients.filter fun b => b ≠ c }
  | trans {w w₁ w₂ : World} (h : Flow X w w₁) (h' : Flow X w₁ w₂) : Flow X w w₂

section Flow

variable {X : BackendId → Prop} {w w' : World} {u : UserId}

theorem Flow.foldl {α : Type} {f : World → α → World} (hf : ∀ w a, Flow X w (f w a)) (l : List α)
    (w : World) : Flow X w (l.foldl f w) := by
  induction l generalizing w with
  | nil => exact .shrink (.of_quiet (fun _ h => h) (.refl _ w))
  | cons a l ih => exact .trans (hf w a) (ih (f w a))

theorem Flow.cfg (h : Flow X w w') : w'.cfg = w.cfg := by
  induction h with
  | shrink h => exact h.cfg
  | attach => rfl
  | enqueue => rfl
  | drop => rfl
  | trans _ _ ih ih' => exact ih'.trans ih

theorem Flow.clients (h : Flow X w w') : w'.clients.Sublist w.clients := by
  induction h with
  | shrink h => rw [h.clients]
  | attach => exact List.Sublist.refl _
  | enqueue => exact List.Sublist.refl _
  | drop => exact List.filter_sublist
  | trans _ _ ih ih' => exact ih'.trans ih

theorem Flow.log (h : Flow X w w') : Logs (fun _ => True) w w' := by
  induction h with
  | shrink h => exact h.log.mono fun _ _ => trivial
  | attach => exact ⟨[_], rfl, fun _ _ => trivial⟩
  | enqueue => exact .of_eq rfl
  | drop => exact .of_eq rfl
  | trans _ _ ih ih' => exact ih.trans ih'

theorem flow_created (u : UserId) (w : World) : Flow X w (handleUserCreated u w) := by
  obtain ⟨w₁, hs, ⟨hwake, heq⟩ | ⟨c, hc, hfree, heq⟩⟩ := handleUserCreated_cases u w
  · rw [heq]
    exact .trans (.shrink (.of_searched hs)) (.enqueue u hwake)
  · rw [heq]
    obtain ⟨hdie, -, hlen, -, hlong⟩ := isFree_iff.mp hfree
    refine .trans (.trans (.shrink (.of_searched hs)) (.attach .created u c ?_ ?_ ?_ ?_))
      (.shrink .modUser)
    · rw [hs.clients]
      exact hc
    · rw [hs.willDie]
      exact hdie
    · rw [hs.usersOf, hs.cfg]
      exact hlen
    · rw [hs.longRun]
      exact hlong

theorem flow_destroyed (u : UserId) (w : World) : Flow X w (handleUserDestroyed u w) :=
  .shrink (.of_destroyed (handleUserDestroyed_spec u w))

theorem flow_withUsers (m : Jid → Option UserId) : Flow X w { w with users := m } :=
  .shrink (.of_core rfl (.of_eq rfl))

theorem flow_front {P : Effect → Prop} (hP : ∀ e, P e → e.Calm) (h : Front P w w') :
    Flow X w w' := by
  induction h with
  | quiet hq => exact .shrink (.of_quiet hP hq)
  | @create w j info _ =>
    have hnew : Shrinks w (withUser j info w) :=
      .of_core rfl (.of_eq rfl)
    rw [addUser_eq]
    exact .trans (.shrink hnew) (flow_created _ _)
  | remove _ hq =>
    exact .trans (.trans (flow_withUsers _) (.shrink (.of_quiet hP hq))) (flow_destroyed _ _)
  | trans _ _ ih ih' => exact .trans ih ih'

theorem flow_removeUser (u : UserId) (w : World) : Flow X w (UserManager.removeUser u w) := by
  obtain ⟨w₁, hq, hq'⟩ := removeUser_steps w u
  exact .trans (.trans (flow_withUsers _) (.shrink (.of_idle hq)))
    (.trans (flow_destroyed u w₁) (.shrink (.of_idle hq')))

theorem flow_reconnect (u : UserId) (w : World) : Flow X w (User.reconnect u w) := by
  simp only [User.reconnect]
  exact .trans (.trans (.trans (.shrink .modUser) (flow_destroyed u _)) (flow_created u _))
    (.shrink (.of_idle (idle_onReadyToConnect u _)))

theorem flow_giveUp (u : UserId) (error : String) (w : World) :
    Flow X w (User.giveUp u error w) := by
  simp only [User.giveUp]
  split
  · exact .shrink (.of_idle (idle_reportError u error w))
  · exact .trans (.shrink (.of_idle (idle_reportError u error w))) (flow_removeUser u _)

theorem flow_disconnected (u : UserId) (error : String) (e : ConnectionError) (w : World) :
    Flow X w (User.handleDisconnected u error e w) := by
  have hemit : Flow X w (w.emit (.disconnected u)) := .shrink (.emit trivial)
  rcases handleDisconnected_cases u error e w with ⟨-, heq⟩ | ⟨-, -, heq⟩ | ⟨-, -, heq⟩
  · rw [heq]
    exact hemit
  · rw [heq]
    exact .trans hemit (flow_reconnect u _)
  · rw [heq]
    exact .trans hemit (flow_giveUp u error _)

theorem flow_dropUser (w : World) (u : UserId) : Flow X w (dropUser w u) :=
  .trans (.shrink .modUser) (flow_disconnected u _ _ _)

/-- Everything `handleSessionFinished` does before the backend leaves `m_clients`. -/
theorem flow_finish_users {c : BackendId} (hc : c ∈ w.clients) :
    ∃ w₂, Flow X w w₂ ∧ handleSessionFinished c w =
      { w₂.modBackend c (fun b => { b with connection := false }) with
        clients := w₂.clients.filter fun b => b ≠ c } := by
  obtain ⟨w₁, w₂, hq₁, hq₂, heq⟩ := handleSessionFinished_steps hc
  refine ⟨w₂, ?_, heq⟩
  have hemit : Flow X w (w.emit (.sessionFinished c)) := .shrink (.emit trivial)
  have hmark : Flow X w (markDying c w) := by
    refine .trans hemit (.shrink (.modBackend ?_ ?_ ?_))
    · intro b
      rfl
    · intro b _
      rfl
    · intro b
      rfl
  exact .trans (.trans hmark (.shrink (.of_idle hq₁)))
    (.trans (Flow.foldl flow_dropUser _ _) (.shrink (.of_idle hq₂)))

theorem flow_finished {c : BackendId} (hX : X c) (w : World) :
    Flow X w (handleSessionFinished c w) := by
  by_cases hc : c ∈ w.clients
  · obtain ⟨w₂, hflow, heq⟩ := flow_finish_users (X := X) hc
    rw [heq]
    exact .trans hflow (.drop c hX)
  · unfold handleSessionFinished
    rw [if_pos hc]
    exact .shrink (.of_core rfl (.of_eq rfl))

theorem flow_serve {rest : List UserId} (hwait : w.waitingUsers = u :: rest) :
    Flow X w (serve u rest w) := by
  have hdequeue : Shrinks w { w with waitingUsers := rest } := by
    refine ⟨rfl, rfl, rfl, fun b => List.Sublist.refl _, fun _ h => h, fun _ => rfl, ?_, id, id,
      .of_eq rfl⟩
    rw [hwait]
    exact List.sublist_cons_self u rest
  exact .trans (.trans (.shrink hdequeue) (flow_created u _))
    (.shrink (.of_idle (idle_serveLogin u _)))

theorem drain_log (n : Nat) (w : World) : Logs (fun _ => True) w (drain n w) := by
  refine drain_induction (I := fun w' => Logs (fun _ => True) w w') ?_ ?_ n w (.of_eq rfl)
  · intro w₁ w₂ hs h
    exact h.trans (hs.log.mono fun _ _ => trivial)
  · intro w₁ u rest c hwait _ _ h
    exact h.trans (flow_serve (X := fun _ => False) hwait).log

theorem flow_connectWaitingUsers (w : World) : Flow X w (connectWaitingUsers w) := by
  have hstart : Flow X w (w.emit .connectWaitingUsers) := .shrink (.emit trivial)
  refine drain_induction (I := fun w' => Flow X w w') ?_ ?_ _ _ hstart
  · intro w₁ w₂ hs h
    exact .trans h (.shrink (.of_searched hs))
  · intro w₁ u rest c hwait _ _ h
    exact .trans h (flow_serve hwait)

theorem flow_move (u : UserId) (w : World) : Flow X w (moveToLongRunBackend u w).2 := by
  rcases moveToLongRunBackend_cases u w with heq | ⟨w₁, hs, heq⟩ | heq |
    ⟨w₁, old, c, hs, -, -, -, hc, hfree, heq⟩
  · rw [heq]
    exact .shrink (.of_quiet (fun _ h => h) (.refl _ w))
  · rw [heq]
    exact .shrink (.of_searched hs)
  · rw [heq]
    exact .shrink (.of_core rfl (.of_eq rfl))
  · rw [heq]
    obtain ⟨hdie, -, hlen, -, hlong⟩ := isFree_iff.mp hfree
    refine .trans (.trans (.trans (.shrink (.of_searched hs)) (.shrink .modUser))
      (.trans (.shrink (.removeFrom old)) (.attach .moved u c ?_ ?_ ?_ ?_)))
      (.shrink (.of_idle (idle_handleUserReadyToConnect u _)))
    · show c ∈ w₁.clients
      rw [hs.clients]
      exact hc
    · rw [removeFrom_willDie]
      show (w₁.backends c).willDie = false
      rw [hs.willDie]
      exact hdie
    · have hle := (removeFrom_subset (u := u)
        (w := w₁.modUser u fun y => { y with ignoreDisconnect := true }) old c).length_le
      have husers : ((w₁.modUser u fun y => { y with ignoreDisconnect := true }).backends c).users =
          (w.backends c).users := hs.usersOf c
      rw [husers] at hle
      show _ < w₁.cfg.usersPerBackend
      rw [hs.cfg]
      omega
    · have hsame : ((removeFrom u old
          (w₁.modUser u fun y => { y with ignoreDisconnect := true })).backends c).longRun =
          (w₁.backends c).longRun := by
        by_cases hco : c = old
        · subst hco
          simp [removeFrom, modBackend, modUser]
        · simp [removeFrom, modBackend, modUser, Function.update_of_ne hco]
      rw [hsame, hs.longRun]
      exact hlong

theorem flow_moveUsers (us : List UserId) (w : World) : Flow X w (moveUsers us w) := by
  induction us generalizing w with
  | nil => exact .shrink (.of_quiet (fun _ h => h) (.refl _ w))
  | cons u us ih =>
    have hmove := flow_move (X := X) u w
    unfold moveUsers
    generalize moveToLongRunBackend u w = r at hmove
    obtain ⟨ok, w₁⟩ := r
    cases ok with
    | false => exact hmove
    | true => exact .trans hmove (ih w₁)

theorem flow_moveIdleUsers (w : World) : Flow X w (moveIdleUsers w) := by
  unfold moveIdleUsers
  split
  · exact .shrink (.of_quiet (fun _ h => h) (.refl _ w))
  · exact flow_moveUsers _ w

theorem flow_connected (j : Jid) (w : World) : Flow X w (handleConnectedPayload j w) := by
  unfold handleConnectedPayload
  split
  · exact .shrink (.of_quiet (fun _ h => h) (.refl _ w))
  · rename_i u _
    have hmark : Flow X w (markConnected u w) := .shrink .modUser
    exact .trans (.trans hmark (.shrink (.of_tame (quiet_setConnected u w))))
      (.shrink (.of_quiet (fun _ h => h.calm) (quiet_onPasswordValid _ j)))

theorem flow_disconnectedPayload (j : Jid) (error : ConnectionError) (message : String)
    (w : World) : Flow X w (handleDisconnectedPayload j error message w) := by
  have hinvalid : Flow X w (UserRegistry.onPasswordInvalid j message w) :=
    .shrink (.of_tame (aside_onPasswordInvalid w j message).quiet)
  simp only [handleDisconnectedPayload]
  split
  · exact hinvalid
  · exact .trans hinvalid (flow_disconnected _ _ _ _)

theorem flow_startComponent (w : World) : Flow X w (startComponent w) := by
  refine .shrink (.of_quiet ?_ (quiet_startComponent w))
  rintro _ rfl
  trivial

theorem flow_stats (b : BackendId) (res : Nat) (id : String) (w : World) :
    Flow X w (handleStatsPayload b res id w) := by
  unfold handleStatsPayload
  refine .shrink (.modBackend ?_ ?_ ?_)
  · intro c
    rfl
  · intro c h
    exact h
  · intro c
    rfl

theorem flow_collect (w : World) : Flow X w (collectBackend w) := by
  unfold collectBackend
  split
  · exact .shrink (.of_quiet (fun _ h => h) (.refl _ w))
  · refine .shrink (.modBackend ?_ ?_ ?_)
    · intro c
      rfl
    · intro c h
      exact h
    · intro c
      rfl

/-! ## Pings -/

/-- Some backends were sent a PING. -/
structure Pinged (w w' : World) : Prop where
  rest : { w' with backends := w.backends, log := w.log, fault := w.fault } = w
  backends : ∀ b, ∃ v, w'.backends b = { w.backends b with pongReceived := v } ∧
    (v = 0 ∨ v = (w.backends b).pongReceived)
  log : Logs Effect.Plain w w'

namespace Pinged

variable {w w' w₁ : World}

theorem refl (w : World) : Pinged w w :=
  ⟨rfl, fun b => ⟨(w.backends b).pongReceived, rfl, .inr rfl⟩, .of_eq rfl⟩

theorem cfg (h : Pinged w w') : w'.cfg = w.cfg := (congrArg World.cfg h.rest :)

theorem clients (h : Pinged w w') : w'.clients = w.clients := (congrArg World.clients h.rest :)

theorem nextBackend (h : Pinged w w') : w'.nextBackend = w.nextBackend :=
  (congrArg World.nextBackend h.rest :)

theorem waitingUsers (h : Pinged w w') : w'.waitingUsers = w.waitingUsers :=
  (congrArg World.waitingUsers h.rest :)

theorem loginTimer (h : Pinged w w') : w'.loginTimer = w.loginTimer :=
  (congrArg World.loginTimer h.rest :)

theorem users (h : Pinged w w') : w'.users = w.users := (congrArg World.users h.rest :)

theorem user (h : Pinged w w') : w'.user = w.user := (congrArg World.user h.rest :)

theorem nextUser (h : Pinged w w') : w'.nextUser = w.nextUser := (congrArg World.nextUser h.rest :)

theorem usersOf (h : Pinged w w') (b : BackendId) :
    (w'.backends b).users = (w.backends b).users := by
  obtain ⟨v, heq, -⟩ := h.backends b
  rw [heq]

theorem willDie (h : Pinged w w') (b : BackendId) :
    (w'.backends b).willDie = (w.backends b).willDie := by
  obtain ⟨v, heq, -⟩ := h.backends b
  rw [heq]

theorem pong_of_one (h : Pinged w w') {b : BackendId} (hb : (w'.backends b).pongReceived = -1) :
    (w.backends b).pongReceived = -1 := by
  obtain ⟨v, heq, hv | hv⟩ := h.backends b
  · rw [heq, hv] at hb
    cases hb
  · rw [heq, hv] at hb
    exact hb

theorem trans (h : Pinged w w₁) (h' : Pinged w₁ w') : Pinged w w' := by
  refine ⟨?_, ?_, h.log.trans h'.log⟩
  · have hrest := congrArg (fun w₂ : World =>
      { w₂ with backends := w.backends, log := w.log, fault := w.fault }) h'.rest
    exact hrest.trans h.rest
  · intro b
    obtain ⟨v, heq, hv⟩ := h.backends b
    obtain ⟨v', heq', hv'⟩ := h'.backends b
    refine ⟨v', by rw [heq', heq], ?_⟩
    rw [heq] at hv'
    rcases hv' with hv' | hv'
    · exact .inl hv'
    · rw [hv']
      exact hv

end Pinged

theorem pinged_sendPing (b : BackendId) (w : World) : Pinged w (sendPing b w) := by
  unfold sendPing
  split
  · have hidle := idle_send w b (m := .ping) trivial
    have hsend : (send b .ping w).backends = w.backends := hidle.quiet.backends
    refine ⟨?_, ?_, hidle.log⟩
    · have hrest := congrArg (fun w₁ : World => { w₁ with backends := w.backends })
        (send_rest w b .ping)
      exact hrest
    · intro c
      by_cases hc : c = b
      · subst hc
        exact ⟨0, by simp [modBackend, hsend], .inl rfl⟩
      · refine ⟨(w.backends c).pongReceived, ?_, .inr rfl⟩
        simp [modBackend, Function.update_of_ne hc, hsend]
  · exact .refl w

theorem pinged_checkBackends (bs : List BackendId) (w : World) :
    Pinged w (checkBackends bs w).2 := by
  induction bs generalizing w with
  | nil => exact .refl w
  | cons b bs ih =>
    simp only [checkBackends]
    split
    · exact ih w
    · exact (pinged_sendPing b w).trans (ih _)

/-- What a new connection does: an empty backend of a fresh id, marked and just connected. -/
structure Joined (w w' : World) : Prop where
  cfg : w'.cfg = w.cfg
  clients : w'.clients = w.nextBackend :: w.clients
  nextBackend : w'.nextBackend = w.nextBackend + 1
  old : ∀ b, b ≠ w.nextBackend → w'.backends b = w.backends b
  users_new : (w'.backends w.nextBackend).users = []
  willDie_new : (w'.backends w.nextBackend).willDie = true
  pong_new : (w'.backends w.nextBackend).pongReceived = -1
  waitingUsers : w'.waitingUsers = w.waitingUsers
  users : w'.users = w.users
  user : w'.user = w.user
  nextUser : w'.nextUser = w.nextUser
  log : Logs Effect.Plain w w'

theorem sendPing_of_ne {b c : BackendId} (hc : c ≠ b) (w : World) :
    (sendPing b w).backends c = w.backends c := by
  unfold sendPing
  split
  · have hsend : (send b .ping w).backends = w.backends :=
      (idle_send w b (m := .ping) trivial).quiet.backends
    simp [modBackend, Function.update_of_ne hc, hsend]
  · rfl

theorem joined_newBackend (w : World) : Joined w (handleNewClientConnection w) := by
  have hping := pinged_sendPing w.nextBackend (withBackend w)
  rw [handleNewClientConnection_eq]
  refine ⟨hping.cfg, hping.clients, hping.nextBackend, ?_, ?_, ?_, ?_, hping.waitingUsers,
    hping.users, hping.user, hping.nextUser, hping.log⟩
  · intro b hb
    simp only [modBackend, Function.update_of_ne hb]
    rw [sendPing_of_ne hb]
    simp [withBackend, Function.update_of_ne hb]
  · simp only [modBackend, Function.update_self]
    rw [hping.usersOf]
    simp [withBackend]
  · simp only [modBackend, Function.update_self]
    rw [hping.willDie]
    simp [withBackend]
  · simp [modBackend]

/-- How often a backend is put on the removal list: once if a PING is unanswered, once if it
has no users. -/
def expired (w : World) (b : BackendId) : List BackendId :=
  (if (w.backends b).pongReceived = 0 then [b] else []) ++
    (if (w.backends b).users = [] then [b] else [])

/-- The removal list of a sweep depends on the state at its start only. -/
theorem checkBackends_fst {bs : List BackendId} (hnodup : bs.Nodup) (w : World) :
    (checkBackends bs w).1 = bs.flatMap (expired w) := by
  induction bs generalizing w with
  | nil => rfl
  | cons b bs ih =>
    obtain ⟨hnot, hrest⟩ := List.nodup_cons.mp hnodup
    have hping : ∀ c ∈ bs, (if decide ((w.backends b).pongReceived = 0) then w
        else sendPing b w).backends c = w.backends c := by
      intro c hc
      have hne : c ≠ b := by
        rintro rfl
        exact hnot hc
      split
      · rfl
      · exact sendPing_of_ne hne w
    have husers : ((if decide ((w.backends b).pongReceived = 0) then w
        else sendPing b w).backends b).users = (w.backends b).users := by
      split
      · rfl
      · exact (pinged_sendPing b w).usersOf b
    simp only [checkBackends, List.flatMap_cons]
    rw [ih hrest, husers]
    congr 1
    · simp [expired]
    · apply List.flatMap_congr
      intro c hc
      unfold expired
      rw [hping c hc]

theorem mem_checkBackends_of_empty {bs : List BackendId} {b : BackendId} (hb : b ∈ bs)
    (hempty : (w.backends b).users = []) : b ∈ (checkBackends bs w).1 := by
  induction bs generalizing w with
  | nil => cases hb
  | cons c bs ih =>
    have hping :
        Pinged w (if decide ((w.backends c).pongReceived = 0) then w else sendPing c w) := by
      split
      · exact .refl w
      · exact pinged_sendPing c w
    simp only [checkBackends]
    generalize (if decide ((w.backends c).pongReceived = 0) then w else sendPing c w) = w₁ at hping
    have hempty₁ : (w₁.backends b).users = [] := by
      rw [hping.usersOf]
      exact hempty
    rcases List.mem_cons.mp hb with rfl | hb
    · simp [hempty₁]
    · exact List.mem_append_right _ (ih hb hempty₁)

/-- A finished backend is gone, and no new one has appeared. -/
theorem finished_clients (c : BackendId) (w : World) :
    (handleSessionFinished c w).clients.Sublist w.clients ∧
      c ∉ (handleSessionFinished c w).clients := by
  by_cases hc : c ∈ w.clients
  · obtain ⟨w₂, hflow, heq⟩ := flow_finish_users (X := fun _ => False) hc
    rw [heq]
    refine ⟨List.filter_sublist.trans hflow.clients, ?_⟩
    simp
  · unfold handleSessionFinished
    rw [if_pos hc]
    exact ⟨List.Sublist.refl _, hc⟩

theorem finishAll_clients (bs : List BackendId) (w : World) :
    (bs.foldl (fun w b => handleSessionFinished b w) w).clients.Sublist w.clients ∧
      ∀ b ∈ bs, b ∉ (bs.foldl (fun w b => handleSessionFinished b w) w).clients := by
  induction bs generalizing w with
  | nil => exact ⟨List.Sublist.refl _, by simp⟩
  | cons c bs ih =>
    obtain ⟨hsub, hnot⟩ := finished_clients c w
    obtain ⟨hsub', hnot'⟩ := ih (handleSessionFinished c w)
    refine ⟨hsub'.trans hsub, ?_⟩
    intro b hb
    rcases List.mem_cons.mp hb with rfl | hb
    · exact fun hmem => hnot (hsub'.subset hmem)
    · exact hnot' b hb

/-! ## Events -/

/-- The dispatch of a message other than a PONG. -/
theorem flow_handleMessage {b : BackendId} {m : FromBackend} (hm : m ≠ .pong) (w : World) :
    Flow X (noteData b w) (handleMessage b m w) := by
  cases m with
  | connected j _ => exact flow_connected j _
  | disconnected j error message => exact flow_disconnectedPayload j error message _
  | pong => exact absurd rfl hm
  | stats res id => exact flow_stats b res id _
  | other => exact .shrink (.of_quiet (fun _ h => h) (.refl _ _))

/-- The events that are a flow from their start. -/
def Event.flows : Event → Bool
  | .backendConnected | .received .. | .pingTimeout | .loginDelay => false
  | _ => true

theorem flow_run {e : Event} (he : e.flows = true) (hX : ∀ b, e = .backendLost b → X b)
    (w : World) : Flow X w (e.run w) := by
  cases e with
  | clock now => exact .shrink (.of_core rfl (.of_eq rfl))
  | backendLost b => exact flow_finished (hX b rfl) w
  | collect => exact flow_collect w
  | activity u =>
    simp only [Event.run]
    exact .shrink .modUser
  | backendConnected => cases he
  | received b m => cases he
  | pingTimeout => cases he
  | loginDelay => cases he
  | _ => exact flow_front (fun _ h => h.calm) (front_run rfl w)

/-- The configuration is the same throughout a run. -/
theorem run_cfg (e : Event) (w : World) : (e.run w).cfg = w.cfg := by
  by_cases he : e.flows = true
  · exact (flow_run (X := fun _ => True) he (fun _ _ => trivial) w).cfg
  · cases e with
    | backendConnected => exact (joined_newBackend w).cfg
    | received b m =>
      have hnote : (noteData b w).cfg = w.cfg := by
        obtain ⟨v, hv⟩ := noteData_eq b w
        rw [hv]
        rfl
      by_cases hm : m = .pong
      · subst hm
        have hdrain := (flow_connectWaitingUsers (X := fun _ => True) (startComponent
          (((noteData b w).emit (.pong b)).modBackend b fun c => { c with willDie := false }))).cfg
        have hstart := (flow_startComponent (X := fun _ => True)
          (((noteData b w).emit (.pong b)).modBackend b fun c => { c with willDie := false })).cfg
        simp only [Event.run, handleMessage, handlePongReceived]
        split
        · exact (hdrain.trans hstart).trans hnote
        · exact hnote
      · exact (flow_handleMessage (X := fun _ => True) hm w).cfg.trans hnote
    | pingTimeout =>
      have hmove := (flow_moveIdleUsers (X := fun _ => True) w).cfg
      have hcheck := (pinged_checkBackends (moveIdleUsers w).clients
        { moveIdleUsers w with startingBackend := false }).cfg
      have hfinish := (Flow.foldl (X := fun _ => True)
        (f := fun w b => handleSessionFinished b w) (fun w b => flow_finished trivial w)
        (checkBackends (moveIdleUsers w).clients
          { moveIdleUsers w with startingBackend := false }).1
        (checkBackends (moveIdleUsers w).clients
          { moveIdleUsers w with startingBackend := false }).2).cfg
      exact (hfinish.trans hcheck).trans hmove
    | loginDelay => exact (flow_connectWaitingUsers (X := fun _ => True) _).cfg
    | _ => exact absurd rfl he

end Flow

end Spectrum
