import Spectrum.Transport.Flow

/-!
# Behind the scenes

Assigning, releasing, disconnecting, moving or removing a user makes nobody ready or connected,
starts no connecting timer, announces neither a presence nor a status, and accepts no login.
`Mute z` states this for an operation that assigns at most the user `z`.
-/

namespace Spectrum

open World NetworkPluginServer

/-- The effects of an operation that assigns nobody but `z`. -/
def Effect.Spares (z : Option UserId) : Effect → Prop
  | .presenceChanged .. | .passwordValid .. | .send _ (.statusChanged ..) => False
  | .assign _ u _ _ => some u = z
  | _ => True

section Spares

variable {z : Option UserId} {e : Effect}

theorem Effect.Plain.spares (h : e.Plain) : e.Spares z := by
  cases e with
  | send b m => cases m <;> trivial
  | _ => trivial

theorem Effect.Spawns.spares (h : e.Spawns) : e.Spares z := by
  cases e <;> trivial

end Spares

/-- What only the user himself and the CONNECTED of his backend change. -/
def User.profile (x : User) : Jid × UserInfo × Bool × Bool :=
  (x.jid, x.info, x.connected, x.readyForConnect)

structure Mute (z : Option UserId) (w w' : World) : Prop where
  profile : ∀ v, (w'.user v).profile = (w.user v).profile
  timer : ∀ v, (w'.user v).reconnectTimer = true → (w.user v).reconnectTimer = true
  nextUser : w'.nextUser = w.nextUser
  log : Logs (Effect.Spares z) w w'

namespace Mute

variable {z : Option UserId} {w w₁ w' : World} {u : UserId}

theorem refl (w : World) : Mute z w w := ⟨fun _ => rfl, fun _ h => h, rfl, .of_eq rfl⟩

theorem trans (h : Mute z w w₁) (h' : Mute z w₁ w') : Mute z w w' where
  profile := fun v => (h'.profile v).trans (h.profile v)
  timer := fun v hv => h.timer v (h'.timer v hv)
  nextUser := h'.nextUser.trans h.nextUser
  log := h.log.trans h'.log

theorem jid (h : Mute z w w') (v : UserId) : (w'.user v).jid = (w.user v).jid :=
  congrArg (fun p => p.1) (h.profile v)

theorem info (h : Mute z w w') (v : UserId) : (w'.user v).info = (w.user v).info :=
  congrArg (fun p => p.2.1) (h.profile v)

theorem connected (h : Mute z w w') (v : UserId) :
    (w'.user v).connected = (w.user v).connected := congrArg (fun p => p.2.2.1) (h.profile v)

theorem ready (h : Mute z w w') (v : UserId) :
    (w'.user v).readyForConnect = (w.user v).readyForConnect :=
  congrArg (fun p => p.2.2.2) (h.profile v)

theorem of_user (huser : w'.user = w.user) (hnext : w'.nextUser = w.nextUser)
    (hlog : Logs (Effect.Spares z) w w') : Mute z w w' :=
  ⟨fun v => by rw [huser], fun v h => by rwa [huser] at h, hnext, hlog⟩

theorem of_idle (h : Idle w w') : Mute z w w' := by
  refine ⟨?_, h.timer, h.quiet.nextUser, h.log.mono fun _ he => he.spares⟩
  intro v
  have hjid : (w'.user v).jid = (w.user v).jid := h.quiet.jid v
  have hinfo : (w'.user v).info = (w.user v).info := (congrArg User.info (h.quiet.user v) :)
  have hconn : (w'.user v).connected = (w.user v).connected :=
    (congrArg User.connected (h.quiet.user v) :)
  unfold User.profile
  rw [hjid, hinfo, hconn, h.ready v]

theorem of_aside (h : Apart w w') : Mute z w w' :=
  of_user h.user h.quiet.nextUser (h.log.mono fun _ he => he.spares)

theorem of_searched (h : Searched w w') : Mute z w w' :=
  of_user h.user h.nextUser (h.log.mono fun _ he => he.spares)

theorem of_pinged (h : Pinged w w') : Mute z w w' :=
  of_user h.user h.nextUser (h.log.mono fun _ he => Effect.Plain.spares he)

theorem emit {e : Effect} (he : e.Spares z) : Mute z w (w.emit e) := of_user rfl rfl (.emit he)

theorem modUser {f : User → User} (hf : ∀ x, (f x).profile = x.profile ∧
    (f x).reconnectTimer = x.reconnectTimer) : Mute z w (w.modUser u f) := by
  refine ⟨?_, ?_, rfl, .of_eq rfl⟩
  · intro v
    by_cases hv : v = u
    · subst hv
      simpa [World.modUser] using (hf _).1
    · simp [World.modUser, Function.update_of_ne hv]
  · intro v
    by_cases hv : v = u
    · subst hv
      simp [World.modUser, (hf _).2]
    · simp [World.modUser, Function.update_of_ne hv]

theorem modBackend {b : BackendId} {f : Backend → Backend} : Mute z w (w.modBackend b f) :=
  of_user rfl rfl (.of_eq rfl)

theorem noteData (b : BackendId) : Mute z w (noteData b w) := by
  obtain ⟨v, hv⟩ := noteData_eq b w
  rw [hv]
  exact modBackend

theorem startComponent : Mute z w (startComponent w) := by
  refine of_user (startComponent_user w) (quiet_startComponent w).nextUser
    ((quiet_startComponent w).log.mono ?_)
  rintro _ rfl
  trivial

theorem attach (how : Assignment) (c : BackendId) : Mute (some u) w (attach how u c w) := by
  have hdata : Mute (some u) w (w.setData u (some c)) := Mute.modUser fun _ => ⟨rfl, rfl⟩
  have hemit : Mute (some u) (w.setData u (some c))
      ((w.setData u (some c)).emit (.assign how u c (w.backends c))) := .emit rfl
  exact (hdata.trans hemit).trans .modBackend

end Mute

/-! ## Operations on one user -/

section Mute

variable (u : UserId) (w : World)

theorem mute_created : Mute (some u) w (handleUserCreated u w) := by
  obtain ⟨w₁, hs, ⟨-, heq⟩ | ⟨c, -, -, heq⟩⟩ := handleUserCreated_cases u w
  · rw [heq]
    exact (Mute.of_searched hs).trans (.of_user rfl rfl (.of_eq rfl))
  · rw [heq]
    exact ((Mute.of_searched hs).trans (.attach .created c)).trans
      (Mute.modUser fun _ => ⟨rfl, rfl⟩)

theorem mute_destroyed : Mute (some u) w (handleUserDestroyed u w) := by
  have hd := handleUserDestroyed_spec u w
  have hslots : Mute (some u) w (w.modUser u fun x => { x with slots := 0 }) :=
    Mute.modUser fun _ => ⟨rfl, rfl⟩
  exact hslots.trans (.of_user hd.user hd.nextUser (hd.log.mono fun _ he => Effect.Plain.spares he))

theorem mute_reconnect : Mute (some u) w (User.reconnect u w) := by
  simp only [User.reconnect]
  have hcount : Mute (some u) w
      (w.modUser u fun x => { x with reconnectCounter := x.reconnectCounter + 1 }) :=
    Mute.modUser fun _ => ⟨rfl, rfl⟩
  exact ((hcount.trans (mute_destroyed u _)).trans (mute_created u _)).trans
    (.of_idle (idle_onReadyToConnect u _))

theorem mute_removeUser : Mute (some u) w (UserManager.removeUser u w) := by
  obtain ⟨w₁, hidle, hidle'⟩ := removeUser_steps w u
  have herase : Mute (some u) w
      { w with users := Function.update w.users (w.user u).jid.toBare none } :=
    .of_user rfl rfl (.of_eq rfl)
  exact ((herase.trans (.of_idle hidle)).trans (mute_destroyed u w₁)).trans (.of_idle hidle')

theorem mute_giveUp (error : String) : Mute (some u) w (User.giveUp u error w) := by
  have hreport : Mute (some u) w (User.reportError u error w) :=
    .of_idle (idle_reportError u error w)
  simp only [User.giveUp]
  split
  · exact hreport
  · exact hreport.trans (mute_removeUser u _)

theorem mute_disconnected (error : String) (e : ConnectionError) :
    Mute (some u) w (User.handleDisconnected u error e w) := by
  have hemit : Mute (some u) w (w.emit (.disconnected u)) := .emit trivial
  rcases handleDisconnected_cases u error e w with ⟨-, heq⟩ | ⟨-, -, heq⟩ | ⟨-, -, heq⟩
  · rw [heq]
    exact hemit
  · rw [heq]
    exact hemit.trans (mute_reconnect u _)
  · rw [heq]
    exact hemit.trans (mute_giveUp u _ error)

theorem mute_dropUser : Mute (some u) w (dropUser w u) := by
  have hdata : Mute (some u) w (w.setData u none) := Mute.modUser fun _ => ⟨rfl, rfl⟩
  exact hdata.trans (mute_disconnected u _ _ _)

theorem mute_serve (rest : List UserId) : Mute (some u) w (serve u rest w) := by
  have hqueue : Mute (some u) w { w with waitingUsers := rest } := .of_user rfl rfl (.of_eq rfl)
  exact (hqueue.trans (mute_created u _)).trans (.of_idle (idle_serveLogin u _))

theorem mute_move : Mute (some u) w (moveToLongRunBackend u w).2 := by
  rcases moveToLongRunBackend_cases u w with heq | ⟨w₁, hs, heq⟩ | heq |
    ⟨w₁, old, c, hs, -, -, -, -, -, heq⟩
  · rw [heq]
    exact .refl w
  · rw [heq]
    exact .of_searched hs
  · rw [heq]
    exact .of_user rfl rfl (.of_eq rfl)
  · rw [heq]
    have hflag : Mute (some u) w₁ (w₁.modUser u fun x => { x with ignoreDisconnect := true }) :=
      Mute.modUser fun _ => ⟨rfl, rfl⟩
    have hremove : Mute (some u) w (removeFrom u old
        (w₁.modUser u fun x => { x with ignoreDisconnect := true })) :=
      ((Mute.of_searched hs).trans hflag).trans .modBackend
    exact (hremove.trans (.attach .moved c)).trans (.of_idle (idle_handleUserReadyToConnect u _))

end Mute

/-! ## The map of users -/

section Users

variable (u : UserId) (w : World)

theorem created_users : (handleUserCreated u w).users = w.users := by
  obtain ⟨w₁, hs, ⟨-, heq⟩ | ⟨c, -, -, heq⟩⟩ := handleUserCreated_cases u w
  · rw [heq]
    exact hs.users
  · rw [heq]
    exact hs.users

theorem reconnect_users : (User.reconnect u w).users = w.users := by
  simp only [User.reconnect]
  rw [(idle_onReadyToConnect u _).quiet.users, created_users, (handleUserDestroyed_spec u _).users]
  rfl

theorem removeUser_users : (UserManager.removeUser u w).users =
    Function.update w.users (w.user u).jid.toBare none := by
  obtain ⟨w₁, hidle, hidle'⟩ := removeUser_steps w u
  rw [hidle'.quiet.users, (handleUserDestroyed_spec u w₁).users, hidle.quiet.users]

theorem serve_users (rest : List UserId) : (serve u rest w).users = w.users :=
  (idle_serveLogin u _).quiet.users.trans (created_users u { w with waitingUsers := rest })

theorem move_users : (moveToLongRunBackend u w).2.users = w.users := by
  rcases moveToLongRunBackend_cases u w with heq | ⟨w₁, hs, heq⟩ | heq |
    ⟨w₁, old, c, hs, -, -, -, -, -, heq⟩
  · rw [heq]
  · rw [heq]
    exact hs.users
  · rw [heq]
  · rw [heq]
    exact (idle_handleUserReadyToConnect u _).quiet.users.trans hs.users

end Users

/-! ## Events of the backends -/

/-- The effects of everything that happens behind the scenes. -/
def Effect.Covert : Effect → Prop
  | .presenceChanged .. | .passwordValid .. | .send _ (.statusChanged ..) => False
  | _ => True

theorem Effect.Spares.covert {z : Option UserId} {e : Effect} (h : e.Spares z) : e.Covert := by
  cases e with
  | send b m => cases m <;> trivial
  | _ => trivial

section Covert

variable {w : World}

theorem Mute.covert {z : Option UserId} {w' : World} (h : Mute z w w') : Logs Effect.Covert w w' :=
  h.log.mono fun _ he => he.covert

theorem covert_foldl {α : Type} {f : World → α → World}
    (hf : ∀ w a, Logs Effect.Covert w (f w a)) (l : List α) (w : World) :
    Logs Effect.Covert w (l.foldl f w) := by
  induction l generalizing w with
  | nil => exact .of_eq rfl
  | cons a l ih => exact (hf w a).trans (ih (f w a))

theorem covert_finished (c : BackendId) (w : World) :
    Logs Effect.Covert w (handleSessionFinished c w) := by
  by_cases hc : c ∈ w.clients
  · obtain ⟨w₁, w₂, hidle₁, hidle₂, heq⟩ := handleSessionFinished_steps hc
    have hmark : Logs Effect.Covert w (markDying c w) := .emit trivial
    have hloop := covert_foldl (fun w u => (mute_dropUser u w).covert) (w.backends c).users w₁
    have hrest := (hmark.trans (Mute.of_idle (z := none) hidle₁).covert).trans
      (hloop.trans (Mute.of_idle (z := none) hidle₂).covert)
    rw [heq]
    exact hrest.trans (.of_eq rfl)
  · unfold handleSessionFinished
    rw [if_pos hc]
    exact .of_eq rfl

theorem covert_moveUsers (us : List UserId) (w : World) :
    Logs Effect.Covert w (moveUsers us w) := by
  induction us generalizing w with
  | nil => exact .of_eq rfl
  | cons u us ih =>
    have hmove := (mute_move u w).covert
    unfold moveUsers
    generalize moveToLongRunBackend u w = r at hmove
    obtain ⟨ok, w₁⟩ := r
    cases ok with
    | false => exact hmove
    | true => exact hmove.trans (ih w₁)

theorem covert_pingTimeout (w : World) : Logs Effect.Covert w (pingTimeout w) := by
  have hmove : Logs Effect.Covert w (moveIdleUsers w) := by
    unfold moveIdleUsers
    split
    · exact .of_eq rfl
    · exact covert_moveUsers _ w
  have hflag : Logs Effect.Covert (moveIdleUsers w)
      { moveIdleUsers w with startingBackend := false } := .of_eq rfl
  have hping := (Mute.of_pinged (z := none) (pinged_checkBackends (moveIdleUsers w).clients
    { moveIdleUsers w with startingBackend := false })).covert
  exact (hmove.trans (hflag.trans hping)).trans (covert_foldl (fun w c => covert_finished c w) _ _)

theorem covert_connectWaitingUsers (w : World) :
    Logs Effect.Covert w (connectWaitingUsers w) := by
  refine drain_induction (I := Logs Effect.Covert w) ?_ ?_ _ _ (.emit trivial)
  · intro w₁ w₂ hs h
    exact h.trans (Mute.of_searched (z := none) hs).covert
  · intro w₁ u rest c _ _ _ h
    exact h.trans (mute_serve u w₁ rest).covert

theorem covert_pong (b : BackendId) (w : World) :
    Logs Effect.Covert w (handlePongReceived b w) := by
  have hemit : Logs Effect.Covert w (w.emit (.pong b)) := .emit trivial
  have hready : Logs Effect.Covert w
      ((w.emit (.pong b)).modBackend b fun c => { c with willDie := false }) := .emit trivial
  have hstart : ∀ w₁ : World, Logs Effect.Covert w₁ (startComponent w₁) :=
    fun w₁ => (Mute.startComponent (z := none)).covert
  simp only [handlePongReceived]
  split
  · exact ((hready.trans (hstart _)).trans (covert_connectWaitingUsers _)).trans (.of_eq rfl)
  · exact hemit.trans (.of_eq rfl)

/-- The events of the backends log only covert effects, except for a CONNECTED. -/
theorem covert_run {e : Event} (hfront : e.isFront = false)
    (hconn : ∀ b j pw, e ≠ .received b (.connected j pw)) (w : World) :
    Logs Effect.Covert w (e.run w) := by
  cases e with
  | clock now => exact .of_eq rfl
  | backendConnected =>
    exact (joined_newBackend w).log.mono fun _ he => (he.spares (z := none)).covert
  | backendLost b => exact covert_finished b w
  | received b m =>
    have hnote : Logs Effect.Covert w (noteData b w) := (Mute.noteData (z := none) b).covert
    cases m with
    | connected j pw => exact absurd rfl (hconn b j pw)
    | disconnected j error message =>
      have hinvalid : Mute none (noteData b w) _ :=
        .of_aside (aside_onPasswordInvalid (noteData b w) j message).toApart
      simp only [Event.run, handleMessage, handleDisconnectedPayload]
      split
      · exact hnote.trans hinvalid.covert
      · exact (hnote.trans hinvalid.covert).trans (mute_disconnected _ _ message error).covert
    | pong => exact hnote.trans (covert_pong b _)
    | stats res id => exact hnote.trans (.of_eq rfl)
    | other => exact hnote
  | pingTimeout => exact covert_pingTimeout w
  | loginDelay =>
    exact (Logs.of_eq rfl).trans (covert_connectWaitingUsers { w with loginTimer := false })
  | collect =>
    simp only [Event.run, collectBackend]
    split
    · exact .of_eq rfl
    · exact .of_eq rfl
  | activity u => exact .of_eq rfl
  | _ => cases hfront

end Covert

end Spectrum
