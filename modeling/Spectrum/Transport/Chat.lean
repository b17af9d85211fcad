import Spectrum.Transport.Frame

/-!
# What users do on their own

A presence, a timeout or a service discovery answer reaches one user object. What it can do
there is a sequence of four kinds of operations (`Chat`): an idle one, which changes nothing
that decides about logins and logs only plain effects; the start of the connecting timer;
the first `onReadyToConnect`; and `onPresenceChanged` of a user that is ready. None of them
touches the core of the state or the registry.
-/

namespace Spectrum

open World NetworkPluginServer

/-- The effects that announce neither a presence nor a status and accept no login. -/
def Effect.Plain : Effect → Prop
  | .send _ (.statusChanged ..) => False
  | .send .. | .message .. | .adminPassword .. | .session .. => True
  | _ => False

theorem Effect.Plain.tame {e : Effect} (h : e.Plain) : e.Tame := by
  cases e <;> trivial

/-! ## Idle operations -/

/-- The operation changed neither the core nor the readiness of a user nor the registry, and
started no timer. -/
structure Idle (w w' : World) : Prop where
  core : w'.core = w.core
  ready : ∀ v, (w'.user v).readyForConnect = (w.user v).readyForConnect
  timer : ∀ v, (w'.user v).reconnectTimer = true → (w.user v).reconnectTimer = true
  registry : w'.registry = w.registry
  log : Logs Effect.Plain w w'

namespace Idle

variable {w w₁ w₂ : World}

theorem refl (w : World) : Idle w w := ⟨rfl, fun _ => rfl, fun _ h => h, rfl, .of_eq rfl⟩

theorem trans (h : Idle w w₁) (h' : Idle w₁ w₂) : Idle w w₂ where
  core := h'.core.trans h.core
  ready := fun v => (h'.ready v).trans (h.ready v)
  timer := fun v hv => h.timer v (h'.timer v hv)
  registry := h'.registry.trans h.registry
  log := h.log.trans h'.log

theorem quiet (h : Idle w w₁) : Quiet Effect.Tame w w₁ :=
  ⟨h.core, h.log.mono fun _ he => he.tame⟩

theorem emit {e : Effect} (he : e.Plain) : Idle w (w.emit e) :=
  ⟨rfl, fun _ => rfl, fun _ h => h, rfl, .emit he⟩

theorem modUser (u : UserId) {f : User → User} (hf : ∀ x, (f x).core = x.core ∧
      (f x).readyForConnect = x.readyForConnect ∧
      ((f x).reconnectTimer = true → x.reconnectTimer = true)) : Idle w (w.modUser u f) := by
  refine ⟨core_modUser u (fun x => (hf x).1) w, ?_, ?_, rfl, .of_eq rfl⟩
  · intro v
    by_cases hv : v = u
    · subst hv
      simpa [World.modUser] using (hf _).2.1
    · simp [World.modUser, Function.update_of_ne hv]
  · intro v
    by_cases hv : v = u
    · subst hv
      simpa [World.modUser] using (hf _).2.2
    · simp [World.modUser, Function.update_of_ne hv]

theorem iterate {f : World → World} (hf : ∀ w, Idle w (f w)) (n : Nat) (w : World) :
    Idle w (f^[n] w) := by
  induction n generalizing w with
  | zero => exact .refl w
  | succ n ih => exact (hf w).trans (ih (f w))

theorem foldl {α : Type} {f : World → α → World} (hf : ∀ w a, Idle w (f w a)) (l : List α)
    (w : World) : Idle w (l.foldl f w) := by
  induction l generalizing w with
  | nil => exact .refl w
  | cons a l ih => exact (hf w a).trans (ih (f w a))

end Idle

section Idle

variable (u : UserId) (w : World)

theorem send_rest (b : BackendId) (m : ToBackend) :
    { send b m w with log := w.log, fault := w.fault } = w := by
  unfold send
  split <;> rfl

theorem idle_send (b : BackendId) {m : ToBackend} (hm : (Effect.send b m).Plain) :
    Idle w (send b m w) := by
  unfold send
  split
  · exact .emit hm
  · exact ⟨rfl, fun _ => rfl, fun _ h => h, rfl, .of_eq rfl⟩

theorem idle_sendToBackendOf {m : ToBackend} (hm : ∀ b, (Effect.send b m).Plain) :
    Idle w (sendToBackendOf u m w) := by
  unfold sendToBackendOf
  split
  · exact .refl w
  · exact idle_send w _ (hm _)

theorem idle_handleUserReadyToConnect : Idle w (handleUserReadyToConnect u w) := by
  have hlogin := idle_sendToBackendOf u w (m := .login (w.user u).jid.toBare
    (w.user u).info.uin (w.user u).info.password) fun _ => trivial
  simp only [handleUserReadyToConnect]
  split
  · exact hlogin.trans (idle_sendToBackendOf u _ fun _ => trivial)
  · exact hlogin

theorem idle_onReadyToConnect : Idle w (User.onReadyToConnect u w) :=
  Idle.iterate (idle_handleUserReadyToConnect u) _ w

theorem idle_onRoomJoined (room nickname password : String) :
    Idle w (User.onRoomJoined u room nickname password w) := by
  refine Idle.iterate (fun w => ?_) _ w
  unfold handleRoomJoined
  exact idle_sendToBackendOf u w fun _ => trivial

theorem idle_onRoomLeft (room : String) : Idle w (User.onRoomLeft u room w) := by
  refine Idle.iterate (fun w => ?_) _ w
  unfold handleRoomLeft
  exact idle_sendToBackendOf u w fun _ => trivial

theorem idle_modConvs (f : Conversations → Conversations) : Idle w (User.modConvs u f w) :=
  Idle.modUser u fun _ => ⟨rfl, rfl, fun h => h⟩

theorem idle_leaveRoom (room : String) : Idle w (User.leaveRoom u room w) := by
  simp only [User.leaveRoom]
  apply (idle_onRoomLeft u w room).trans
  generalize User.onRoomLeft u room w = w₁
  have hrooms : Idle w₁ (w₁.modUser u fun x =>
      { x with joinedRooms := x.joinedRooms.eraseP fun p => legacyName w₁.cfg p.toJid = room }) :=
    Idle.modUser u fun _ => ⟨rfl, rfl, fun h => h⟩
  split
  · exact hrooms
  · exact hrooms.trans (idle_modConvs u _ _)

theorem idle_leaveContact (p : Presence) : Idle w (User.leaveContact p u w) := by
  simp only [User.leaveContact]
  split
  · exact .refl w
  · split
    · exact idle_modConvs u w _
    · split
      · exact idle_modConvs u w _
      · exact (idle_modConvs u w _).trans (idle_leaveRoom u _ _)

theorem idle_removeJid (j : Jid) : Idle w (User.removeJid j u w) := by
  simp only [User.removeJid]
  split
  · exact idle_modConvs u w _
  · exact (idle_modConvs u w _).trans (Idle.foldl (fun w room => idle_leaveRoom u w room) _ _)

theorem idle_goOffline : Idle w (User.goOffline u w) :=
  Idle.modUser u fun _ => ⟨rfl, rfl, fun h => h⟩

end Idle

/-! ## Readiness and presences -/

/-- What a callback does to the users `S` on its way through `User`. -/
inductive Chat (S : UserId → Prop) : World → World → Prop
  | idle {w w' : World} (h : Idle w w') : Chat S w w'
  | timer {w : World} {u : UserId} (hu : S u) : Chat S w (User.startTimer u w)
  | ready {w : World} {u : UserId} (hu : S u) (hready : (w.user u).readyForConnect = false) :
      Chat S w (User.setReady u w)
  | presence {w : World} {u : UserId} (hu : S u) (hready : (w.user u).readyForConnect = true)
      (p : Presence) : Chat S w (User.onPresenceChanged u p w)
  | trans {w w₁ w₂ : World} (h : Chat S w w₁) (h' : Chat S w₁ w₂) : Chat S w w₂

theorem quiet_setReady (u : UserId) (w : World) : Quiet Effect.Tame w (User.setReady u w) := by
  have hmark : Quiet Effect.Tame w (w.modUser u fun x => { x with readyForConnect := true }) :=
    Quiet.modUser u fun _ => rfl
  exact hmark.trans (idle_onReadyToConnect u _).quiet

theorem handleUserPresenceChanged_rest (u : UserId) (p : Presence) (w : World) :
    { handleUserPresenceChanged u p w with log := w.log, fault := w.fault } = w := by
  unfold handleUserPresenceChanged sendToBackendOf
  split
  · rfl
  · split
    · rfl
    · exact send_rest w _ _

/-- A change of presence touches the log only, and an access to a freed backend. -/
theorem onPresenceChanged_rest (u : UserId) (p : Presence) (w : World) :
    { User.onPresenceChanged u p w with log := w.log, fault := w.fault } = w := by
  have hloop : ∀ n (w₁ : World), { (handleUserPresenceChanged u p)^[n] w₁ with
      log := w₁.log, fault := w₁.fault } = w₁ := by
    intro n
    induction n with
    | zero => exact fun _ => rfl
    | succ n ih =>
      intro w₁
      have hrest := congrArg (fun w₂ : World => { w₂ with log := w₁.log, fault := w₁.fault })
        (ih (handleUserPresenceChanged u p w₁))
      exact hrest.trans (handleUserPresenceChanged_rest u p w₁)
  exact congrArg (fun w₂ : World => { w₂ with log := w.log })
    (hloop (w.user u).slots (w.emit (.presenceChanged u p)))

/-- A change of presence is announced, and the backend of the user gets his status. -/
theorem onPresenceChanged_logs (u : UserId) (p : Presence) (w : World) :
    Logs (fun e => e = .presenceChanged u p ∨ ∃ b, e = .send b
      (.statusChanged (w.user u).jid.toBare (statusOf p) p.status)) w
      (User.onPresenceChanged u p w) := by
  generalize hP : (fun e => e = Effect.presenceChanged u p ∨ ∃ b, e = Effect.send b
    (.statusChanged (w.user u).jid.toBare (statusOf p) p.status)) = P
  have hone : ∀ w₁ : World, w₁.user = w.user → Logs P w₁ (handleUserPresenceChanged u p w₁) := by
    intro w₁ huser
    subst hP
    unfold handleUserPresenceChanged sendToBackendOf send
    rw [huser]
    split
    · exact .of_eq rfl
    · split
      · exact .of_eq rfl
      · split
        · exact .emit (.inr ⟨_, rfl⟩)
        · exact .of_eq rfl
  have hloop : ∀ n (w₁ : World), w₁.user = w.user →
      Logs P w₁ ((handleUserPresenceChanged u p)^[n] w₁) := by
    intro n
    induction n with
    | zero => exact fun _ _ => .of_eq rfl
    | succ n ih =>
      intro w₁ huser
      have huser' : (handleUserPresenceChanged u p w₁).user = w.user :=
        (congrArg World.user (handleUserPresenceChanged_rest u p w₁) :).trans huser
      exact (hone w₁ huser).trans (ih _ huser')
  have hemit : Logs P w (w.emit (.presenceChanged u p)) := by
    subst hP
    exact .emit (.inl rfl)
  exact hemit.trans (hloop _ _ rfl)

theorem quiet_onPresenceChanged (u : UserId) (p : Presence) (w : World) :
    Quiet Effect.Tame w (User.onPresenceChanged u p w) := by
  have hcore : (User.onPresenceChanged u p w).core = w.core :=
    (congrArg World.core (onPresenceChanged_rest u p w) :)
  refine ⟨hcore, (onPresenceChanged_logs u p w).mono ?_⟩
  rintro e (rfl | ⟨b, rfl⟩)
  · trivial
  · trivial

theorem Chat.quiet {S : UserId → Prop} {w w' : World} (h : Chat S w w') :
    Quiet Effect.Tame w w' := by
  induction h with
  | idle h => exact h.quiet
  | timer _ => exact Quiet.modUser _ fun _ => rfl
  | ready _ _ => exact quiet_setReady _ _
  | presence _ _ p => exact quiet_onPresenceChanged _ p _
  | trans _ _ ih ih' => exact ih.trans ih'

section Chat

variable {S : UserId → Prop} {u : UserId} {w : World}

theorem setReady_ready (u : UserId) (w : World) :
    ((User.setReady u w).user u).readyForConnect = true := by
  have hidle := idle_onReadyToConnect u (w.modUser u fun x => { x with readyForConnect := true })
  rw [User.setReady, hidle.ready u]
  simp [modUser]

/-- A second `onReadyToConnect` is idle. -/
theorem chat_setReady (hu : S u) : Chat S w (User.setReady u w) := by
  by_cases hready : (w.user u).readyForConnect = true
  · have hmark : w.modUser u (fun x => { x with readyForConnect := true }) = w := by
      have hsame : { w.user u with readyForConnect := true } = w.user u := by rw [← hready]
      simp only [modUser, hsame, Function.update_eq_self]
    rw [User.setReady, hmark]
    exact .idle (idle_onReadyToConnect u w)
  · exact .ready hu (by simpa using hready)

theorem chat_onConnectingTimeout (hu : S u) : Chat S w (User.onConnectingTimeout u w) := by
  unfold User.onConnectingTimeout
  split
  · exact .idle (.refl w)
  · have hstop : Idle w (w.modUser u fun x => { x with reconnectTimer := false }) :=
      Idle.modUser u fun _ => ⟨rfl, rfl, fun h => nomatch h⟩
    have hready := Chat.trans (.idle hstop) (chat_setReady (S := S) hu)
    dsimp only
    split
    · exact hready
    · exact .trans hready (.presence hu (setReady_ready u _) _)

theorem chat_handleDiscoInfo (hmap : ∀ j v, w.users j = some v → S v) (j : Jid) :
    Chat S w (UserManager.handleDiscoInfo j w) := by
  unfold UserManager.handleDiscoInfo
  split
  · exact .idle (.refl w)
  · rename_i v hv
    exact chat_onConnectingTimeout (hmap _ v hv)

theorem chat_sendCapabilitiesRequest (hmap : ∀ j v, w.users j = some v → S v) (j : Jid) :
    Chat S w (sendCapabilitiesRequest j w).2 := by
  unfold sendCapabilitiesRequest
  split
  · exact chat_handleDiscoInfo hmap j
  · exact .idle (.refl w)

theorem chat_checkReady (hu : S u) (hmap : ∀ j v, w.users j = some v → S v) (p : Presence) :
    Chat S w (User.checkReady p u w) := by
  unfold User.checkReady
  have hcaps := chat_sendCapabilitiesRequest hmap p.fromJid
  split
  · exact .idle (.refl w)
  · split
    · generalize sendCapabilitiesRequest p.fromJid w = r at hcaps
      obtain ⟨known, w₁⟩ := r
      cases known
      · exact .trans hcaps (.timer hu)
      · exact .trans hcaps (chat_setReady hu)
    · split
      · exact chat_setReady hu
      · exact .timer hu

theorem chat_joinRoom (hu : S u) (p : Presence) (forceJoin : Bool) :
    Chat S w (User.joinRoom p forceJoin u w) := by
  simp only [User.joinRoom]
  generalize hw₁ : (if (w.user u).readyForConnect = true then w else User.setReady u w) = w₁
  have h₁ : Chat S w w₁ := by
    subst hw₁
    split
    · exact .idle (.refl w)
    · exact chat_setReady hu
  refine .trans h₁ (.idle ?_)
  split
  · rename_i key conv _
    generalize hw₂ : (if p.fromJid ∈ conv.jids then w₁
      else User.modConvs u (Conversations.update key (Conversation.addJid p.fromJid)) w₁) = w₂
    have h₂ : Idle w₁ w₂ := by
      subst hw₂
      split
      · exact .refl w₁
      · exact idle_modConvs u w₁ _
    split
    · exact h₂.trans (idle_onRoomJoined u _ _ _ _)
    · exact h₂
  · generalize hw₂ : (if (w₁.user u).joinedRooms.any (fun q => decide (q.toJid = p.toJid)) = true
      then w₁
      else w₁.modUser u fun x => { x with joinedRooms := x.joinedRooms ++ [p] }) = w₂
    have h₂ : Idle w₁ w₂ := by
      subst hw₂
      split
      · exact .refl w₁
      · exact Idle.modUser u fun _ => ⟨rfl, rfl, fun h => h⟩
    split
    · exact h₂
    · exact h₂.trans ((idle_modConvs u _ _).trans (idle_onRoomJoined u _ _ _ _))

theorem chat_changeLegacyPresence (hu : S u) : Chat S w (User.changeLegacyPresence u w) := by
  unfold User.changeLegacyPresence
  split
  · exact .idle (.refl w)
  · rename_i hnot
    have hready : (w.user u).readyForConnect = true := by simpa using hnot
    split
    · split
      · exact .idle (idle_goOffline u w)
      · exact .trans (.presence hu hready _)
          (.idle (Idle.modUser u fun _ => ⟨rfl, rfl, fun h => h⟩))
    · split
      · exact .idle (idle_goOffline u w)
      · exact .presence hu hready _

theorem chat_handleTransportPresence (hu : S u) (p : Presence) :
    Chat S w (User.handleTransportPresence p u w) := by
  simp only [User.handleTransportPresence]
  generalize hw₁ : (if p.type = .unavailable then User.removeJid p.fromJid u w else w) = w₁
  have h₁ : Idle w w₁ := by
    subst hw₁
    split
    · exact idle_removeJid u w _
    · exact .refl w
  have hcount : Idle w₁ (w₁.modUser u fun x =>
      { x with resources := (w.oracle.getAllPresence (w.user u).jid).length }) :=
    Idle.modUser u fun _ => ⟨rfl, rfl, fun h => h⟩
  exact .trans (.idle (h₁.trans hcount)) (chat_changeLegacyPresence hu)

theorem chat_handlePresence (hu : S u) (hmap : ∀ j v, w.users j = some v → S v) (p : Presence)
    (forceJoin : Bool) : Chat S w (User.handlePresence p forceJoin u w) := by
  simp only [User.handlePresence]
  apply Chat.trans (chat_checkReady hu hmap p)
  split
  · exact .idle (idle_leaveContact u _ p)
  · split
    · exact chat_joinRoom hu p forceJoin
    · exact chat_handleTransportPresence hu p

end Chat

end Spectrum
