import Spectrum.Transport.Mute
import Spectrum.Transport.UserFrame

/-!
# Users that can still be heard

A user object that was deleted is silent: its connecting timer is stopped, so no callback
reaches it any more. Hence every user that becomes ready or changes his presence is in the
map, and presences are only announced for users that have been created.
-/

namespace Spectrum

open World NetworkPluginServer

structure Aware (w : World) : Prop where
  timed : ∀ v, (w.user v).reconnectTimer = true → w.Managed v
  known : ∀ v p, .presenceChanged v p ∈ w.log → v < w.nextUser

section Aware

variable {z : Option UserId} {x : Option BackendId} {w w' : World} {u : UserId}

theorem Logs.presence_iff (h : Logs Effect.Covert w w') (v : UserId) (p : Presence) :
    .presenceChanged v p ∈ w'.log ↔ .presenceChanged v p ∈ w.log := by
  obtain ⟨l, hl, hcovert⟩ := h
  rw [hl, List.mem_append]
  constructor
  · rintro (hmem | hmem)
    · exact (hcovert _ hmem).elim
    · exact hmem
  · exact .inr

theorem aware_start (cfg : Config) (now : Int) (storage : Option (Jid → Option UserInfo)) :
    Aware (World.start cfg now storage) := by
  refine ⟨fun v hv => ?_, fun v p hp => ?_⟩
  · cases hv
  · cases hp

theorem Aware.mute (h : Aware w) (hm : Mute z w w')
    (hstay : ∀ v, (w'.user v).reconnectTimer = true → w.Managed v → w'.Managed v) : Aware w' := by
  refine ⟨?_, ?_⟩
  · intro v hv
    exact hstay v hv (h.timed v (hm.timer v hv))
  · intro v p hp
    rw [hm.covert.presence_iff] at hp
    rw [hm.nextUser]
    exact h.known v p hp

theorem Mute.managed (hm : Mute z w w') (husers : w'.users = w.users) (v : UserId) :
    w'.Managed v ↔ w.Managed v := by
  unfold Managed
  rw [husers, hm.jid]

/-- An operation behind the scenes that leaves the map alone. -/
theorem Aware.keep (h : Aware w) (hm : Mute z w w') (husers : w'.users = w.users) : Aware w' :=
  h.mute hm fun v _ hv => (hm.managed husers v).mpr hv

theorem Aware.same (h : Aware w) (huser : w'.user = w.user) (husers : w'.users = w.users)
    (hnext : w'.nextUser = w.nextUser) (hlog : w'.log = w.log) : Aware w' :=
  h.keep (z := none) (.of_user huser hnext (.of_eq hlog)) husers

/-! ## Callbacks of the frontend -/

theorem Aware.quiet {P : Effect → Prop} (h : Aware w) (hq : Quiet P w w')
    (htimer : ∀ v, (w'.user v).reconnectTimer = true →
      (w.user v).reconnectTimer = true ∨ w.Managed v)
    (hlog : ∀ v p, .presenceChanged v p ∈ w'.log →
      .presenceChanged v p ∈ w.log ∨ v < w.nextUser) : Aware w' := by
  refine ⟨?_, ?_⟩
  · intro v hv
    rw [hq.sameLinks.managed]
    rcases htimer v hv with hold | hm
    · exact h.timed v hold
    · exact hm
  · intro v p hp
    rw [hq.nextUser]
    rcases hlog v p hp with hold | hlt
    · exact h.known v p hold
    · exact hlt

theorem Aware.idle (h : Aware w) (hi : Idle w w') : Aware w' :=
  h.keep (z := none) (.of_idle hi) hi.quiet.users

theorem Aware.aside (h : Aware w) (ha : Apart w w') : Aware w' :=
  h.keep (z := none) (.of_aside ha) ha.quiet.users

theorem Aware.chat {S : UserId → Prop} (hlink : Link x none w) (hS : ∀ v, S v → w.Managed v)
    (h : Aware w) (hc : Chat S w w') : Aware w' := by
  induction hc with
  | idle hi => exact h.idle hi
  | @timer w u hu =>
    have hq : Quiet Effect.Tame w (User.startTimer u w) := Quiet.modUser u fun _ => rfl
    refine h.quiet hq ?_ fun v p hp => .inl hp
    intro v hv
    by_cases hvu : v = u
    · subst hvu
      exact .inr (hS v hu)
    · left
      simpa [User.startTimer, modUser, Function.update_of_ne hvu] using hv
  | @ready w u hu _ =>
    have hmark : Quiet Effect.Tame w (w.modUser u fun y => { y with readyForConnect := true }) :=
      Quiet.modUser u fun _ => rfl
    have hawake : Aware (w.modUser u fun y => { y with readyForConnect := true }) := by
      refine h.quiet hmark ?_ fun v p hp => .inl hp
      intro v hv
      left
      by_cases hvu : v = u
      · subst hvu
        simpa [modUser] using hv
      · simpa [modUser, Function.update_of_ne hvu] using hv
    exact hawake.idle (idle_onReadyToConnect u _)
  | @presence w u hu _ p =>
    have huser : (User.onPresenceChanged u p w).user = w.user :=
      (congrArg World.user (onPresenceChanged_rest u p w) :)
    refine h.quiet (quiet_onPresenceChanged u p w) ?_ ?_
    · intro v hv
      rw [huser] at hv
      exact .inl hv
    · intro v q hq
      obtain ⟨l, hl, hP⟩ := onPresenceChanged_logs u p w
      rw [hl] at hq
      rcases List.mem_append.mp hq with hmem | hmem
      · rcases hP _ hmem with heq | ⟨b, heq⟩
        · cases heq
          exact .inr (hlink.lt_nextUser (hS _ hu))
        · cases heq
      · exact .inl hmem
  | trans hc _ ih ih' =>
    have hs := hc.quiet.sameLinks
    exact ih' (hlink.of_same hs) (fun v hv => hs.managed.mpr (hS v hv)) (ih hlink hS h)

theorem Aware.reached (h : Aware w) (hlink : Link x none w) {v : UserId} (hv : w.Reached v) :
    w.Managed v := by
  rcases hv with ⟨j, hj⟩ | hv
  · exact hlink.managed_of_users hj
  · exact h.timed v hv

theorem Aware.addUser (hlink : Link none none w) (h : Aware w) {j : Jid} (info : UserInfo)
    (hnone : w.users j.toBare = none) : Aware (UserManager.addUser j info w) := by
  have hnew : Aware (withUser j info w) := by
    refine ⟨?_, fun v p hp => Nat.lt_succ_of_lt (h.known v p hp)⟩
    intro v hv
    by_cases hvu : v = w.nextUser
    · subst hvu
      simp [withUser] at hv
    · have hold : (w.user v).reconnectTimer = true := by
        simpa [withUser, Function.update_of_ne hvu] using hv
      exact withUser_managed hlink hnone (h.timed v hold)
  rw [addUser_eq]
  exact hnew.keep (mute_created _ _) (created_users _ _)

theorem removeUser_timer (u : UserId) (w : World) :
    ((UserManager.removeUser u w).user u).reconnectTimer = false := by
  simp only [UserManager.removeUser, UserManager.deleteUser]
  simp [modUser]

theorem Aware.removeUser (hlink : Link x none w) (h : Aware w) (hm : w.Managed u) :
    Aware (UserManager.removeUser u w) := by
  refine h.mute (mute_removeUser u w) ?_
  intro v hv hmv
  have hne : v ≠ u := by
    rintro rfl
    rw [removeUser_timer] at hv
    cases hv
  exact ((others_removeUser hlink hm).managed v (by simpa using hne)).mpr hmv

theorem Aware.passwordValid (h : Aware w) (j : Jid) : Aware (UserRegistry.onPasswordValid j w) := by
  refine h.quiet (quiet_onPasswordValid w j) ?_ ?_
  · intro v hv
    rw [onPasswordValid_user] at hv
    exact .inl hv
  · intro v p hp
    obtain ⟨l, hl, hP⟩ := onPasswordValid_logs w j
    rw [hl] at hp
    rcases List.mem_append.mp hp with hmem | hmem
    · rcases hP _ hmem with hplain | ⟨entry, -, heq⟩
      · exact hplain.elim
      · cases heq
    · exact .inl hmem

theorem Aware.talk {enters : Prop} (hlink : Link none none w) (h : Aware w)
    (ht : Talk enters w w') : Aware w' := by
  induction ht with
  | chat hc => exact h.chat hlink (fun v hv => h.reached hlink hv) hc
  | aside ha => exact h.aside ha.toApart
  | enter _ ha => exact h.aside ha
  | approve j _ _ _ => exact h.passwordValid j
  | create j info hnone _ => exact h.addUser hlink info hnone
  | remove hu => exact h.removeUser hlink (hlink.managed_of_users hu)
  | trans ht _ ih ih' => exact ih' (hlink.front ht.front) (ih hlink h)

/-! ## Events of the backends -/

theorem Aware.disconnected (hlink : Link x none w) (h : Aware w) (hm : w.Managed u)
    (error : String) (e : ConnectionError) : Aware (User.handleDisconnected u error e w) := by
  have hq : Quiet (fun _ => True) w (w.emit (.disconnected u)) := .emit trivial
  have hemit : Aware (w.emit (.disconnected u)) :=
    h.keep (z := none) (.emit (e := .disconnected u) trivial) rfl
  rcases handleDisconnected_cases u error e w with ⟨-, heq⟩ | ⟨-, -, heq⟩ | ⟨-, -, heq⟩
  · rw [heq]
    exact hemit
  · rw [heq]
    exact hemit.keep (mute_reconnect u _) (reconnect_users u _)
  · have hlink₁ := hlink.of_same hq.sameLinks
    have hm₁ := hq.sameLinks.managed.mpr hm
    have hreport := idle_reportError u error (w.emit (.disconnected u))
    rw [heq, giveUp_eq hlink₁ hm₁]
    exact (hemit.idle hreport).removeUser (hlink₁.of_same hreport.sameLinks)
      (hreport.sameLinks.managed.mpr hm₁)

theorem Aware.dropUser (hlink : Link x none w) (h : Aware w) (hu : Pending x u w) :
    Aware (dropUser w u) := by
  have hdata : Aware (w.setData u none) :=
    h.keep (z := none) (Mute.modUser fun _ => ⟨rfl, rfl⟩) rfl
  exact hdata.disconnected (hlink.setData hu.unplaced none) (hu.setData none).managed _ _

theorem Aware.finished (hlink : Link none none w) (h : Aware w) (c : BackendId) :
    Aware (handleSessionFinished c w) := by
  by_cases hc : c ∈ w.clients
  · obtain ⟨w₁, w₂, hidle₁, hidle₂, heq⟩ := handleSessionFinished_steps hc
    have hmark : Aware (markDying c w) :=
      h.keep (z := none) (.of_user rfl rfl (.emit (e := .sessionFinished c) trivial)) rfl
    obtain ⟨-, hloop⟩ := dropUsers_induction (I := fun _ w => Aware w)
      (fun u us w _ hlink hu _ h => h.dropUser hlink hu) (hlink.users_nodup c hc (by simp))
      ((hlink.markDying c).of_same hidle₁.sameLinks)
      (fun v hv => (pending_markDying hlink hc v hv).of_same hidle₁.sameLinks) (hmark.idle hidle₁)
    rw [heq]
    exact (hloop.idle hidle₂).same rfl rfl rfl rfl
  · unfold handleSessionFinished
    rw [if_pos hc]
    exact h.same rfl rfl rfl rfl

theorem Aware.moveIdleUsers (h : Aware w) : Aware (moveIdleUsers w) := by
  have hloop : ∀ (us : List UserId) (w : World), Aware w → Aware (moveUsers us w) := by
    intro us
    induction us with
    | nil => exact fun _ h => h
    | cons u us ih =>
      intro w h
      have hmove := h.keep (mute_move u w) (move_users u w)
      unfold moveUsers
      generalize moveToLongRunBackend u w = r at hmove
      obtain ⟨ok, w₁⟩ := r
      cases ok with
      | false => exact hmove
      | true => exact ih w₁ hmove
  unfold NetworkPluginServer.moveIdleUsers
  split
  · exact h
  · exact hloop _ w h

theorem Aware.sweep (hlink : Link none none w) (h : Aware w) : Aware (sweep w) := by
  have hfinish : ∀ (bs : List BackendId) (w : World), Link none none w → Aware w →
      Aware (bs.foldl (fun w b => handleSessionFinished b w) w) := by
    intro bs
    induction bs with
    | nil => exact fun _ _ h => h
    | cons b bs ih => exact fun w hlink h => ih _ (hlink.finished b) (h.finished hlink b)
  have hstart : Link none none { w with startingBackend := false } :=
    hlink.of_same (.of_links rfl)
  have hping := pinged_checkBackends w.clients { w with startingBackend := false }
  have haware : Aware { w with startingBackend := false } := h.same rfl rfl rfl rfl
  exact hfinish _ _ (hstart.checkBackends w.clients)
    (haware.keep (z := none) (.of_pinged hping) hping.users)

theorem Aware.connectWaitingUsers (h : Aware w) : Aware (connectWaitingUsers w) := by
  have hemit : Aware (w.emit .connectWaitingUsers) :=
    h.keep (z := none) (.emit (e := .connectWaitingUsers) trivial) rfl
  refine drain_induction ?_ ?_ _ _ hemit
  · intro w₁ w₂ hs h₁
    exact h₁.keep (z := none) (.of_searched hs) hs.users
  · intro w₁ u rest c _ _ _ h₁
    exact h₁.keep (mute_serve u w₁ rest) (serve_users u w₁ rest)

theorem Aware.pong (h : Aware w) (b : BackendId) : Aware (handlePongReceived b w) := by
  have hemit : Aware (w.emit (.pong b)) := h.keep (z := none) (.emit (e := .pong b) trivial) rfl
  have hstart : ∀ w₁, Aware w₁ → Aware (startComponent w₁) :=
    fun w₁ h₁ => h₁.keep (z := none) .startComponent (quiet_startComponent w₁).users
  simp only [handlePongReceived]
  split
  · have hready := (hstart _ (hemit.keep (z := none) (.modBackend (b := b)
      (f := fun c => { c with willDie := false })) rfl)).connectWaitingUsers
    exact hready.keep (z := none) .modBackend rfl
  · exact hemit.keep (z := none) .modBackend rfl

theorem Aware.connected (hlink : Link none none w) (h : Aware w) (j : Jid) :
    Aware (handleConnectedPayload j w) := by
  unfold handleConnectedPayload
  split
  · exact h
  · rename_i u hu
    have hmark : SameLinks w (markConnected u w) := sameLinks_modUser (fun _ => rfl) (fun _ => rfl)
    have haware : Aware (markConnected u w) := by
      refine ⟨fun v hv => hmark.managed.mpr (h.timed v ?_), h.known⟩
      by_cases hvu : v = u
      · subst hvu
        simpa [markConnected, modUser] using hv
      · simpa [markConnected, modUser, Function.update_of_ne hvu] using hv
    have hchat : Chat w.Managed (markConnected u w) (User.setConnected u w) :=
      chat_setConnected (hlink.managed_of_users hu) fun k v hv => hlink.managed_of_users hv
    have hmarked := haware.chat (hlink.of_same hmark) (fun v hv => hmark.managed.mpr hv) hchat
    exact hmarked.passwordValid j

theorem Aware.run (hlink : Link none none w) (h : Aware w) {e : Event}
    (henabled : e.enabled w = true) : Aware (e.run w) := by
  have hfront : e.isFront = true → Aware (e.run w) := by
    intro hfront
    refine h.talk hlink (talk_run hfront ?_)
    rintro u rfl
    exact .inr henabled
  cases e with
  | clock now => exact h.same rfl rfl rfl rfl
  | backendConnected =>
    have hj := joined_newBackend w
    exact h.keep (z := none) (.of_user hj.user hj.nextUser
      (hj.log.mono fun _ he => Effect.Plain.spares he)) hj.users
  | backendLost b => exact h.finished hlink b
  | received b m =>
    have hlink₁ := hlink.noteData b
    have hnote : Aware (noteData b w) := by
      obtain ⟨v, hv⟩ := noteData_eq b w
      rw [hv]
      exact h.keep (z := none) .modBackend rfl
    cases m with
    | connected j _ => exact hnote.connected hlink₁ j
    | disconnected j error message =>
      have haside := aside_onPasswordInvalid (noteData b w) j message
      have hlink₂ := hlink₁.of_same haside.quiet.sameLinks
      simp only [Event.run, handleMessage, handleDisconnectedPayload]
      split
      · exact hnote.aside haside.toApart
      · rename_i u hu
        exact (hnote.aside haside.toApart).disconnected hlink₂ (hlink₂.managed_of_users hu) _ _
    | pong => exact hnote.pong b
    | stats res id =>
      simp only [Event.run, handleMessage, handleStatsPayload]
      exact hnote.keep (z := none) .modBackend rfl
    | other => exact hnote
  | pingTimeout => exact h.moveIdleUsers.sweep hlink.moveIdleUsers
  | loginDelay =>
    have hstop : Aware { w with loginTimer := false } := h.same rfl rfl rfl rfl
    exact hstop.connectWaitingUsers
  | collect =>
    simp only [Event.run, collectBackend]
    split
    · exact h
    · exact h.keep (z := none) .modBackend rfl
  | activity u =>
    simp only [Event.run]
    exact h.keep (z := none) (Mute.modUser fun _ => ⟨rfl, rfl⟩) rfl
  | _ => exact hfront rfl

end Aware

end Spectrum
