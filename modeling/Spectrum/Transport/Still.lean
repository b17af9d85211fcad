import Spectrum.Transport.Aware

/-!
# Operations that decide nothing about a LOGIN

`Still` says once that an operation sends neither a LOGIN nor a LOGOUT, assigns nobody and keeps
what decides whether a LOGIN is sent: the lists of the backends, the queue, the map of users, and
of a user his JID, his backend, his handlers and his readiness. Most of what the frontend does is
still.
-/

namespace Spectrum

open World NetworkPluginServer

/-- The effects that neither log a user in or out nor assign him. -/
def Effect.Mum : Effect → Prop
  | .assign .. | .send _ (.login ..) | .send _ (.logout ..) => False
  | _ => True

theorem Effect.Spawns.mum {e : Effect} (h : e.Spawns) : e.Mum := by
  cases e <;> trivial

/-- What decides whether a LOGIN is sent for a user. -/
def User.line (x : User) : Jid × Option BackendId × Nat × Bool :=
  (x.jid, x.data, x.slots, x.readyForConnect)

/-- The operation changed nothing that decides about a LOGIN. -/
structure Still (w w' : World) : Prop where
  clients : w'.clients = w.clients
  nextBackend : w'.nextBackend = w.nextBackend
  usersOf : ∀ b, (w'.backends b).users = (w.backends b).users
  willDie : ∀ b, (w'.backends b).willDie = (w.backends b).willDie
  waitingUsers : w'.waitingUsers = w.waitingUsers
  users : w'.users = w.users
  nextUser : w'.nextUser = w.nextUser
  line : ∀ v, (w'.user v).line = (w.user v).line
  caps : w'.caps = w.caps
  log : Logs Effect.Mum w w'

namespace Still

variable {w w₁ w' : World}

/-- A change of fields that decide nothing. -/
theorem of_links (h : w'.links = w.links) (hcaps : w'.caps = w.caps)
    (hlog : Logs Effect.Mum w w') : Still w w' := by
  obtain ⟨hclients, hback, hnext, hwait, husers, huser, hnextUser⟩ :
      w'.clients = w.clients ∧ w'.backends = w.backends ∧ w'.nextBackend = w.nextBackend ∧
        w'.waitingUsers = w.waitingUsers ∧ w'.users = w.users ∧ w'.user = w.user ∧
        w'.nextUser = w.nextUser := by
    simpa only [World.links, Prod.mk.injEq] using h
  exact ⟨hclients, hnext, fun b => by rw [hback], fun b => by rw [hback], hwait, husers, hnextUser,
    fun v => by rw [huser], hcaps, hlog⟩

theorem of_same (h : (w'.links, w'.caps, w'.log) = (w.links, w.caps, w.log)) : Still w w' := by
  obtain ⟨hlinks, hcaps, hlog⟩ :
      w'.links = w.links ∧ w'.caps = w.caps ∧ w'.log = w.log := by
    simpa only [Prod.mk.injEq] using h
  exact of_links hlinks hcaps (.of_eq hlog)

theorem refl (w : World) : Still w w := of_same rfl

theorem trans (h : Still w w₁) (h' : Still w₁ w') : Still w w' where
  clients := h'.clients.trans h.clients
  nextBackend := h'.nextBackend.trans h.nextBackend
  usersOf := fun b => (h'.usersOf b).trans (h.usersOf b)
  willDie := fun b => (h'.willDie b).trans (h.willDie b)
  waitingUsers := h'.waitingUsers.trans h.waitingUsers
  users := h'.users.trans h.users
  nextUser := h'.nextUser.trans h.nextUser
  line := fun v => (h'.line v).trans (h.line v)
  caps := h'.caps.trans h.caps
  log := h.log.trans h'.log

theorem jid (h : Still w w') (v : UserId) : (w'.user v).jid = (w.user v).jid :=
  congrArg (fun l => l.1) (h.line v)

theorem data (h : Still w w') (v : UserId) : (w'.user v).data = (w.user v).data :=
  congrArg (fun l => l.2.1) (h.line v)

theorem slots (h : Still w w') (v : UserId) : (w'.user v).slots = (w.user v).slots :=
  congrArg (fun l => l.2.2.1) (h.line v)

theorem ready (h : Still w w') (v : UserId) :
    (w'.user v).readyForConnect = (w.user v).readyForConnect :=
  congrArg (fun l => l.2.2.2) (h.line v)

theorem emit {e : Effect} (he : e.Mum) : Still w (w.emit e) :=
  of_links rfl rfl (.emit he)

theorem modUser (u : UserId) {f : User → User} (hf : ∀ x, (f x).line = x.line) :
    Still w (w.modUser u f) := by
  refine ⟨rfl, rfl, fun _ => rfl, fun _ => rfl, rfl, rfl, rfl, fun v => ?_, rfl, .of_eq rfl⟩
  by_cases hv : v = u
  · subst hv
    simpa [World.modUser] using hf _
  · simp [World.modUser, Function.update_of_ne hv]

theorem of_searched (h : Searched w w') : Still w w' :=
  ⟨h.clients, h.nextBackend, h.usersOf, h.willDie, h.waitingUsers, h.users, h.nextUser,
    fun v => by rw [h.user], (congrArg World.caps h.rest :), h.log.mono fun _ he => he.mum⟩

theorem iterate {f : World → World} (hf : ∀ w, Still w (f w)) (n : Nat) (w : World) :
    Still w (f^[n] w) := by
  induction n generalizing w with
  | zero => exact .refl w
  | succ n ih => exact (hf w).trans (ih (f w))

theorem foldl {α : Type} {f : World → α → World} (hf : ∀ w a, Still w (f w a)) (l : List α)
    (w : World) : Still w (l.foldl f w) := by
  induction l generalizing w with
  | nil => exact .refl w
  | cons a l ih => exact (hf w a).trans (ih (f w a))

end Still

/-! ## Operations of a user -/

section User

variable (u : UserId) (w : World)

theorem still_send (b : BackendId) {m : ToBackend} (hm : (Effect.send b m).Mum) :
    Still w (send b m w) := by
  unfold send
  split
  · exact .emit hm
  · exact .of_same rfl

theorem still_sendToBackendOf {m : ToBackend} (hm : ∀ b, (Effect.send b m).Mum) :
    Still w (sendToBackendOf u m w) := by
  unfold sendToBackendOf
  split
  · exact .refl w
  · exact still_send w _ (hm _)

theorem still_onPresenceChanged (p : Presence) : Still w (User.onPresenceChanged u p w) := by
  have hone : ∀ w, Still w (handleUserPresenceChanged u p w) := by
    intro w
    unfold handleUserPresenceChanged
    split
    · exact .refl w
    · exact still_sendToBackendOf u w fun _ => trivial
  have hemit : Still w (w.emit (.presenceChanged u p)) := .emit trivial
  exact hemit.trans (.iterate hone _ _)

theorem still_onRoomJoined (room nickname password : String) :
    Still w (User.onRoomJoined u room nickname password w) := by
  refine Still.iterate (fun w => ?_) _ w
  unfold handleRoomJoined
  exact still_sendToBackendOf u w fun _ => trivial

theorem still_onRoomLeft (room : String) : Still w (User.onRoomLeft u room w) := by
  refine Still.iterate (fun w => ?_) _ w
  unfold handleRoomLeft
  exact still_sendToBackendOf u w fun _ => trivial

theorem still_modConvs (f : Conversations → Conversations) : Still w (User.modConvs u f w) :=
  Still.modUser u fun _ => rfl

theorem still_leaveRoom (room : String) : Still w (User.leaveRoom u room w) := by
  simp only [User.leaveRoom]
  apply (still_onRoomLeft u w room).trans
  generalize User.onRoomLeft u room w = w₁
  have hrooms : Still w₁ (w₁.modUser u fun x =>
      { x with joinedRooms := x.joinedRooms.eraseP fun p => legacyName w₁.cfg p.toJid = room }) :=
    Still.modUser u fun _ => rfl
  split
  · exact hrooms
  · exact hrooms.trans (still_modConvs u _ _)

theorem still_leaveContact (p : Presence) : Still w (User.leaveContact p u w) := by
  simp only [User.leaveContact]
  split
  · exact .refl w
  · split
    · exact still_modConvs u w _
    · split
      · exact still_modConvs u w _
      · exact (still_modConvs u w _).trans (still_leaveRoom u _ _)

theorem still_removeJid (j : Jid) : Still w (User.removeJid j u w) := by
  simp only [User.removeJid]
  split
  · exact still_modConvs u w _
  · exact (still_modConvs u w _).trans (Still.foldl (fun w room => still_leaveRoom u w room) _ _)

theorem still_changeLegacyPresence : Still w (User.changeLegacyPresence u w) := by
  have hoffline : Still w (User.goOffline u w) := Still.modUser u fun _ => rfl
  unfold User.changeLegacyPresence
  split
  · exact .refl w
  · split
    · split
      · exact hoffline
      · exact (still_onPresenceChanged u w _).trans (Still.modUser u fun _ => rfl)
    · split
      · exact hoffline
      · exact still_onPresenceChanged u w _

theorem still_handleTransportPresence (p : Presence) :
    Still w (User.handleTransportPresence p u w) := by
  have hremoved : Still w (if p.type = .unavailable then User.removeJid p.fromJid u w else w) := by
    split
    · exact still_removeJid u w _
    · exact .refl w
  simp only [User.handleTransportPresence]
  generalize (if p.type = .unavailable then User.removeJid p.fromJid u w else w) = w₁ at hremoved
  have hcount : Still w₁ (w₁.modUser u fun x =>
      { x with resources := (w.oracle.getAllPresence (w.user u).jid).length }) :=
    Still.modUser u fun _ => rfl
  exact (hremoved.trans hcount).trans (still_changeLegacyPresence u _)

end User

/-! ## The registry and the sessions -/

section Registry

variable (w : World)

theorem still_callSession (s : SessionId) (f : Session → Session × List Session.Output) :
    Still w (UserRegistry.callSession s f w) := by
  unfold UserRegistry.callSession
  split
  · exact .of_same rfl
  · rename_i x _
    refine .of_links rfl rfl
      ⟨((f x).2.map (Effect.session s)).reverse, rfl, ?_⟩
    intro e he
    obtain ⟨o, -, rfl⟩ := List.mem_map.mp (List.mem_reverse.mp he)
    trivial

theorem still_setEntry (key : Jid) (e : Option Sess) : Still w (UserRegistry.setEntry key e w) :=
  .of_same rfl

theorem still_eraseLogin (key : Jid) (s : SessionId) :
    Still w (UserRegistry.eraseLogin key s w) := by
  unfold UserRegistry.eraseLogin
  split
  · exact .refl w
  · split
    · exact still_setEntry w _ _
    · exact .refl w

theorem still_onPasswordInvalid (j : Jid) (error : String) :
    Still w (UserRegistry.onPasswordInvalid j error w) := by
  unfold UserRegistry.onPasswordInvalid
  split
  · exact .refl w
  · exact (still_callSession w _ _).trans (still_setEntry _ _ _)

theorem still_onPasswordValid (j : Jid) : Still w (UserRegistry.onPasswordValid j w) := by
  unfold UserRegistry.onPasswordValid
  split
  · exact .refl w
  · rename_i entry _
    have hemit : Still w (w.emit (.passwordValid entry.session j.toBare entry.password)) :=
      .emit trivial
    exact (hemit.trans (still_callSession _ _ _)).trans (still_setEntry _ _ _)

theorem still_registryTick : Still w (UserRegistry.removeTick w) := by
  have htimer : Still w { w with registryTimer := false } :=
    .of_same rfl
  apply htimer.trans
  refine Still.foldl (fun w j => ?_) _ _
  have hin : Still w { w with inRemoveLater := true } :=
    .of_same rfl
  exact (hin.trans (still_onPasswordInvalid _ j "")).trans
    (.of_same rfl)

theorem still_admission (p : Presence) : Still w (UserManager.admission p w).2 := by
  have hregister : ∀ info, Still w (UserManager.register info w) := by
    intro info
    unfold UserManager.register
    split
    · exact .refl w
    · exact .of_same rfl
  have hid : Still w (UserManager.identify p w).2 := by
    unfold UserManager.identify
    split
    · simp only [UserManager.identifyServer]
      split
      · exact .refl w
      · split
        · exact still_onPasswordInvalid w _ _
        · exact hregister _
    · simp only [UserManager.identifyGateway]
      split
      · exact .refl w
      · split
        · exact hregister _
        · exact .refl w
  have hrefuse : ∀ w : World, Still w (UserManager.refuse p w) := by
    intro w
    have hmessage : Still w (if w.cfg.vipMessage = "" then w
        else w.emit (.message p.fromJid w.cfg.vipMessage)) := by
      split
      · exact .refl w
      · exact .emit trivial
    simp only [UserManager.refuse]
    generalize (if w.cfg.vipMessage = "" then w
      else w.emit (.message p.fromJid w.cfg.vipMessage)) = w₁ at hmessage
    split
    · exact hmessage.trans (still_onPasswordInvalid _ _ _)
    · exact hmessage
  unfold UserManager.admission
  split
  · exact .refl w
  · split
    · exact .refl w
    · generalize UserManager.identify p w = r at hid
      obtain ⟨res, w₁⟩ := r
      cases res with
      | none => exact hid
      | some res =>
        dsimp only
        split
        · exact hid.trans (hrefuse w₁)
        · split
          · exact hid
          · exact hid

theorem still_checkUnavailable (u : UserId) (p : Presence) :
    Still w (UserManager.checkUnavailable p u w) := by
  have hslot : ∀ slot, Still w (UserManager.addSlot slot w) :=
    fun _ => .of_same rfl
  unfold UserManager.checkUnavailable
  split
  · exact .refl w
  · split
    · exact hslot _
    · split
      · exact hslot _
      · exact .refl w

theorem still_oracle (o : Oracle) : Still w { w with oracle := o } :=
  .of_same rfl

theorem still_finishSession (j : Jid) : Still w (finishSession j w) := by
  have hchannel : Still w { w with channel := Function.update w.channel j.toBare [] } :=
    .of_same rfl
  refine hchannel.trans (Still.foldl (fun w s => ?_) _ _)
  exact .of_same rfl

/-- What `removeUser` does beside erasing and destroying the user is still. -/
theorem removeUser_still (u : UserId) :
    ∃ w₁, Still { w with users := Function.update w.users (w.user u).jid.toBare none } w₁ ∧
      Still (handleUserDestroyed u w₁) (UserManager.removeUser u w) := by
  have hdelete : ∀ w : World, Still w (UserManager.deleteUser u w) := by
    intro w
    have hmod : ∀ w : World, Still w
        (w.modUser u fun x => { x with reconnectTimer := false, convs := [] }) :=
      fun w => Still.modUser u fun _ => rfl
    simp only [UserManager.deleteUser]
    split
    · exact (still_finishSession w _).trans (hmod _)
    · exact hmod w
  simp only [UserManager.removeUser]
  split
  · refine ⟨_, ?_, hdelete _⟩
    unfold UserManager.disconnectUser
    rw [presenceReceived_of_none _ rfl (by simp)]
    exact still_oracle _ _
  · exact ⟨_, still_oracle _ _, hdelete _⟩

end Registry

end Spectrum
