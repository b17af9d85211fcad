import Spectrum.Transport.Chat

/-!
# Callbacks of the frontend

A callback of the XMPP side is a sequence of six kinds of operations (`Talk`): what users do
on their own (`Chat`), what the registry and the sessions do among themselves (`Aside`), the entry
of a login into the registry, the acceptance of a login because the user is connected with the same
password, creations and removals of users. `Front` is the coarser view of the same sequences.
-/

namespace Spectrum

open World NetworkPluginServer

/-! ## The registry and the sessions -/

/-- The operation changed neither the core nor a user. -/
structure Apart (w w' : World) : Prop where
  core : w'.core = w.core
  user : w'.user = w.user
  log : Logs Effect.Plain w w'

/-- Besides, no login was entered into the registry. -/
structure Aside (w w' : World) : Prop extends Apart w w' where
  registry : ∀ j e, w'.registry j = some e → w.registry j = some e

theorem Apart.quiet {w w' : World} (h : Apart w w') : Quiet Effect.Tame w w' :=
  ⟨h.core, h.log.mono fun _ he => he.tame⟩

namespace Aside

variable {w w₁ w₂ : World}

theorem of_eq (hcore : w₁.core = w.core) (huser : w₁.user = w.user)
    (hlog : Logs Effect.Plain w w₁) (hregistry : w₁.registry = w.registry) : Aside w w₁ :=
  ⟨⟨hcore, huser, hlog⟩, fun j e he => by rwa [hregistry] at he⟩

theorem refl (w : World) : Aside w w := of_eq rfl rfl (.of_eq rfl) rfl

theorem trans (h : Aside w w₁) (h' : Aside w₁ w₂) : Aside w w₂ :=
  ⟨⟨h'.core.trans h.core, h'.user.trans h.user, h.log.trans h'.log⟩,
    fun j e he => h.registry j e (h'.registry j e he)⟩

theorem emit {e : Effect} (he : e.Plain) : Aside w (w.emit e) := of_eq rfl rfl (.emit he) rfl

theorem quiet (h : Aside w w₁) : Quiet Effect.Tame w w₁ := h.toApart.quiet

theorem foldl {α : Type} {f : World → α → World} (hf : ∀ w a, Aside w (f w a)) (l : List α)
    (w : World) : Aside w (l.foldl f w) := by
  induction l generalizing w with
  | nil => exact .refl w
  | cons a l ih => exact (hf w a).trans (ih (f w a))

end Aside

section Aside

variable (w : World)

theorem aside_callSession (s : SessionId) (f : Session → Session × List Session.Output) :
    Aside w (UserRegistry.callSession s f w) := by
  unfold UserRegistry.callSession
  split
  · exact .of_eq rfl rfl (.of_eq rfl) rfl
  · rename_i x _
    refine .of_eq rfl rfl ⟨((f x).2.map (Effect.session s)).reverse, rfl, ?_⟩ rfl
    intro e he
    obtain ⟨o, -, rfl⟩ := List.mem_map.mp (List.mem_reverse.mp he)
    trivial

theorem apart_setEntry (key : Jid) (e : Option Sess) :
    Apart w (UserRegistry.setEntry key e w) := ⟨rfl, rfl, .of_eq rfl⟩

theorem aside_erase (key : Jid) : Aside w (UserRegistry.setEntry key none w) := by
  refine ⟨apart_setEntry w key none, fun j e he => ?_⟩
  have hset : Function.update w.registry key none j = some e := he
  by_cases hj : j = key
  · rw [hj, Function.update_self] at hset
    cases hset
  · rwa [Function.update_of_ne hj] at hset

theorem aside_eraseLogin (key : Jid) (s : SessionId) :
    Aside w (UserRegistry.eraseLogin key s w) := by
  unfold UserRegistry.eraseLogin
  split
  · exact .refl w
  · split
    · exact aside_erase w _
    · exact .refl w

theorem aside_onPasswordInvalid (j : Jid) (error : String) :
    Aside w (UserRegistry.onPasswordInvalid j error w) := by
  unfold UserRegistry.onPasswordInvalid
  split
  · exact .refl w
  · exact (aside_callSession w _ _).trans (aside_erase _ _)

theorem aside_registryTick : Aside w (UserRegistry.removeTick w) := by
  have htimer : Aside w { w with registryTimer := false } := .of_eq rfl rfl (.of_eq rfl) rfl
  apply htimer.trans
  refine Aside.foldl (fun w j => ?_) _ _
  have hin : Aside w { w with inRemoveLater := true } := .of_eq rfl rfl (.of_eq rfl) rfl
  have hinvalid := hin.trans (aside_onPasswordInvalid _ j "")
  exact hinvalid.trans (.of_eq rfl rfl (.of_eq rfl) rfl)

/-- `onPasswordValid` accepts the pending login with its own password. -/
theorem onPasswordValid_logs (j : Jid) :
    Logs (fun e => e.Plain ∨ ∃ entry, w.registry j.toBare = some entry ∧
      e = .passwordValid entry.session j.toBare entry.password) w
      (UserRegistry.onPasswordValid j w) := by
  unfold UserRegistry.onPasswordValid
  split
  · exact .of_eq rfl
  · rename_i entry hentry
    have hemit : Logs (fun e => e.Plain ∨ ∃ entry, w.registry j.toBare = some entry ∧
        e = .passwordValid entry.session j.toBare entry.password) w
        (w.emit (.passwordValid entry.session j.toBare entry.password)) :=
      .emit (.inr ⟨entry, hentry, rfl⟩)
    have hcall := (aside_callSession (w.emit (.passwordValid entry.session j.toBare entry.password))
      entry.session Session.handlePasswordValid).log
    exact (hemit.trans (hcall.mono fun _ he => .inl he)).trans (.of_eq rfl)

theorem onPasswordValid_user (j : Jid) : (UserRegistry.onPasswordValid j w).user = w.user := by
  unfold UserRegistry.onPasswordValid
  split
  · rfl
  · exact (aside_callSession _ _ _).user

theorem quiet_onPasswordValid (j : Jid) :
    Quiet Effect.Mild w (UserRegistry.onPasswordValid j w) := by
  have hcore : (UserRegistry.onPasswordValid j w).core = w.core := by
    unfold UserRegistry.onPasswordValid
    split
    · rfl
    · exact (aside_callSession _ _ _).core
  refine ⟨hcore, (onPasswordValid_logs w j).mono ?_⟩
  rintro e (hplain | ⟨entry, -, rfl⟩)
  · exact hplain.tame.mild
  · trivial

theorem aside_removeSession (j : Jid) (s : SessionId) : Aside w (removeSession j s w) :=
  .of_eq rfl rfl (.of_eq rfl) rfl

/-! ## Admission -/

theorem aside_register (info : UserInfo) : Aside w (UserManager.register info w) := by
  unfold UserManager.register
  split
  · exact .refl w
  · exact .of_eq rfl rfl (.of_eq rfl) rfl

theorem aside_identify (p : Presence) : Aside w (UserManager.identify p w).2 := by
  unfold UserManager.identify
  split
  · simp only [UserManager.identifyServer]
    split
    · exact .refl w
    · split
      · exact aside_onPasswordInvalid w _ _
      · exact aside_register w _
  · simp only [UserManager.identifyGateway]
    split
    · exact .refl w
    · split
      · exact aside_register w _
      · exact .refl w

theorem aside_refuse (p : Presence) : Aside w (UserManager.refuse p w) := by
  simp only [UserManager.refuse]
  generalize hw₁ : (if w.cfg.vipMessage = "" then w
    else w.emit (.message p.fromJid w.cfg.vipMessage)) = w₁
  have h₁ : Aside w w₁ := by
    subst hw₁
    split
    · exact .refl w
    · exact .emit trivial
  split
  · exact h₁.trans (aside_onPasswordInvalid _ _ _)
  · exact h₁

theorem aside_admission (p : Presence) : Aside w (UserManager.admission p w).2 := by
  unfold UserManager.admission
  have hid := aside_identify w p
  split
  · exact .refl w
  · split
    · exact .refl w
    · generalize UserManager.identify p w = r at hid
      obtain ⟨res, w₁⟩ := r
      cases res with
      | none => exact hid
      | some res =>
        dsimp only
        split
        · exact hid.trans (aside_refuse w₁ p)
        · split
          · exact hid
          · exact hid

/-- A user of server mode gets the password of the login that is pending. -/
theorem password_admission {p : Presence} {res : UserInfo} {w₁ : World}
    (h : UserManager.admission p w = (some res, w₁)) (hmode : w.cfg.serverMode = true) :
    res.password = UserRegistry.getUserPassword p.fromJid.toBare w₁ := by
  have hidentify : ∀ {res : UserInfo} {w₁ : World}, UserManager.identify p w = (some res, w₁) →
      res.password = UserRegistry.getUserPassword p.fromJid.toBare w₁ := by
    intro res w₁ heq
    simp only [UserManager.identify, hmode, if_true, UserManager.identifyServer] at heq
    split at heq
    · cases heq
      rfl
    · split at heq
      · cases heq
      · cases heq
        unfold UserManager.register
        split <;> rfl
  unfold UserManager.admission at h
  split at h
  · cases h
  · split at h
    · cases h
    · split at h
      · cases h
      · rename_i heq
        split at h
        · cases h
        · split at h
          · cases h
          · cases h
            exact hidentify heq

theorem aside_addSlot (slot : RemoveSlot) : Aside w (UserManager.addSlot slot w) :=
  .of_eq rfl rfl (.of_eq rfl) rfl

theorem aside_dropSlot (slot : RemoveSlot) : Aside w (UserManager.dropSlot slot w) :=
  .of_eq rfl rfl (.of_eq rfl) rfl

theorem aside_checkUnavailable (u : UserId) (p : Presence) :
    Aside w (UserManager.checkUnavailable p u w) := by
  unfold UserManager.checkUnavailable
  split
  · exact .refl w
  · split
    · exact aside_addSlot w _
    · split
      · exact aside_addSlot w _
      · exact .refl w

/-! ## Removal -/

theorem idle_oracle (o : Oracle) : Idle w { w with oracle := o } :=
  ⟨rfl, fun _ => rfl, fun _ h => h, rfl, .of_eq rfl⟩

/-- An unavailable presence of a JID without a user only reaches the oracle. -/
theorem presenceReceived_of_none {p : Presence} (htype : p.type = .unavailable)
    (hnone : w.users p.fromJid.toBare = none) :
    presenceReceived p w = { w with oracle := (w.oracle.handleIncomingPresence p).1 } := by
  have hhandle : ∀ w' : World, w'.users p.fromJid.toBare = none →
      UserManager.handlePresence p w' = w' := by
    intro w' hw'
    simp only [UserManager.handlePresence, hw', UserManager.admission, htype]
    split
    · rename_i hsplit
      split at hsplit <;> simp_all
    · rename_i hsplit
      split at hsplit <;> simp_all
  have hgeneral : ∀ w' : World, w'.users p.fromJid.toBare = none →
      UserManager.handleGeneralPresenceReceived p w' = w' := by
    intro w' hw'
    simp [UserManager.handleGeneralPresenceReceived, UserManager.handleMUCPresence, htype, hw']
  have hpassed : (w.oracle.handleIncomingPresence p).2 = none ∨
      (w.oracle.handleIncomingPresence p).2 = some p := by
    simp only [Oracle.handleIncomingPresence, htype]
    split <;> simp
  simp only [presenceReceived]
  rw [hgeneral]
  · rcases hpassed with hp | hp
    · rw [hp]
    · rw [hp]
      simp only [Component.handlePresence, htype]
      split
      · rfl
      · rw [hhandle]
        exact hnone
  · rcases hpassed with hp | hp
    · rw [hp]
      exact hnone
    · rw [hp]
      simp only [Component.handlePresence, htype]
      split
      · exact hnone
      · rw [hhandle]
        · exact hnone
        · exact hnone

theorem idle_disconnectUser_of_none {j : Jid} (hnone : w.users j.toBare = none) :
    Idle w (UserManager.disconnectUser j w) := by
  unfold UserManager.disconnectUser
  rw [presenceReceived_of_none w rfl hnone]
  exact idle_oracle w _

theorem idle_finishSession (j : Jid) : Idle w (finishSession j w) := by
  have hchannel : Idle w { w with channel := Function.update w.channel j.toBare [] } :=
    ⟨rfl, fun _ => rfl, fun _ h => h, rfl, .of_eq rfl⟩
  refine hchannel.trans (Idle.foldl (fun w s => ?_) _ _)
  exact ⟨rfl, fun _ => rfl, fun _ h => h, rfl, .of_eq rfl⟩

theorem idle_deleteUser (u : UserId) : Idle w (UserManager.deleteUser u w) := by
  have hdelete : ∀ w : World, Idle w
      (w.modUser u fun x => { x with reconnectTimer := false, convs := [] }) :=
    fun w => Idle.modUser u fun _ => ⟨rfl, rfl, fun h => nomatch h⟩
  simp only [UserManager.deleteUser]
  split
  · exact (idle_finishSession w _).trans (hdelete _)
  · exact hdelete w

/-- `removeUser` erases the user from the map, and the rest is idle but for
`handleUserDestroyed`. -/
theorem removeUser_steps (u : UserId) :
    ∃ w₁, Idle { w with users := Function.update w.users (w.user u).jid.toBare none } w₁ ∧
      Idle (handleUserDestroyed u w₁) (UserManager.removeUser u w) := by
  simp only [UserManager.removeUser]
  split
  · refine ⟨_, ?_, idle_deleteUser _ u⟩
    apply idle_disconnectUser_of_none
    simp
  · exact ⟨_, idle_oracle _ _, idle_deleteUser _ u⟩

end Aside

/-! ## Sequences of operations -/

/-- The frontend has a pointer to the user object: the map or the connecting timer. -/
def World.Reached (w : World) (v : UserId) : Prop :=
  (∃ j, w.users j = some v) ∨ (w.user v).reconnectTimer = true

/-- A sequence of operations. Logins are entered only if `enters` allows it. -/
inductive Talk (enters : Prop) : World → World → Prop
  | chat {w w' : World} (h : Chat w.Reached w w') : Talk enters w w'
  | aside {w w' : World} (h : Aside w w') : Talk enters w w'
  | enter {w w' : World} (henters : enters) (h : Apart w w') : Talk enters w w'
  | approve {w : World} {u : UserId} (j : Jid) (hu : w.users j.toBare = some u)
      (hconn : (w.user u).connected = true)
      (hpw : UserRegistry.getUserPassword j.toBare w = (w.user u).info.password) :
      Talk enters w (UserRegistry.onPasswordValid j w)
  | create {w : World} (j : Jid) (info : UserInfo) (h : w.users j.toBare = none)
      (hpw : w.cfg.serverMode = true →
        info.password = UserRegistry.getUserPassword j.toBare w) :
      Talk enters w (UserManager.addUser j info w)
  | remove {w : World} {u : UserId} {j : Jid} (hu : w.users j = some u) :
      Talk enters w (UserManager.removeUser u w)
  | trans {w w₁ w₂ : World} (h : Talk enters w w₁) (h' : Talk enters w₁ w₂) : Talk enters w w₂

section Sequences

variable {enters : Prop}

theorem Talk.refl (w : World) : Talk enters w w := .aside (.refl w)

theorem Talk.foldl {α : Type} {f : World → α → World} (hf : ∀ w a, Talk enters w (f w a))
    (l : List α) (w : World) : Talk enters w (l.foldl f w) := by
  induction l generalizing w with
  | nil => exact .refl w
  | cons a l ih => exact .trans (hf w a) (ih (f w a))

theorem Talk.front {w w' : World} (h : Talk enters w w') : Front Effect.Mild w w' := by
  have hmild : ∀ {w w'}, Quiet Effect.Tame w w' → Quiet Effect.Mild w w' :=
    fun h => h.mono fun _ he => he.mild
  induction h with
  | chat h => exact .quiet (hmild h.quiet)
  | aside h => exact .quiet (hmild h.quiet)
  | enter _ h => exact .quiet (hmild h.quiet)
  | approve j _ _ _ => exact .quiet (quiet_onPasswordValid _ j)
  | create j info h _ => exact .create j info h
  | @remove w u j hu =>
    obtain ⟨w₁, hq, hq'⟩ := removeUser_steps w u
    exact .trans (.remove hu (hmild hq.quiet)) (.quiet (hmild hq'.quiet))
  | trans _ _ ih ih' => exact .trans ih ih'

end Sequences

section Talk

variable {enters : Prop} (w : World)

theorem reached_of_users : ∀ j v, w.users j = some v → w.Reached v := fun j _ hv => .inl ⟨j, hv⟩

theorem talk_userPresence {u : UserId} {j : Jid} (hu : w.users j = some u) (p : Presence) :
    Talk enters w (User.handlePresence p false u w) :=
  .chat (chat_handlePresence (reached_of_users w j u hu) (reached_of_users w) p false)

theorem talk_deliver (p : Presence) : Talk enters w (UserManager.deliver p w) := by
  unfold UserManager.deliver
  split
  · exact .aside (aside_onPasswordInvalid w _ _)
  · rename_i u hu
    exact .trans (talk_userPresence w hu p) (.aside (aside_checkUnavailable _ u p))

theorem talk_handlePresence (p : Presence) : Talk enters w (UserManager.handlePresence p w) := by
  unfold UserManager.handlePresence
  split
  · exact talk_deliver w p
  · rename_i hnone
    have hadm := aside_admission w p
    have hpassword : ∀ res w₁, UserManager.admission p w = (some res, w₁) →
        w.cfg.serverMode = true →
        res.password = UserRegistry.getUserPassword p.fromJid.toBare w₁ :=
      fun _ _ => password_admission w
    generalize UserManager.admission p w = r at hadm hpassword
    obtain ⟨res, w₁⟩ := r
    cases res with
    | none => exact .aside hadm
    | some res =>
      have hnone₁ : w₁.users p.fromJid.toBare = none := by
        rw [hadm.quiet.users]
        exact hnone
      have hcfg : w₁.cfg = w.cfg := hadm.quiet.cfg
      refine .trans (.aside hadm) (.trans (.create p.fromJid res hnone₁ ?_) (talk_deliver _ p))
      rw [hcfg]
      exact hpassword res w₁ rfl

theorem talk_handleGeneralPresenceReceived (p : Presence) :
    Talk enters w (UserManager.handleGeneralPresenceReceived p w) := by
  unfold UserManager.handleGeneralPresenceReceived UserManager.handleMUCPresence
  split
  · split
    · exact .refl w
    · split
      · exact talk_handlePresence w p
      · split
        · exact .refl w
        · rename_i u hu
          exact talk_userPresence w hu p
  · exact .refl w

theorem talk_componentPresence (p : Presence) : Talk enters w (Component.handlePresence p w) := by
  have hcaps : Talk enters w (sendCapabilitiesRequest p.fromJid w).2 :=
    .chat (chat_sendCapabilitiesRequest (reached_of_users w) p.fromJid)
  unfold Component.handlePresence
  split
  · exact .refl w
  · split
    all_goals first
      | exact .refl w
      | exact talk_handlePresence w p
      | exact .trans hcaps (talk_handlePresence _ p)

theorem talk_presenceReceived (p : Presence) : Talk enters w (presenceReceived p w) := by
  simp only [presenceReceived]
  apply Talk.trans (.chat (.idle (idle_oracle w (w.oracle.handleIncomingPresence p).1)))
  split
  · exact talk_handleGeneralPresenceReceived _ p
  · exact .trans (talk_componentPresence _ _) (talk_handleGeneralPresenceReceived _ p)

theorem talk_disconnectUser (j : Jid) : Talk enters w (UserManager.disconnectUser j w) :=
  talk_presenceReceived w _

theorem talk_connectUser (j : Jid) : Talk enters w (UserManager.connectUser j w) := by
  unfold UserManager.connectUser
  split
  · exact talk_presenceReceived w _
  · rename_i u hu
    split
    · exact .refl w
    · split
      · rename_i hconn
        split
        · exact .aside (.of_eq rfl rfl (.of_eq rfl) rfl)
        · rename_i hpw
          have heq := not_not.mp hpw
          split
          · exact .approve j hu hconn heq
          · have hmessage : Aside w
                (w.emit (.message j "You have signed on from another location.")) := .emit trivial
            exact .trans (.aside hmessage) (.approve j hu hconn heq)
      · exact .aside ((aside_dropSlot w _).trans (aside_addSlot _ _))

theorem talk_handleRemoveTimeout (slot : RemoveSlot) :
    Talk enters w (UserManager.handleRemoveTimeout slot w) := by
  simp only [UserManager.handleRemoveTimeout]
  apply Talk.trans (.aside (aside_dropSlot w slot))
  split
  · exact .refl _
  · rename_i hu
    have hremove : Talk enters (UserManager.dropSlot slot w)
        (UserManager.removeUser slot.user (UserManager.dropSlot slot w)) :=
      .remove (not_not.mp hu)
    split
    · exact .trans hremove (talk_connectUser _ _)
    · exact hremove

theorem talk_removeTick : Talk enters w (UserManager.removeTick w) := by
  have htimer : Aside w { w with removeTimer := false } := .of_eq rfl rfl (.of_eq rfl) rfl
  apply Talk.trans (.aside htimer)
  refine Talk.foldl (fun w slot => ?_) _ _
  split
  · exact talk_handleRemoveTimeout w slot
  · exact .refl w

theorem talk_isValidUserPassword (henters : enters) (j : Jid) (s : SessionId)
    (password : String) : Talk enters w (UserRegistry.isValidUserPassword j s password w) := by
  unfold UserRegistry.isValidUserPassword
  have hadmin : ∀ valid, Aside w (w.emit (.adminPassword s valid)) := fun valid => .emit trivial
  split
  · split
    · exact .aside ((hadmin true).trans (aside_callSession _ _ _))
    · exact .aside ((hadmin false).trans (aside_callSession _ _ _))
  · dsimp only
    split
    · exact .trans (.enter henters (apart_setEntry w _ _)) (talk_connectUser _ j)
    · rename_i e _
      have hold : Talk enters w (UserRegistry.callSession e.session (Session.handlePasswordInvalid "")
          (UserRegistry.setEntry j.toBare (some { e with session := s }) w)) :=
        .trans (.enter henters (apart_setEntry w _ _)) (.aside (aside_callSession _ _ _))
      exact .trans (.trans hold (.enter henters (apart_setEntry _ _ _))) (talk_connectUser _ j)

theorem talk_stopLogin (j : Jid) (s : SessionId) : Talk enters w (UserRegistry.stopLogin j s w) := by
  simp only [UserRegistry.stopLogin]
  apply Talk.trans (.aside (aside_eraseLogin w j.toBare s))
  split
  · exact .refl _
  · exact talk_disconnectUser _ j

/-- Only the request to check a password enters a login. -/
theorem talk_react (s : SessionId) {o : Session.Output}
    (ho : ∀ j password, o = .isValidUserPassword j password → enters) :
    Talk enters w (react s w o) := by
  unfold react
  split
  · exact talk_isValidUserPassword w (ho _ _ rfl) _ s _
  · unfold addSession
    split
    · exact .refl w
    · exact .aside (.of_eq rfl rfl (.of_eq rfl) rfl)
  · unfold channelElement
    split
    · split
      · exact talk_presenceReceived w _
      · exact .refl w
    · exact .refl w
  · exact talk_stopLogin w _ s
  · exact .refl w

theorem talk_reacts (s : SessionId) {os : List Session.Output}
    (hos : ∀ o ∈ os, ∀ j password, o = .isValidUserPassword j password → enters) :
    Talk enters w (os.foldl (react s) w) := by
  induction os generalizing w with
  | nil => exact .refl w
  | cons o os ih =>
    have hone := talk_react w s (hos o List.mem_cons_self)
    exact .trans hone (ih _ fun o' ho' => hos o' (List.mem_cons_of_mem o ho'))

theorem talk_runSession (s : SessionId) {f : Session → Session × List Session.Output}
    (hf : ∀ x, w.session s = some x → ∀ o ∈ (f x).2, ∀ j password,
      o = .isValidUserPassword j password → enters) : Talk enters w (runSession s f w) := by
  unfold runSession
  split
  · exact .refl w
  · rename_i x hx
    exact .trans (.aside (aside_callSession w s f)) (talk_reacts _ s (hf x hx))

theorem talk_closeSession (s : SessionId) : Talk enters w (closeSession s w) := by
  unfold closeSession
  split
  · exact .refl w
  · have hstop : Talk enters w (runSession s (Session.handleSessionFinished w.cfg.prep) w) :=
      talk_runSession w s (by simp [Session.handleSessionFinished])
    have hend : ∀ w' : World, Talk enters w' { w' with session := Function.update w'.session s none } :=
      fun w' => .aside (.of_eq rfl rfl (.of_eq rfl) rfl)
    dsimp only
    split
    · refine .trans (.trans hstop ?_) (hend _)
      exact .trans (.aside (aside_removeSession _ _ s)) (talk_presenceReceived _ _)
    · exact .trans hstop (hend _)

theorem talk_unregister (j : Jid) : Talk enters w (UserManager.unregister j w) := by
  have hstorage : Aside w
      { w with storage := w.storage.map fun st => Function.update st j none } :=
    .of_eq rfl rfl (.of_eq rfl) rfl
  simp only [UserManager.unregister]
  apply Talk.trans (.aside hstorage)
  split
  · exact .refl _
  · rename_i u hu
    exact .remove hu

end Talk

/-! ## Events -/

/-- The events that come from the frontend. -/
def Event.isFront : Event → Bool
  | .presence _ | .caps .. | .connectingTimeout _ | .removeTick | .unregister _
  | .registryTick | .openSession _ | .streamStart .. | .element .. | .closeSession _ => true
  | _ => false

theorem chat_connectingTimeout {S : UserId → Prop} {u : UserId} (hu : S u) (w : World) :
    Chat S w (Event.run (.connectingTimeout u) w) := by
  have hstop : Idle w (w.modUser u fun x => { x with reconnectTimer := false }) :=
    Idle.modUser u fun _ => ⟨rfl, rfl, fun h => nomatch h⟩
  exact .trans (.idle hstop) (chat_onConnectingTimeout hu)

/-- A session is asked to check a password in this step. -/
def Event.Asks (w : World) (e : Event) : Prop :=
  ∃ s element uuid x j password, e = .element s element uuid ∧ w.session s = some x ∧
    .isValidUserPassword j password ∈ (Session.handleElement w.cfg.prep uuid element x).2

theorem talk_run {e : Event} (he : e.isFront = true) {w : World}
    (htimer : ∀ u, e = .connectingTimeout u → w.Reached u) : Talk (e.Asks w) w (e.run w) := by
  cases e with
  | presence p => exact talk_presenceReceived w p
  | caps j known =>
    have hcaps : Aside w { w with caps := Function.update w.caps j known } :=
      .of_eq rfl rfl (.of_eq rfl) rfl
    simp only [Event.run]
    split
    · exact .trans (.aside hcaps) (.chat (chat_handleDiscoInfo (reached_of_users _) j))
    · exact .aside hcaps
  | connectingTimeout u => exact .chat (chat_connectingTimeout (htimer u rfl) w)
  | removeTick => exact talk_removeTick w
  | unregister j => exact talk_unregister w j
  | registryTick => exact .aside (aside_registryTick w)
  | openSession tlsLayer => exact .aside (.of_eq rfl rfl (.of_eq rfl) rfl)
  | streamStart s toJid =>
    refine talk_runSession w s fun x _ o ho j password heq => ?_
    subst heq
    simp only [Session.handleStreamStart] at ho
    split at ho <;> simp at ho
  | element s e uuid =>
    refine talk_runSession w s fun x hx o ho j password heq => ?_
    subst heq
    exact ⟨s, e, uuid, x, j, password, rfl, hx, ho⟩
  | closeSession s => exact talk_closeSession w s
  | _ => cases he

theorem front_run {e : Event} (he : e.isFront = true) (w : World) :
    Front Effect.Mild w (e.run w) := by
  cases e with
  | connectingTimeout u =>
    have hchat : Chat (fun _ => True) w (Event.run (.connectingTimeout u) w) :=
      chat_connectingTimeout trivial w
    exact .quiet (hchat.quiet.mono fun _ h => h.mild)
  | _ => exact (talk_run he fun _ h => nomatch h).front

end Spectrum
