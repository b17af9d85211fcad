import Spectrum.Transport.LoginState
import Spectrum.Transport.UserFrame
import Spectrum.Session.Registry

/-!
# Pending logins

A login of server mode waits in the registry until somebody answers it: the user that was created
for it, when the backend has decided, the slot of `removeLater`, or the slot of a reconnect, which
creates the user again. Some paths give a login up without an answer: a user whose transport is
disabled, a removal that finds the user of a newer login, and a user who has no reconnect left.
In the runs that avoid these paths (`Careful`) every pending login can be answered.
-/

namespace Spectrum

open World NetworkPluginServer

/-! ## The property -/

/-- A slot of `removeLater` will reject the login. -/
def Dismissed (j : Jid) (w : World) : Prop :=
  w.registryTimer = true ∧ ∃ user ∈ w.registrySlots, user.toBare = j

/-- A slot of a reconnect is armed. -/
def Recalled (j : Jid) (w : World) : Prop :=
  w.removeTimer = true ∧ ∃ slot ∈ w.removeSlots, slot.jid = j ∧ slot.reconnect = true

/-- Somebody can still answer every pending login. -/
def Resolvable (w : World) : Prop :=
  ∀ j, w.registry j ≠ none → w.users j ≠ none ∨ Dismissed j w ∨ Recalled j w

/-! ## The condition -/

/-- A login of the JID creates a user or is answered: the JID is valid, and the user has not
disabled the transport, unless he is refused before that is looked at. -/
def Admits (j : Jid) (w : World) : Prop :=
  (w.cfg.jid.node ≠ "" ∨ j.isValid = true) ∧
  ∀ info, UserManager.stored j.toBare w = some info →
    info.enableTransport = true ∨ w.cfg.vipOnly = true ∧ info.vip = false

/-- The first removal that will find the user of the JID. -/
def liveSlot (j : Jid) (w : World) : Option RemoveSlot :=
  w.removeSlots.find? fun slot => decide (slot.jid = j ∧ w.users j = some slot.user)

/-- Users with a pending login have a reconnect left, or the login does not depend on them. -/
def SparesUsers (us : List UserId) (w : World) : Prop :=
  ∀ u ∈ us, w.registry (w.user u).jid ≠ none →
    (w.user u).ignoreDisconnect = true ∨ User.reconnects (w.user u) .otherError = true ∨
      Dismissed (w.user u).jid w ∨ Recalled (w.user u).jid w

/-- The end of the backend keeps its users with a pending login. -/
def Spares (b : BackendId) (w : World) : Prop := SparesUsers (w.backends b).users w

/-- The same for the backends that one sweep ends, each when its turn comes. -/
def SparesAll : List BackendId → World → Prop
  | [], _ => True
  | b :: bs, w => Spares b w ∧ SparesAll bs (handleSessionFinished b w)

/-- The step does not give up a login that is pending, or becomes so. -/
def Careful (w : World) : Event → Prop
  | .element s e uuid => ∀ x, w.session s = some x → ∀ user password,
      .isValidUserPassword user password ∈ (Session.handleElement w.cfg.prep uuid e x).2 →
      w.users user.toBare = none →
        user.toBare ∈ w.cfg.adminJids ∨ Dismissed user.toBare w ∨ Recalled user.toBare w ∨
          Admits user w
  | .removeTick => ∀ j, w.registry j ≠ none → Dismissed j w ∨
      match liveSlot j w with
      | none => w.users j ≠ none
      | some slot => slot.reconnect = true ∧ Admits j w
  | .unregister j => w.registry j ≠ none → w.users j ≠ none → Dismissed j w ∨ Recalled j w
  | .backendLost b => Spares b w
  | .pingTimeout =>
    let w := moveIdleUsers w
    let r := checkBackends w.clients { w with startingBackend := false }
    SparesAll r.1 r.2
  | _ => True

/-! ## Presences and answers -/

/-- What is known about the logins in every state. -/
structure Attended (w : World) : Prop where
  sound : Sound w
  resolvable : Resolvable w

section Presences

variable {key : Jid} {w w' : World}

theorem Dismissed.touches {j : Jid} (h : Dismissed j w) (ht : Touches key w w') :
    Dismissed j w' := by
  unfold Dismissed
  rw [ht.registryTimer, ht.registrySlots]
  exact h

theorem Recalled.touches {j : Jid} (h : Recalled j w) (ht : Touches key w w') :
    Recalled j w' := by
  obtain ⟨htimer, slot, hslot, hjid⟩ := h
  exact ⟨ht.removeTimer htimer, slot, ht.removeSlots hslot, hjid⟩

theorem Touches.awaits {j : Jid} (ht : Touches key w w')
    (h : w.users j ≠ none ∨ Dismissed j w ∨ Recalled j w) :
    w'.users j ≠ none ∨ Dismissed j w' ∨ Recalled j w' := by
  rcases h with husers | hdismissed | hrecalled
  · exact .inl (ht.users_some husers)
  · exact .inr (.inl (hdismissed.touches ht))
  · exact .inr (.inr (hrecalled.touches ht))

theorem Admits.congr {j : Jid} (h : Admits j w) (hcfg : w'.cfg = w.cfg)
    (hstored : UserManager.stored j.toBare w' = UserManager.stored j.toBare w) : Admits j w' := by
  unfold Admits at h ⊢
  rw [hcfg, hstored]
  exact h

theorem stored_congr (hstorage : w'.storage = w.storage) (j : Jid) :
    UserManager.stored j w' = UserManager.stored j w := by
  unfold UserManager.stored
  rw [hstorage]

theorem Attended.touches (h : Attended w) (ht : Touches key w w') : Attended w' := by
  refine ⟨ht.sound h.sound, fun j hj => ?_⟩
  have hold : w.registry j ≠ none := fun hnone => hj (ht.registry_none hnone)
  exact ht.awaits (h.resolvable j hold)

theorem Attended.of_desk (h : Attended w) (hd : w'.desk = w.desk) : Attended w' := by
  have ht : Touches Jid.empty w w' := .of_desk hd
  exact h.touches ht

/-- The login of the JID has an answer or a user. -/
def Resolved (j : Jid) (w : World) : Prop := w.registry j = none ∨ w.users j ≠ none

theorem Resolved.touches {j : Jid} (h : Resolved j w) (ht : Touches key w w') : Resolved j w' :=
  h.imp ht.registry_none ht.users_some

theorem registry_refuse {p : Presence} (hmode : w.cfg.serverMode = true) :
    (UserManager.refuse p w).registry p.fromJid.toBare = none := by
  have hanswer : ∀ w : World, w.cfg.serverMode = true →
      (if w.cfg.serverMode then UserRegistry.onPasswordInvalid p.fromJid "" w else w).registry
        p.fromJid.toBare = none := by
    intro w hmode
    rw [if_pos hmode]
    exact registry_onPasswordInvalid p.fromJid ""
  unfold UserManager.refuse
  dsimp only
  refine hanswer _ ?_
  split <;> exact hmode

/-- A login that is not admitted is answered, if the user has not disabled the transport. -/
theorem registry_admission {p : Presence} (hmode : w.cfg.serverMode = true)
    (hadmin : p.fromJid.toBare ∉ w.cfg.adminJids) (htype : p.type = .available)
    (hadmits : ∀ info, UserManager.stored p.fromJid.toBare w = some info →
      info.enableTransport = true ∨ w.cfg.vipOnly = true ∧ info.vip = false)
    (hnone : (UserManager.admission p w).1 = none) :
    (UserManager.admission p w).2.registry p.fromJid.toBare = none := by
  have hidentify : UserManager.identify p w = UserManager.identifyServer p w := if_pos hmode
  have hother : ¬ (p.type = .unavailable ∨ p.type = .probe) := by
    rw [htype]
    simp
  unfold UserManager.admission at hnone ⊢
  rw [if_neg fun h => hadmin h.2, if_neg hother, hidentify] at hnone ⊢
  unfold UserManager.identifyServer at hnone ⊢
  dsimp only at hnone ⊢
  cases hstored : UserManager.stored p.fromJid.toBare w with
  | some res =>
    simp only [hstored] at hnone ⊢
    split at hnone
    case isTrue hvip =>
      rw [if_pos hvip]
      exact registry_refuse hmode
    case isFalse hvip =>
      rw [if_neg hvip]
      split at hnone
      case isTrue hdisabled =>
        rcases hadmits res hstored with henabled | hrefused
        · rw [henabled] at hdisabled
          cases hdisabled.2
        · exact absurd hrefused hvip
      case isFalse => cases hnone
  | none =>
    simp only [hstored] at hnone ⊢
    by_cases hneed : (w.cfg.needRegistration.getD false && w.cfg.needPassword.getD true) = true
    · rw [if_pos hneed]
      exact registry_onPasswordInvalid p.fromJid ""
    · rw [if_neg hneed] at hnone ⊢
      dsimp only at hnone ⊢
      split at hnone
      case isTrue hvip =>
        rw [if_pos hvip]
        refine registry_refuse ?_
        rw [(touches_register (w := w) rfl).cfg]
        exact hmode
      case isFalse => simp at hnone

theorem resolved_handlePresence {p : Presence} (hmode : w.cfg.serverMode = true)
    (hadmin : p.fromJid.toBare ∉ w.cfg.adminJids) (htype : p.type = .available)
    (hadmits : ∀ info, UserManager.stored p.fromJid.toBare w = some info →
      info.enableTransport = true ∨ w.cfg.vipOnly = true ∧ info.vip = false) :
    Resolved p.fromJid.toBare (UserManager.handlePresence p w) := by
  cases hu : w.users p.fromJid.toBare with
  | some u =>
    have hsome : Resolved p.fromJid.toBare w := .inr (by rw [hu]; exact Option.some_ne_none u)
    exact hsome.touches (touches_userManager p)
  | none =>
    have hanswered := registry_admission hmode hadmin htype hadmits
    unfold UserManager.handlePresence
    simp only [hu]
    generalize UserManager.admission p w = r at hanswered
    obtain ⟨res, w₁⟩ := r
    cases res with
    | none => exact .inl (hanswered rfl)
    | some info =>
      have hnew : Resolved p.fromJid.toBare (UserManager.addUser p.fromJid info w₁) := by
        refine .inr ?_
        rw [show (UserManager.addUser p.fromJid info w₁).users =
          Function.update w₁.users p.fromJid.toBare (some w₁.nextUser) from
          congrArg Desk.users (desk_handleUserCreated _ _)]
        simp
      exact hnew.touches (touches_deliver p)

/-- The presence that `connectUser` simulates settles the login. -/
theorem resolved_presenceReceived {p : Presence} (hmode : w.cfg.serverMode = true)
    (hadmin : p.fromJid.toBare ∉ w.cfg.adminJids) (htype : p.type = .available)
    (hto : p.toJid = w.cfg.jid) (hadmits : Admits p.fromJid w) :
    Resolved p.fromJid.toBare (presenceReceived p w) := by
  obtain ⟨hvalid, hinfo⟩ := hadmits
  have hresolved : ∀ w' : World, w'.desk = w.desk →
      Resolved p.fromJid.toBare (UserManager.handlePresence p w') := by
    intro w' hdesk
    have hcfg : w'.cfg = w.cfg := congrArg Desk.cfg hdesk
    have hstorage : w'.storage = w.storage := congrArg Desk.storage hdesk
    refine resolved_handlePresence ?_ ?_ htype ?_
    · rw [hcfg]
      exact hmode
    · rw [hcfg]
      exact hadmin
    · rw [hcfg, stored_congr hstorage]
      exact hinfo
  rw [← hto] at hvalid
  by_cases hnode : p.toJid.node = ""
  · have hjid : p.fromJid.isValid = true := hvalid.resolve_left (not_not.mpr hnode)
    have hpassed : (w.oracle.handleIncomingPresence p).2 = some p := by
      simp [Oracle.handleIncomingPresence, hnode, htype]
    have hcomponent : ∀ w' : World, Component.handlePresence p w' =
        UserManager.handlePresence p (sendCapabilitiesRequest p.fromJid w').2 := by
      intro w'
      simp [Component.handlePresence, hnode, hjid, htype]
    simp only [presenceReceived, hpassed, hcomponent]
    refine Resolved.touches (hresolved _ ?_) (touches_general p)
    rw [desk_sendCapabilitiesRequest]
    rfl
  · have hpassed : (w.oracle.handleIncomingPresence p).2 = none := by
      simp [Oracle.handleIncomingPresence, hnode]
    have hgeneral : ∀ w' : World, UserManager.handleGeneralPresenceReceived p w' =
        UserManager.handlePresence p w' := by
      intro w'
      simp [UserManager.handleGeneralPresenceReceived, UserManager.handleMUCPresence, hnode, htype]
    simp only [presenceReceived, hpassed, hgeneral]
    exact hresolved _ rfl

end Presences

/-! ## Logins -/

section Logins

variable {w w' : World}

/-- A pending login, set by somebody who will now be connected. -/
theorem Sound.setEntry (h : Sound w) {key : Jid} (hadmin : key ∉ w.cfg.adminJids)
    (e : Option Sess) : Sound (UserRegistry.setEntry key e w) := by
  refine ⟨h.users, h.slots, fun j hj => ?_⟩
  by_cases hkey : j = key
  · rw [hkey]
    exact hadmin
  · refine h.logins j fun hnone => hj ?_
    simpa [UserRegistry.setEntry, hkey] using hnone

/-- All logins but one can be answered. -/
def ResolvableBut (key : Jid) (w : World) : Prop :=
  ∀ j, j ≠ key → w.registry j ≠ none → w.users j ≠ none ∨ Dismissed j w ∨ Recalled j w

theorem ResolvableBut.touches {key : Jid} (h : ResolvableBut key w) (ht : Touches key w w') :
    ResolvableBut key w' := by
  intro j hj hpending
  have hold : w.registry j ≠ none := fun hnone => hpending (ht.registry_none hnone)
  exact ht.awaits (h j hj hold)

theorem ResolvableBut.resolvable {key : Jid} (h : ResolvableBut key w)
    (hkey : w.registry key ≠ none → w.users key ≠ none ∨ Dismissed key w ∨ Recalled key w) :
    Resolvable w := by
  intro j hj
  by_cases heq : j = key
  · subst heq
    exact hkey hj
  · exact h j heq hj

/-- Slots are added, and no slot of a reconnect is lost. -/
theorem ResolvableBut.arm {key : Jid} (h : ResolvableBut key w) (husers : w'.users = w.users)
    (hregistry : w'.registry = w.registry) (hdismissed : ∀ j, Dismissed j w → Dismissed j w')
    (hrecalled : ∀ j, Recalled j w → Recalled j w') : ResolvableBut key w' := by
  intro j hj hpending
  rw [hregistry] at hpending
  rw [husers]
  exact (h j hj hpending).imp_right (Or.imp (hdismissed j) (hrecalled j))

theorem attended_connectUser {user : Jid} (hmode : w.cfg.serverMode = true) (hsound : Sound w)
    (hbut : ResolvableBut user.toBare w) (hadmin : user.toBare ∉ w.cfg.adminJids)
    (hcareful : w.users user.toBare = none →
      Dismissed user.toBare w ∨ Recalled user.toBare w ∨ Admits user w) :
    Attended (UserManager.connectUser user w) := by
  unfold UserManager.connectUser
  split
  case h_1 hnone =>
    have ht := touches_presenceReceived (w := w)
      { fromJid := user, toJid := w.cfg.jid, type := .available }
    refine ⟨ht.sound hsound, (hbut.touches ht).resolvable fun hpending => ?_⟩
    rcases hcareful hnone with hdismissed | hrecalled | hadmits
    · exact .inr (.inl (hdismissed.touches ht))
    · exact .inr (.inr (hrecalled.touches ht))
    · refine .inl ?_
      have hresolved := resolved_presenceReceived (w := w)
        (p := { fromJid := user, toJid := w.cfg.jid, type := .available })
        hmode hadmin rfl rfl hadmits
      exact hresolved.resolve_left hpending
  case h_2 u hu =>
    have hsome : w.users user.toBare ≠ none := by
      rw [hu]
      exact Option.some_ne_none u
    have hvalid : ∀ w' : World, w'.desk = w.desk →
        Attended (UserRegistry.onPasswordValid user w') := by
      intro w' hdesk
      have ht : Touches user.toBare w (UserRegistry.onPasswordValid user w') :=
        (Touches.of_desk hdesk).trans (touches_onPasswordValid user)
      exact ⟨ht.sound hsound, (hbut.touches ht).resolvable fun hpending =>
        absurd (registry_onPasswordValid user) hpending⟩
    rw [if_neg (by simp [hmode])]
    split
    · split
      · have hlater : ResolvableBut user.toBare (UserRegistry.removeLater user w) := by
          refine hbut.arm rfl rfl (fun j hj => ?_) fun _ hj => hj
          obtain ⟨-, v, hv, hjid⟩ := hj
          exact ⟨rfl, v, List.mem_append_left _ hv, hjid⟩
        exact ⟨⟨hsound.users, hsound.slots, hsound.logins⟩, hlater.resolvable fun _ => .inl hsome⟩
      · split
        · exact hvalid w rfl
        · exact hvalid _ (desk_emit w _)
    · have hrecall : ResolvableBut user.toBare (UserManager.addSlot ⟨user.toBare, u, true⟩
          (UserManager.dropSlot ⟨user.toBare, u, false⟩ w)) := by
        refine hbut.arm rfl rfl (fun _ hj => hj) fun j hj => ?_
        obtain ⟨-, slot, hslot, hjid, hreconnect⟩ := hj
        refine ⟨rfl, slot, List.mem_append_left _ (List.mem_filter.mpr ⟨hslot, ?_⟩), hjid,
          hreconnect⟩
        refine decide_eq_true ?_
        rintro rfl
        cases hreconnect
      refine ⟨⟨hsound.users, fun slot hslot => ?_, hsound.logins⟩,
        hrecall.resolvable fun _ => .inl hsome⟩
      rcases List.mem_append.mp hslot with hslot | hslot
      · exact hsound.slots slot (List.mem_filter.mp hslot).1
      · rw [List.mem_singleton.mp hslot]
        exact hsound.users _ u hu

theorem desk_setEntry (key : Jid) (e : Option Sess) (w : World) :
    (UserRegistry.setEntry key e w).desk =
      { w.desk with registry := Function.update w.desk.registry key e } := rfl

/-- The login of an earlier session is rejected, and the entry is that of this session. -/
theorem isValidUserPassword_desk {user : Jid} (s : SessionId) (password : String)
    (hadmin : user.toBare ∉ w.cfg.adminJids) :
    ∃ w₁, UserRegistry.isValidUserPassword user s password w = UserManager.connectUser user w₁ ∧
      w₁.desk = (UserRegistry.setEntry user.toBare (some ⟨password, s⟩) w).desk := by
  unfold UserRegistry.isValidUserPassword
  rw [if_neg hadmin]
  refine ⟨_, rfl, ?_⟩
  rw [desk_setEntry, desk_setEntry]
  dsimp only
  split
  · rfl
  · rw [desk_callSession, desk_setEntry]
    simp only [Function.update_idem]

theorem attended_isValidUserPassword {user : Jid} {s : SessionId} {password : String}
    (hmode : w.cfg.serverMode = true) (h : Attended w)
    (hcareful : w.users user.toBare = none → user.toBare ∈ w.cfg.adminJids ∨
      Dismissed user.toBare w ∨ Recalled user.toBare w ∨ Admits user w) :
    Attended (UserRegistry.isValidUserPassword user s password w) := by
  by_cases hadmin : user.toBare ∈ w.cfg.adminJids
  · unfold UserRegistry.isValidUserPassword
    rw [if_pos hadmin]
    split
    · refine h.of_desk ?_
      rw [desk_callSession, desk_emit]
    · refine h.of_desk ?_
      rw [desk_callSession, desk_emit]
  · obtain ⟨w₁, heq, hdesk⟩ := isValidUserPassword_desk (w := w) s password hadmin
    have ht : Touches user.toBare (UserRegistry.setEntry user.toBare (some ⟨password, s⟩) w) w₁ :=
      .of_desk hdesk
    have hbut : ResolvableBut user.toBare
        (UserRegistry.setEntry user.toBare (some ⟨password, s⟩) w) := by
      intro j hj hpending
      refine h.resolvable j fun hnone => hpending ?_
      simpa [UserRegistry.setEntry, hj] using hnone
    have husers : w₁.users = w.users := congrArg Desk.users hdesk
    rw [heq]
    refine attended_connectUser ?_ (ht.sound (h.sound.setEntry hadmin _)) (hbut.touches ht) ?_ ?_
    · rw [ht.cfg]
      exact hmode
    · rw [ht.cfg]
      exact hadmin
    · intro hnone
      rw [husers] at hnone
      rcases hcareful hnone with hadmin' | hdismissed | hrecalled | hadmits
      · exact absurd hadmin' hadmin
      · have hset : Dismissed user.toBare
            (UserRegistry.setEntry user.toBare (some ⟨password, s⟩) w) := hdismissed
        exact .inl (hset.touches ht)
      · have hset : Recalled user.toBare
            (UserRegistry.setEntry user.toBare (some ⟨password, s⟩) w) := hrecalled
        exact .inr (.inl (hset.touches ht))
      · have hstorage : w₁.storage = w.storage := congrArg Desk.storage hdesk
        exact .inr (.inr (hadmits.congr ht.cfg (stored_congr hstorage _)))

end Logins

/-! ## Sessions -/

section Sessions

variable {w : World}

theorem attended_stopLogin (h : Attended w) (user : Jid) (s : SessionId) :
    Attended (UserRegistry.stopLogin user s w) := by
  have herase : Touches user.toBare w (UserRegistry.eraseLogin user.toBare s w) := by
    unfold UserRegistry.eraseLogin
    split
    · exact .refl w
    · split
      · exact touches_erase user.toBare
      · exact .refl w
  simp only [UserRegistry.stopLogin]
  split
  · exact h.touches herase
  · exact (h.touches herase).touches (touches_presenceReceived _)

/-- The outputs of a session that ask for no login. -/
theorem attended_react (h : Attended w) (s : SessionId) {o : Session.Output}
    (ho : ∀ user password, o ≠ .isValidUserPassword user password) : Attended (react s w o) := by
  unfold react
  split
  · exact absurd rfl (ho _ _)
  · refine h.of_desk ?_
    unfold addSession
    split <;> rfl
  · unfold channelElement
    split
    · split
      · exact h.touches (touches_presenceReceived _)
      · exact h
    · exact h
  · exact attended_stopLogin h _ s
  · exact h

theorem attended_reacts (s : SessionId) {os : List Session.Output}
    (hos : ∀ o ∈ os, ∀ user password, o ≠ .isValidUserPassword user password)
    (h : Attended w) : Attended (os.foldl (react s) w) := by
  induction os generalizing w with
  | nil => exact h
  | cons o os ih =>
    have hone := attended_react h s (hos o List.mem_cons_self)
    exact ih (fun o' ho' => hos o' (List.mem_cons_of_mem o ho')) hone

/-- A session that asks for a login does nothing else in this step. -/
theorem handleElement_outputs (prep : StringPrep) (uuid : String) (e : Element) (x : Session) :
    (∃ user password,
      (Session.handleElement prep uuid e x).2 = [.isValidUserPassword user password]) ∨
    ∀ o ∈ (Session.handleElement prep uuid e x).2, ∀ user password,
      o ≠ .isValidUserPassword user password := by
  unfold Session.handleElement
  split
  · exact .inr (by simp)
  · split
    · split
      · split
        · exact .inr (by simp)
        · exact .inl ⟨_, _, rfl⟩
      · exact .inr (by simp)
    · split <;> exact .inr (by simp)
    · exact .inr (by simp)
    · exact .inr (by simp)
    · exact .inr (by simp)
    · exact .inr (by simp)
    · exact .inr (by simp)
    · exact .inr (by simp)

theorem attended_runSession (h : Attended w) (s : SessionId)
    {f : Session → Session × List Session.Output}
    (hf : ∀ x, ∀ o ∈ (f x).2, ∀ user password, o ≠ .isValidUserPassword user password) :
    Attended (runSession s f w) := by
  unfold runSession
  split
  · exact h
  · exact attended_reacts s (hf _) (h.of_desk (desk_callSession w s f))

theorem attended_element (hmode : w.cfg.serverMode = true) (h : Attended w) (s : SessionId)
    (e : Element) (uuid : String) (hcareful : Careful w (.element s e uuid)) :
    Attended (runSession s (Session.handleElement w.cfg.prep uuid e) w) := by
  unfold runSession
  split
  · exact h
  · rename_i x hx
    have hcall := desk_callSession w s (Session.handleElement w.cfg.prep uuid e)
    have hattended := h.of_desk hcall
    rcases handleElement_outputs w.cfg.prep uuid e x with ⟨user, password, heq⟩ | hother
    · have hnone := hcareful x hx user password (by rw [heq]; exact List.mem_singleton.mpr rfl)
      rw [heq]
      generalize UserRegistry.callSession s (Session.handleElement w.cfg.prep uuid e) w = w₁
        at hcall hattended
      have hcfg : w₁.cfg = w.cfg := congrArg Desk.cfg hcall
      have husers : w₁.users = w.users := congrArg Desk.users hcall
      have hstorage : w₁.storage = w.storage := congrArg Desk.storage hcall
      have ht : Touches user.toBare w w₁ := .of_desk hcall
      refine attended_isValidUserPassword (by rw [hcfg]; exact hmode) hattended ?_
      rw [husers, hcfg]
      intro hfree
      rcases hnone hfree with hadmin | hdismissed | hrecalled | hadmits
      · exact .inl hadmin
      · exact .inr (.inl (hdismissed.touches ht))
      · exact .inr (.inr (.inl (hrecalled.touches ht)))
      · exact .inr (.inr (.inr (hadmits.congr hcfg (stored_congr hstorage _))))
    · exact attended_reacts s hother hattended

theorem attended_closeSession (h : Attended w) (s : SessionId) : Attended (closeSession s w) := by
  unfold closeSession
  split
  · exact h
  · rename_i x _
    have hfinished := attended_runSession h s
      (f := Session.handleSessionFinished w.cfg.prep) (by simp [Session.handleSessionFinished])
    dsimp only
    generalize runSession s (Session.handleSessionFinished w.cfg.prep) w = w₁ at hfinished
    have hremoved : Attended (removeSession x.remoteJid s w₁) := hfinished.of_desk rfl
    have hlast : Attended (if s ∈ w₁.channel x.remoteJid.toBare then
        presenceReceived { fromJid := x.remoteJid, toJid := Jid.empty, type := .unavailable }
          (removeSession x.remoteJid s w₁) else w₁) := by
      split
      · exact hremoved.touches (touches_presenceReceived _)
      · exact hfinished
    exact hlast.of_desk rfl

end Sessions

/-! ## Users who are removed -/

section Removals

variable {w : World} {u : UserId}

/-- Only the map of the users has changed. -/
def Erases (w w' : World) : Prop := ∃ users, w'.desk = { w.desk with users := users }

namespace Erases

variable {w' w₁ : World} {j : Jid}

theorem of_desk (h : w'.desk = w.desk) : Erases w w' := ⟨w.users, h⟩

theorem trans (h : Erases w w₁) (h' : Erases w₁ w') : Erases w w' := by
  obtain ⟨users, hdesk⟩ := h
  obtain ⟨users', hdesk'⟩ := h'
  refine ⟨users', ?_⟩
  rw [hdesk', hdesk]

theorem registry (h : Erases w w') : w'.registry = w.registry := by
  obtain ⟨users, hdesk⟩ := h
  exact (congrArg Desk.registry hdesk :)

theorem dismissed (h : Erases w w') : Dismissed j w' ↔ Dismissed j w := by
  obtain ⟨users, hdesk⟩ := h
  unfold Dismissed
  rw [show w'.registryTimer = w.registryTimer from congrArg Desk.registryTimer hdesk,
    show w'.registrySlots = w.registrySlots from congrArg Desk.registrySlots hdesk]

theorem recalled (h : Erases w w') : Recalled j w' ↔ Recalled j w := by
  obtain ⟨users, hdesk⟩ := h
  unfold Recalled
  rw [show w'.removeTimer = w.removeTimer from congrArg Desk.removeTimer hdesk,
    show w'.removeSlots = w.removeSlots from congrArg Desk.removeSlots hdesk]

/-- The numbers of the users stay in order when users are erased. -/
theorem sound (h : Erases w w') (hs : Sound w)
    (husers : ∀ j v, w'.users j = some v → w.users j = some v) : Sound w' := by
  have hregistry := h.registry
  obtain ⟨users, hdesk⟩ := h
  have hcfg : w'.cfg = w.cfg := (congrArg Desk.cfg hdesk :)
  have hnext : w'.nextUser = w.nextUser := (congrArg Desk.nextUser hdesk :)
  have hslots : w'.removeSlots = w.removeSlots := (congrArg Desk.removeSlots hdesk :)
  refine ⟨?_, ?_, ?_⟩
  · rw [hnext]
    exact fun j v hv => hs.users j v (husers j v hv)
  · rw [hslots, hnext]
    exact hs.slots
  · rw [hregistry, hcfg]
    exact hs.logins

end Erases

theorem erases_removeUser (u : UserId) (w : World) : Erases w (UserManager.removeUser u w) :=
  ⟨_, desk_removeUser u w⟩

theorem users_removeUser (u : UserId) (w : World) : (UserManager.removeUser u w).users =
    Function.update w.users (w.user u).jid.toBare none := congrArg Desk.users (desk_removeUser u w)

theorem sound_removeUser (h : Sound w) (u : UserId) : Sound (UserManager.removeUser u w) := by
  refine (erases_removeUser u w).sound h fun j v hv => ?_
  rw [users_removeUser] at hv
  by_cases hj : j = (w.user u).jid.toBare
  · rw [hj, Function.update_self] at hv
    cases hv
  · rwa [Function.update_of_ne hj] at hv

/-- The removal of a user whose login is answered, or can be answered by a slot. -/
theorem attended_removeUser (h : Attended w)
    (hkey : w.registry (w.user u).jid.toBare ≠ none →
      Dismissed (w.user u).jid.toBare w ∨ Recalled (w.user u).jid.toBare w) :
    Attended (UserManager.removeUser u w) := by
  have herases := erases_removeUser u w
  refine ⟨sound_removeUser h.sound u, fun j hpending => ?_⟩
  rw [herases.registry] at hpending
  rw [users_removeUser, herases.dismissed, herases.recalled]
  by_cases hj : j = (w.user u).jid.toBare
  · subst hj
    exact .inr (hkey hpending)
  · rw [Function.update_of_ne hj]
    exact h.resolvable j hpending

theorem attended_handleDisconnected (h : Attended w) (error : String) (e : ConnectionError)
    (hkey : w.registry (w.user u).jid.toBare ≠ none →
      (w.user u).ignoreDisconnect = true ∨ User.reconnects (w.user u) e = true ∨
        Dismissed (w.user u).jid.toBare w ∨ Recalled (w.user u).jid.toBare w) :
    Attended (User.handleDisconnected u error e w) := by
  rcases handleDisconnected_cases u error e w with ⟨-, heq⟩ | ⟨-, -, heq⟩ | ⟨hobeys, hlast, heq⟩
  · rw [heq]
    exact h.of_desk (desk_emit w _)
  · rw [heq]
    refine h.of_desk ?_
    rw [desk_reconnect, desk_emit]
  · rw [heq]
    have hdesk : (User.reportError u error (w.emit (.disconnected u))).desk = w.desk := by
      rw [desk_reportError, desk_emit]
    have hjid : ((User.reportError u error (w.emit (.disconnected u))).user u).jid =
        (w.user u).jid := (idle_reportError u error (w.emit (.disconnected u))).quiet.jid u
    simp only [User.giveUp]
    generalize User.reportError u error (w.emit (.disconnected u)) = w₁ at hdesk hjid
    split
    · exact h.of_desk hdesk
    · refine attended_removeUser (h.of_desk hdesk) ?_
      rw [hjid, show w₁.registry = w.registry from congrArg Desk.registry hdesk]
      intro hpending
      have ht : Touches (w.user u).jid.toBare w w₁ := .of_desk hdesk
      rcases hkey hpending with hignores | hreconnects | hdismissed | hrecalled
      · rw [hobeys] at hignores
        cases hignores
      · rw [hlast] at hreconnects
        cases hreconnects
      · exact .inl (hdismissed.touches ht)
      · exact .inr (hrecalled.touches ht)

theorem attended_disconnectedPayload (hlink : Link none none w) (h : Attended w) (user : Jid)
    (error : ConnectionError) (message : String) :
    Attended (handleDisconnectedPayload user error message w) := by
  have hinvalid := h.touches (touches_onPasswordInvalid user message)
  have hanswered := registry_onPasswordInvalid (w := w) user message
  have hlink' := hlink.of_same (aside_onPasswordInvalid w user message).quiet.sameLinks
  simp only [handleDisconnectedPayload]
  split
  · exact hinvalid
  · rename_i u hu
    obtain ⟨hjid, hbare, -⟩ := hlink'.keys user u hu
    refine attended_handleDisconnected hinvalid message error fun hpending => ?_
    rw [hjid] at hpending
    exact absurd hanswered hpending

theorem attended_connectedPayload (h : Attended w) (user : Jid) :
    Attended (handleConnectedPayload user w) := by
  unfold handleConnectedPayload
  split
  · exact h
  · rename_i u _
    exact (h.of_desk (desk_setConnected u w)).touches (touches_onPasswordValid user)

theorem attended_unregister (hlink : Link none none w) (h : Attended w) (j : Jid)
    (hcareful : Careful w (.unregister j)) : Attended (UserManager.unregister j w) := by
  have hstorage : Attended
      { w with storage := w.storage.map fun st => Function.update st j none } :=
    ⟨⟨h.sound.users, h.sound.slots, h.sound.logins⟩, h.resolvable⟩
  unfold UserManager.unregister
  dsimp only
  split
  · exact hstorage
  · rename_i u hu
    obtain ⟨hjid, hbare, -⟩ := hlink.keys j u hu
    refine attended_removeUser hstorage ?_
    show w.registry (w.user u).jid.toBare ≠ none → _
    rw [hjid, hbare]
    intro hpending
    refine hcareful hpending ?_
    rw [show w.users j = some u from hu]
    exact Option.some_ne_none u

end Removals

/-! ## Backends that end -/

section Backends

variable {w : World}

theorem SparesUsers.of_others {us : List UserId} {z : Option UserId} {w' : World}
    (h : SparesUsers us w) (ho : Others z w w') (hz : ∀ u ∈ us, some u ≠ z)
    (hregistry : w'.registry = w.registry) (hdismissed : ∀ j, Dismissed j w → Dismissed j w')
    (hrecalled : ∀ j, Recalled j w → Recalled j w') : SparesUsers us w' := by
  intro u hu
  have hcore := ho.user u (hz u hu)
  have hjid : (w'.user u).jid = (w.user u).jid := (congrArg User.jid hcore :)
  have hcounter : (w'.user u).reconnectCounter = (w.user u).reconnectCounter :=
    (congrArg User.reconnectCounter hcore :)
  have hlimit : (w'.user u).reconnectLimit = (w.user u).reconnectLimit :=
    (congrArg User.reconnectLimit hcore :)
  have hreconnects : User.reconnects (w'.user u) .otherError =
      User.reconnects (w.user u) .otherError := by
    unfold User.reconnects
    rw [hcounter, hlimit]
  rw [hjid, hregistry, ho.ignoreDisconnect (hz u hu), hreconnects]
  intro hpending
  exact (h u hu hpending).imp_right (Or.imp_right (Or.imp (hdismissed _) (hrecalled _)))

theorem erases_handleDisconnected (u : UserId) (error : String) (e : ConnectionError) (w : World) :
    Erases w (User.handleDisconnected u error e w) := by
  rcases handleDisconnected_cases u error e w with ⟨-, heq⟩ | ⟨-, -, heq⟩ | ⟨-, -, heq⟩
  · rw [heq]
    exact .of_desk (desk_emit w _)
  · rw [heq]
    refine .of_desk ?_
    rw [desk_reconnect, desk_emit]
  · rw [heq]
    have hreport : Erases w (User.reportError u error (w.emit (.disconnected u))) := by
      refine .of_desk ?_
      rw [desk_reportError, desk_emit]
    simp only [User.giveUp]
    split
    · exact hreport
    · exact hreport.trans (erases_removeUser u _)

/-- One round of the loop of `handleSessionFinished`. -/
theorem attended_dropUser {x : Option BackendId} {u : UserId} {us : List UserId} (hnot : u ∉ us)
    (hlink : Link x none w) (hu : Pending x u w) (h : Attended w)
    (hspares : SparesUsers (u :: us) w) :
    Attended (dropUser w u) ∧ SparesUsers us (dropUser w u) := by
  have hbare := hlink.toBare_jid hu.managed
  have herases : Erases w (dropUser w u) :=
    (Erases.of_desk (desk_setData u w none)).trans (erases_handleDisconnected u _ _ _)
  constructor
  · refine attended_handleDisconnected (h.of_desk (desk_setData u w none)) _ _ ?_
    have hone := hspares u List.mem_cons_self
    have hjid : ((w.setData u none).user u).jid.toBare = (w.user u).jid := by
      simpa [World.setData, modUser] using hbare
    have hignore : ((w.setData u none).user u).ignoreDisconnect = (w.user u).ignoreDisconnect := by
      simp [World.setData, modUser]
    have hreconnects : User.reconnects ((w.setData u none).user u) .otherError =
        User.reconnects (w.user u) .otherError := by
      simp [World.setData, modUser, User.reconnects]
    rw [hjid, hignore, hreconnects]
    exact hone
  · have hrest : SparesUsers us w := fun v hv => hspares v (List.mem_cons_of_mem u hv)
    refine hrest.of_others (others_dropUser hlink hu) ?_ herases.registry
      (fun _ => herases.dismissed.mpr) fun _ => herases.recalled.mpr
    intro v hv heq
    cases heq
    exact hnot hv

theorem attended_finished (hlink : Link none none w) (h : Attended w) (b : BackendId)
    (hspares : Spares b w) : Attended (handleSessionFinished b w) := by
  by_cases hb : b ∈ w.clients
  · have hcrash : SameLinks (markDying b w) (noteCrash b (markDying b w)) := by
      unfold noteCrash
      split <;> exact .of_links rfl
    have hdesk : (noteCrash b (markDying b w)).desk = w.desk := by
      unfold noteCrash
      split <;> rfl
    have hstart : SparesUsers (w.backends b).users (noteCrash b (markDying b w)) := by
      unfold noteCrash
      split <;> exact hspares
    obtain ⟨-, hloop, -⟩ := dropUsers_induction (I := fun us w => Attended w ∧ SparesUsers us w)
      (fun u us w hnot hlink hu _ h => attended_dropUser hnot hlink hu h.1 h.2)
      (hlink.users_nodup b hb (by simp)) ((hlink.markDying b).of_same hcrash)
      (fun v hv => (pending_markDying hlink hb v hv).of_same hcrash) ⟨h.of_desk hdesk, hstart⟩
    rw [handleSessionFinished_eq hb]
    exact hloop.of_desk (desk_send _ b .exit)
  · unfold handleSessionFinished
    rw [if_pos hb]
    exact h.of_desk rfl

theorem attended_finishAll {bs : List BackendId} (hlink : Link none none w) (h : Attended w)
    (hspares : SparesAll bs w) :
    Attended (bs.foldl (fun w b => handleSessionFinished b w) w) := by
  induction bs generalizing w with
  | nil => exact h
  | cons b bs ih =>
    exact ih (hlink.finished b) (attended_finished hlink h b hspares.1) hspares.2

theorem attended_pingTimeout (hlink : Link none none w) (h : Attended w)
    (hcareful : Careful w .pingTimeout) : Attended (NetworkPluginServer.pingTimeout w) := by
  have hmoved := h.of_desk (desk_moveIdleUsers w)
  have hstart : Link none none { moveIdleUsers w with startingBackend := false } :=
    hlink.moveIdleUsers.of_same (.of_links rfl)
  refine attended_finishAll (hstart.checkBackends _) (hmoved.of_desk ?_) hcareful
  rw [desk_checkBackends]
  rfl

end Backends

end Spectrum
