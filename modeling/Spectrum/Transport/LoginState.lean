import Spectrum.Transport.Frontend

/-!
# The state of the pending logins

What decides whether a pending login of server mode will be answered: the map of the users, the
user database, the registry and the slots of the two removal timers. What users and backends do
among themselves does not touch it.
-/

namespace Spectrum

open World NetworkPluginServer

structure Desk where
  cfg : Config
  users : Jid → Option UserId
  nextUser : UserId
  removeSlots : List RemoveSlot
  removeTimer : Bool
  storage : Option (Jid → Option UserInfo)
  registry : Jid → Option Sess
  registrySlots : List Jid
  registryTimer : Bool

def World.desk (w : World) : Desk where
  cfg := w.cfg
  users := w.users
  nextUser := w.nextUser
  removeSlots := w.removeSlots
  removeTimer := w.removeTimer
  storage := w.storage
  registry := w.registry
  registrySlots := w.registrySlots
  registryTimer := w.registryTimer

/-! ## Repeated operations -/

theorem desk_iterate {f : World → World} (hf : ∀ w, (f w).desk = w.desk) (n : Nat) (w : World) :
    (f^[n] w).desk = w.desk := by
  induction n generalizing w with
  | zero => rfl
  | succ n ih => exact (ih (f w)).trans (hf w)

theorem desk_foldl {α : Type} {f : World → α → World} (hf : ∀ w a, (f w a).desk = w.desk)
    (l : List α) (w : World) : (l.foldl f w).desk = w.desk := by
  induction l generalizing w with
  | nil => rfl
  | cons a l ih => exact (ih (f w a)).trans (hf w a)

/-! ## Backends -/

section Backends

variable (u : UserId) (w : World)

@[simp] theorem desk_emit (e : Effect) : (w.emit e).desk = w.desk := rfl

@[simp] theorem desk_modUser (f : User → User) : (w.modUser u f).desk = w.desk := rfl

@[simp] theorem desk_modBackend (b : BackendId) (f : Backend → Backend) :
    (w.modBackend b f).desk = w.desk := rfl

@[simp] theorem desk_setData (d : Option BackendId) : (w.setData u d).desk = w.desk := rfl

@[simp] theorem desk_send (b : BackendId) (m : ToBackend) : (send b m w).desk = w.desk := by
  unfold send
  split <;> rfl

@[simp] theorem desk_sendToBackendOf (m : ToBackend) : (sendToBackendOf u m w).desk = w.desk := by
  unfold sendToBackendOf
  split
  · rfl
  · exact desk_send w _ m

@[simp] theorem desk_handleUserReadyToConnect : (handleUserReadyToConnect u w).desk = w.desk := by
  simp only [handleUserReadyToConnect]
  split <;> simp

@[simp] theorem desk_getFreeClient (acceptUsers longRun check : Bool) :
    (getFreeClient acceptUsers longRun check w).2.desk = w.desk := by
  unfold getFreeClient
  split
  · rfl
  · have hdelay : ∀ w' : World, w' = (if check then w else { w with lastLogin := w.now }) →
        w'.desk = w.desk := by
      rintro w' rfl
      split <;> rfl
    generalize hw : (if check then w else { w with lastLogin := w.now }) = w'
    rw [← hdelay w' hw.symm]
    dsimp only
    split
    · unfold closeIfFull
      split <;> rfl
    · unfold spawn
      split <;> rfl

@[simp] theorem desk_attach (how : Assignment) (c : BackendId) :
    (attach how u c w).desk = w.desk := rfl

@[simp] theorem desk_handleUserCreated : (handleUserCreated u w).desk = w.desk := by
  have hfree := desk_getFreeClient w true false false
  unfold handleUserCreated
  split
  · rename_i heq
    rw [heq] at hfree
    exact hfree
  · rename_i heq
    rw [heq] at hfree
    rw [desk_modUser, desk_attach]
    exact hfree

@[simp] theorem desk_dieIfEmpty (c : BackendId) : (dieIfEmpty c w).desk = w.desk := by
  unfold dieIfEmpty
  split <;> rfl

@[simp] theorem desk_removeFrom (c : BackendId) : (removeFrom u c w).desk = w.desk := rfl

@[simp] theorem desk_handleUserDestroyed : (handleUserDestroyed u w).desk = w.desk := by
  simp only [handleUserDestroyed]
  split
  · rfl
  · simp only [desk_dieIfEmpty, desk_removeFrom, desk_send]
    rfl

theorem desk_drain (n : Nat) : (drain n w).desk = w.desk := by
  induction n generalizing w with
  | zero => rfl
  | succ n ih =>
    have hfree := desk_getFreeClient w true false true
    unfold drain
    split
    · rfl
    · split
      · rename_i heq
        rw [heq] at hfree
        exact hfree
      · rename_i w' heq
        rw [heq] at hfree
        rw [ih]
        split
        · rw [desk_handleUserReadyToConnect, desk_handleUserCreated]
          exact hfree
        · rw [desk_handleUserCreated]
          exact hfree

@[simp] theorem desk_connectWaitingUsers : (connectWaitingUsers w).desk = w.desk :=
  desk_drain (w.emit .connectWaitingUsers) w.waitingUsers.length

@[simp] theorem desk_sendPing (b : BackendId) : (sendPing b w).desk = w.desk := by
  unfold sendPing
  split <;> simp

@[simp] theorem desk_handlePongReceived (b : BackendId) :
    (handlePongReceived b w).desk = w.desk := by
  have hstart : ∀ w : World, (startComponent w).desk = w.desk := by
    intro w
    unfold startComponent
    split <;> rfl
  simp only [handlePongReceived]
  split <;> simp [hstart]

@[simp] theorem desk_noteData (b : BackendId) : (noteData b w).desk = w.desk := by
  unfold noteData
  split <;> rfl

@[simp] theorem desk_collectBackend : (collectBackend w).desk = w.desk := by
  unfold collectBackend
  split <;> rfl

theorem desk_moveToLongRunBackend : (moveToLongRunBackend u w).2.desk = w.desk := by
  have hfree := desk_getFreeClient w false true false
  unfold moveToLongRunBackend
  split
  · rfl
  · split
    · rfl
    · split
      · rfl
      · split
        · rename_i heq
          rw [heq] at hfree
          exact hfree
        · rename_i heq
          rw [heq] at hfree
          simp only [desk_handleUserReadyToConnect, desk_attach, desk_removeFrom, desk_modUser]
          exact hfree

@[simp] theorem desk_moveIdleUsers : (moveIdleUsers w).desk = w.desk := by
  have hmove : ∀ (us : List UserId) (w : World), (moveUsers us w).desk = w.desk := by
    intro us
    induction us with
    | nil => exact fun _ => rfl
    | cons u us ih =>
      intro w
      have hone := desk_moveToLongRunBackend u w
      unfold moveUsers
      split
      · rename_i heq
        rw [heq] at hone
        rw [ih]
        exact hone
      · rename_i heq
        rw [heq] at hone
        exact hone
  unfold moveIdleUsers
  split
  · rfl
  · exact hmove _ w

theorem desk_checkBackends (bs : List BackendId) : (checkBackends bs w).2.desk = w.desk := by
  induction bs generalizing w with
  | nil => rfl
  | cons b bs ih =>
    simp only [checkBackends]
    rw [ih]
    split
    · rfl
    · exact desk_sendPing w b

end Backends

/-! ## Users -/

section Users

variable (u : UserId) (w : World)

@[simp] theorem desk_onReadyToConnect : (User.onReadyToConnect u w).desk = w.desk :=
  desk_iterate (desk_handleUserReadyToConnect u) _ w

@[simp] theorem desk_onPresenceChanged (p : Presence) :
    (User.onPresenceChanged u p w).desk = w.desk := by
  refine (desk_iterate (fun w => ?_) _ _).trans (desk_emit w _)
  unfold handleUserPresenceChanged
  split
  · rfl
  · exact desk_sendToBackendOf u w _

@[simp] theorem desk_onRoomJoined (room nickname password : String) :
    (User.onRoomJoined u room nickname password w).desk = w.desk :=
  desk_iterate (fun w => desk_sendToBackendOf u w _) _ w

@[simp] theorem desk_onRoomLeft (room : String) : (User.onRoomLeft u room w).desk = w.desk :=
  desk_iterate (fun w => desk_sendToBackendOf u w _) _ w

@[simp] theorem desk_setReady : (User.setReady u w).desk = w.desk := by
  simp [User.setReady]

@[simp] theorem desk_onConnectingTimeout : (User.onConnectingTimeout u w).desk = w.desk := by
  simp only [User.onConnectingTimeout]
  split
  · rfl
  · split <;> simp

@[simp] theorem desk_handleDiscoInfo (j : Jid) :
    (UserManager.handleDiscoInfo j w).desk = w.desk := by
  unfold UserManager.handleDiscoInfo
  split
  · rfl
  · exact desk_onConnectingTimeout _ w

@[simp] theorem desk_sendCapabilitiesRequest (j : Jid) :
    (sendCapabilitiesRequest j w).2.desk = w.desk := by
  unfold sendCapabilitiesRequest
  split
  · exact desk_handleDiscoInfo w j
  · rfl

@[simp] theorem desk_checkReady (p : Presence) : (User.checkReady p u w).desk = w.desk := by
  have hcaps := desk_sendCapabilitiesRequest w p.fromJid
  unfold User.checkReady
  split
  · rfl
  · split
    · split
      · rename_i heq
        rw [heq] at hcaps
        rw [desk_setReady]
        exact hcaps
      · rename_i heq
        rw [heq] at hcaps
        exact hcaps
    · split
      · exact desk_setReady u w
      · rfl

@[simp] theorem desk_modConvs (f : Conversations → Conversations) :
    (User.modConvs u f w).desk = w.desk := rfl

@[simp] theorem desk_leaveRoom (room : String) : (User.leaveRoom u room w).desk = w.desk := by
  simp only [User.leaveRoom]
  split <;> simp

@[simp] theorem desk_leaveContact (p : Presence) : (User.leaveContact p u w).desk = w.desk := by
  simp only [User.leaveContact]
  split
  · rfl
  · split
    · rfl
    · split <;> simp

@[simp] theorem desk_joinRoom (p : Presence) (forceJoin : Bool) :
    (User.joinRoom p forceJoin u w).desk = w.desk := by
  have hready : (if (w.user u).readyForConnect then w else User.setReady u w).desk = w.desk := by
    split <;> simp
  unfold User.joinRoom
  dsimp only
  generalize (if (w.user u).readyForConnect then w else User.setReady u w) = w₁ at hready
  rw [← hready]
  split
  · split <;> split <;> simp
  · split <;> split <;> simp

@[simp] theorem desk_removeJid (j : Jid) : (User.removeJid j u w).desk = w.desk := by
  simp only [User.removeJid]
  split
  · rfl
  · exact desk_foldl (fun w room => desk_leaveRoom u w room) _ _

@[simp] theorem desk_changeLegacyPresence : (User.changeLegacyPresence u w).desk = w.desk := by
  unfold User.changeLegacyPresence
  split
  · rfl
  · split
    · split
      · rfl
      · simp
    · split
      · rfl
      · simp

@[simp] theorem desk_userPresence (p : Presence) (forceJoin : Bool) :
    (User.handlePresence p forceJoin u w).desk = w.desk := by
  simp only [User.handlePresence]
  split
  · simp
  · split
    · simp
    · simp only [User.handleTransportPresence]
      split <;> simp

@[simp] theorem desk_setConnected : (User.setConnected u w).desk = w.desk := by
  simp only [User.setConnected]
  exact desk_foldl (fun w p => desk_userPresence u w p true) _ _

@[simp] theorem desk_finishSession (j : Jid) : (finishSession j w).desk = w.desk :=
  desk_foldl (f := fun w s => finish s w) (fun _ _ => rfl) _ _

@[simp] theorem desk_callSession (s : SessionId) (f : Session → Session × List Session.Output) :
    (UserRegistry.callSession s f w).desk = w.desk := by
  unfold UserRegistry.callSession
  split <;> rfl

@[simp] theorem desk_deleteUser : (UserManager.deleteUser u w).desk = w.desk := by
  simp only [UserManager.deleteUser]
  split <;> simp

@[simp] theorem desk_reconnect : (User.reconnect u w).desk = w.desk := by
  simp [User.reconnect]

@[simp] theorem desk_reportError (error : String) : (User.reportError u error w).desk = w.desk := by
  simp only [User.reportError]
  split <;> simp

end Users

/-! ## What a presence touches -/

/-- The numbers of users are new when they are given out, and no login of an administrator is
pending. -/
structure Sound (w : World) : Prop where
  users : ∀ j u, w.users j = some u → u < w.nextUser
  slots : ∀ slot ∈ w.removeSlots, slot.user < w.nextUser
  logins : ∀ j, w.registry j ≠ none → j ∉ w.cfg.adminJids

/-- The operation concerns one bare JID: it may create the user of the JID, answer its login and
arm its removal. -/
structure Touches (key : Jid) (w w' : World) : Prop where
  cfg : w'.cfg = w.cfg
  users : ∀ j, j ≠ key → w'.users j = w.users j
  kept : w.users key ≠ none → w'.users key = w.users key
  fresh : w.users key = none → ∀ u, w'.users key = some u → w.nextUser ≤ u
  nextUser : w.nextUser ≤ w'.nextUser
  registry : ∀ j, j ≠ key → w'.registry j = w.registry j
  answered : w'.registry key = w.registry key ∨ w'.registry key = none
  stored : ∀ j, j ≠ key → UserManager.stored j w' = UserManager.stored j w
  removeSlots : w.removeSlots ⊆ w'.removeSlots
  removeTimer : w.removeTimer = true → w'.removeTimer = true
  registrySlots : w'.registrySlots = w.registrySlots
  registryTimer : w'.registryTimer = w.registryTimer
  sound : Sound w → Sound w'

namespace Touches

variable {key : Jid} {w w₁ w' : World}

theorem of_desk (h : w'.desk = w.desk) : Touches key w w' := by
  have hcfg : w'.cfg = w.cfg := congrArg Desk.cfg h
  have husers : w'.users = w.users := congrArg Desk.users h
  have hnext : w'.nextUser = w.nextUser := congrArg Desk.nextUser h
  have hslots : w'.removeSlots = w.removeSlots := congrArg Desk.removeSlots h
  have htimer : w'.removeTimer = w.removeTimer := congrArg Desk.removeTimer h
  have hstorage : w'.storage = w.storage := congrArg Desk.storage h
  have hregistry : w'.registry = w.registry := congrArg Desk.registry h
  refine ⟨hcfg, fun j _ => by rw [husers], fun _ => by rw [husers], ?_, hnext.ge,
    fun j _ => by rw [hregistry], .inl (by rw [hregistry]), ?_, ?_, ?_,
    congrArg Desk.registrySlots h, congrArg Desk.registryTimer h, ?_⟩
  · intro hnone u hu
    rw [husers, hnone] at hu
    cases hu
  · intro j _
    unfold UserManager.stored
    rw [hstorage]
  · rw [hslots]
    exact fun _ h => h
  · rw [htimer]
    exact id
  · rintro ⟨hu, hs, hl⟩
    refine ⟨?_, ?_, ?_⟩
    · rw [husers, hnext]
      exact hu
    · rw [hslots, hnext]
      exact hs
    · rw [hregistry, hcfg]
      exact hl

theorem refl (w : World) : Touches key w w := of_desk rfl

theorem trans (h : Touches key w w₁) (h' : Touches key w₁ w') : Touches key w w' where
  cfg := h'.cfg.trans h.cfg
  users := fun j hj => (h'.users j hj).trans (h.users j hj)
  kept := by
    intro hsome
    have hfirst := h.kept hsome
    rw [← hfirst] at hsome
    exact (h'.kept hsome).trans hfirst
  fresh := by
    intro hnone u hu
    cases hfirst : w₁.users key with
    | none => exact le_trans h.nextUser (h'.fresh hfirst u hu)
    | some v =>
      rw [h'.kept (by rw [hfirst]; exact Option.some_ne_none v)] at hu
      exact h.fresh hnone u hu
  nextUser := le_trans h.nextUser h'.nextUser
  registry := fun j hj => (h'.registry j hj).trans (h.registry j hj)
  answered := by
    rcases h'.answered with heq | hnone
    · rw [heq]
      exact h.answered
    · exact .inr hnone
  stored := fun j hj => (h'.stored j hj).trans (h.stored j hj)
  removeSlots := fun _ hs => h'.removeSlots (h.removeSlots hs)
  removeTimer := fun ht => h'.removeTimer (h.removeTimer ht)
  registrySlots := h'.registrySlots.trans h.registrySlots
  registryTimer := h'.registryTimer.trans h.registryTimer
  sound := fun hs => h'.sound (h.sound hs)

/-- A login that is not pending does not become pending. -/
theorem registry_none (h : Touches key w w') {j : Jid} (hnone : w.registry j = none) :
    w'.registry j = none := by
  by_cases hj : j = key
  · subst hj
    rcases h.answered with heq | hnone'
    · rw [heq, hnone]
    · exact hnone'
  · rw [h.registry j hj, hnone]

theorem users_some (h : Touches key w w') {j : Jid} (hsome : w.users j ≠ none) :
    w'.users j ≠ none := by
  by_cases hj : j = key
  · subst hj
    rw [h.kept hsome]
    exact hsome
  · rw [h.users j hj]
    exact hsome

end Touches

section Presences

variable {w : World}

/-- A login of the JID is answered. -/
theorem touches_erase (key : Jid) : Touches key w (UserRegistry.setEntry key none w) := by
  refine ⟨rfl, fun _ _ => rfl, fun _ => rfl, ?_, le_refl _, ?_, .inr ?_, fun _ _ => rfl,
    fun _ h => h, id, rfl, rfl, ?_⟩
  · intro hnone u hu
    rw [show w.users key = some u from hu] at hnone
    cases hnone
  · intro j hj
    simp [UserRegistry.setEntry, hj]
  · simp [UserRegistry.setEntry]
  · rintro ⟨hu, hs, hl⟩
    refine ⟨hu, hs, fun j hj => hl j fun hnone => hj ?_⟩
    by_cases hkey : j = key
    · simp [UserRegistry.setEntry, hkey]
    · simpa [UserRegistry.setEntry, hkey] using hnone

theorem touches_onPasswordInvalid (user : Jid) (error : String) :
    Touches user.toBare w (UserRegistry.onPasswordInvalid user error w) := by
  unfold UserRegistry.onPasswordInvalid
  split
  · exact .refl w
  · exact (Touches.of_desk (desk_callSession w _ _)).trans (touches_erase user.toBare)

theorem touches_onPasswordValid (user : Jid) :
    Touches user.toBare w (UserRegistry.onPasswordValid user w) := by
  unfold UserRegistry.onPasswordValid
  split
  · exact .refl w
  · refine (Touches.of_desk ?_).trans (touches_erase user.toBare)
    rw [desk_callSession, desk_emit]

/-- After an answer nothing is pending. -/
theorem registry_onPasswordInvalid (user : Jid) (error : String) :
    (UserRegistry.onPasswordInvalid user error w).registry user.toBare = none := by
  unfold UserRegistry.onPasswordInvalid
  split
  · assumption
  · simp [UserRegistry.setEntry]

theorem registry_onPasswordValid (user : Jid) :
    (UserRegistry.onPasswordValid user w).registry user.toBare = none := by
  unfold UserRegistry.onPasswordValid
  split
  · assumption
  · simp [UserRegistry.setEntry]

theorem touches_register {key : Jid} {info : UserInfo} (hkey : info.jid = key) :
    Touches key w (UserManager.register info w) := by
  subst hkey
  unfold UserManager.register
  split
  · exact .refl w
  · rename_i st hst
    refine ⟨rfl, fun _ _ => rfl, fun _ => rfl, ?_, le_refl _, fun _ _ => rfl, .inl rfl, ?_,
      fun _ h => h, id, rfl, rfl, fun h => ⟨h.users, h.slots, h.logins⟩⟩
    · intro hnone u hu
      rw [show w.users info.jid = some u from hu] at hnone
      cases hnone
    · intro j hj
      simp [UserManager.stored, hst, hj]

theorem touches_identifyServer (p : Presence) :
    Touches p.fromJid.toBare w (UserManager.identifyServer p w).2 := by
  unfold UserManager.identifyServer
  dsimp only
  split
  · exact .refl w
  · split
    · exact touches_onPasswordInvalid p.fromJid ""
    · exact touches_register rfl

theorem touches_identifyGateway (p : Presence) :
    Touches p.fromJid.toBare w (UserManager.identifyGateway p w).2 := by
  unfold UserManager.identifyGateway
  dsimp only
  split
  · exact .refl w
  · split
    · exact touches_register rfl
    · exact .refl w

theorem touches_refuse (p : Presence) : Touches p.fromJid.toBare w (UserManager.refuse p w) := by
  simp only [UserManager.refuse]
  split
  · split
    · exact touches_onPasswordInvalid p.fromJid ""
    · exact .refl w
  · split
    · exact (Touches.of_desk (desk_emit w _)).trans (touches_onPasswordInvalid p.fromJid "")
    · exact .of_desk (desk_emit w _)

theorem touches_admission (p : Presence) :
    Touches p.fromJid.toBare w (UserManager.admission p w).2 := by
  have hidentify : Touches p.fromJid.toBare w (UserManager.identify p w).2 := by
    unfold UserManager.identify
    split
    · exact touches_identifyServer p
    · exact touches_identifyGateway p
  unfold UserManager.admission
  split
  · exact .refl w
  · split
    · exact .refl w
    · split
      · rename_i heq
        rw [heq] at hidentify
        exact hidentify
      · rename_i heq
        rw [heq] at hidentify
        split
        · exact hidentify.trans (touches_refuse p)
        · split <;> exact hidentify

theorem touches_addUser (j : Jid) (info : UserInfo) (hnone : w.users j.toBare = none) :
    Touches j.toBare w (UserManager.addUser j info w) := by
  have hnew : Touches j.toBare w { w with
      nextUser := w.nextUser + 1
      users := Function.update w.users j.toBare (some w.nextUser)
      user := Function.update w.user w.nextUser
        { jid := j.toBare, info := info, reconnectLimit := w.cfg.reconnectLimit,
          lastActivity := w.now } } := by
    refine ⟨rfl, fun i hi => Function.update_of_ne hi _ _, fun hsome => absurd hnone hsome, ?_,
      Nat.le_succ _, fun _ _ => rfl, .inl rfl, fun _ _ => rfl, fun _ h => h, id, rfl, rfl, ?_⟩
    · intro _ u hu
      have heq : some w.nextUser = some u := by simpa using hu
      exact (Option.some.inj heq).le
    · rintro ⟨hu, hs, hl⟩
      refine ⟨?_, fun slot hslot => Nat.lt_succ_of_lt (hs slot hslot), hl⟩
      intro i u hi
      by_cases hij : i = j.toBare
      · subst hij
        have heq : some w.nextUser = some u := by simpa using hi
        exact (Option.some.inj heq) ▸ Nat.lt_succ_self w.nextUser
      · have hold : w.users i = some u := by simpa [Function.update_of_ne hij] using hi
        exact Nat.lt_succ_of_lt (hu i u hold)
  exact hnew.trans (.of_desk (desk_handleUserCreated _ _))

theorem touches_addSlot {key : Jid} {slot : RemoveSlot} {j : Jid}
    (hu : w.users j = some slot.user) :
    Touches key w (UserManager.addSlot slot w) := by
  refine ⟨rfl, fun _ _ => rfl, fun _ => rfl, ?_, le_refl _, fun _ _ => rfl, .inl rfl,
    fun _ _ => rfl, fun _ h => List.mem_append_left _ h, fun _ => rfl, rfl, rfl, ?_⟩
  · intro hnone u hu
    rw [show w.users key = some u from hu] at hnone
    cases hnone
  · intro h
    refine ⟨h.users, ?_, h.logins⟩
    intro slot' hslot'
    rcases List.mem_append.mp hslot' with hslot' | hslot'
    · exact h.slots slot' hslot'
    · rw [List.mem_singleton.mp hslot']
      exact h.users j _ hu

theorem touches_deliver (p : Presence) :
    Touches p.fromJid.toBare w (UserManager.deliver p w) := by
  unfold UserManager.deliver
  split
  · exact touches_onPasswordInvalid p.fromJid ""
  · rename_i u hu
    have hdesk := desk_userPresence u w p false
    refine (Touches.of_desk hdesk).trans ?_
    have hu' : (User.handlePresence p false u w).users p.fromJid.toBare = some u :=
      (congrFun (congrArg Desk.users hdesk) _).trans hu
    unfold UserManager.checkUnavailable
    split
    · exact .refl _
    · split
      · exact touches_addSlot hu'
      · split
        · exact touches_addSlot hu'
        · exact .refl _

theorem touches_userManager (p : Presence) :
    Touches p.fromJid.toBare w (UserManager.handlePresence p w) := by
  have hadmission := touches_admission (w := w) p
  unfold UserManager.handlePresence
  split
  · exact touches_deliver p
  · rename_i hnone
    split
    · rename_i heq
      rw [heq] at hadmission
      exact hadmission
    · rename_i w' heq
      have husers : (UserManager.admission p w).2.users = w.users :=
        congrArg Core.users (aside_admission w p).core
      rw [heq] at hadmission husers
      refine hadmission.trans ((touches_addUser p.fromJid _ ?_).trans (touches_deliver p))
      rw [husers, hnone]

theorem touches_component (p : Presence) :
    Touches p.fromJid.toBare w (Component.handlePresence p w) := by
  unfold Component.handlePresence
  split
  · exact .refl w
  · split
    · exact .refl w
    · exact .refl w
    · exact .refl w
    · exact .refl w
    · exact .refl w
    · exact touches_userManager p
    · exact (Touches.of_desk (desk_sendCapabilitiesRequest w _)).trans (touches_userManager p)
    · exact (Touches.of_desk (desk_sendCapabilitiesRequest w _)).trans (touches_userManager p)

theorem touches_general (p : Presence) :
    Touches p.fromJid.toBare w (UserManager.handleGeneralPresenceReceived p w) := by
  unfold UserManager.handleGeneralPresenceReceived UserManager.handleMUCPresence
  split
  · split
    · exact .refl w
    · split
      · exact touches_userManager p
      · split
        · exact .refl w
        · exact .of_desk (desk_userPresence _ w p false)
  · exact .refl w

/-- The oracle passes presences of the same bare JID on. -/
theorem passed_toBare {o : Oracle} {p passed : Presence}
    (h : (o.handleIncomingPresence p).2 = some passed) :
    passed.fromJid.toBare = p.fromJid.toBare := by
  unfold Oracle.handleIncomingPresence at h
  split at h
  · cases h
  · split at h
    · cases h
    · cases h
      split <;> rfl

theorem touches_presenceReceived (p : Presence) :
    Touches p.fromJid.toBare w (presenceReceived p w) := by
  have horacle : Touches p.fromJid.toBare w
      { w with oracle := (w.oracle.handleIncomingPresence p).1 } := .of_desk rfl
  simp only [presenceReceived]
  refine Touches.trans ?_ (touches_general p)
  split
  · exact horacle
  · rename_i passed hpassed
    have hcomponent := touches_component (w := { w with
      oracle := (w.oracle.handleIncomingPresence p).1 }) passed
    rw [passed_toBare hpassed] at hcomponent
    exact horacle.trans hcomponent

end Presences

/-! ## Removals -/

/-- The removal of a user only erases him from the map. -/
theorem desk_removeUser (u : UserId) (w : World) : (UserManager.removeUser u w).desk =
    { w.desk with users := Function.update w.users (w.user u).jid.toBare none } := by
  unfold UserManager.removeUser UserManager.disconnectUser
  dsimp only
  rw [desk_deleteUser, desk_handleUserDestroyed]
  split
  · rw [presenceReceived_of_none]
    · rfl
    · rfl
    · exact Function.update_self ..
  · rfl

end Spectrum
