import Spectrum.Transport.Still

/-!
# The callbacks of the frontend as steps

Seen from the LOGINs, a callback of the frontend is a sequence of four kinds of operations
(`Dial`): one that sends neither a LOGIN nor a LOGOUT and assigns nobody (`Still`), the
readiness of a user who was not ready, the creation and the removal of a user.

There is one exception. `User::handlePresence` asks the frontend for the capabilities of the
sender, and if they are known the frontend announces them at once: the user becomes ready in
the middle of the request, and once more after it. `doubles` is the condition for that.
-/

namespace Spectrum

open World NetworkPluginServer

/-! ## Sequences of operations -/

inductive Dial : World → World → Prop
  | still {w w' : World} (h : Still w w') : Dial w w'
  | ready {w : World} {u : UserId} {j : Jid} (hu : w.users j = some u)
      (hready : (w.user u).readyForConnect = false) : Dial w (User.setReady u w)
  | create {w : World} (j : Jid) (info : UserInfo) (h : w.users j.toBare = none) :
      Dial w (UserManager.addUser j info w)
  | remove {w : World} {u : UserId} {j : Jid} (hu : w.users j = some u) :
      Dial w (UserManager.removeUser u w)
  | learn {w : World} (caps : Jid → Bool) : Dial w { w with caps := caps }
  | trans {w w₁ w₂ : World} (h : Dial w w₁) (h' : Dial w₁ w₂) : Dial w w₂

theorem Dial.refl (w : World) : Dial w w := .still (.refl w)

theorem Dial.foldl {α : Type} {f : World → α → World} (hf : ∀ w a, Dial w (f w a)) (l : List α)
    (w : World) : Dial w (l.foldl f w) := by
  induction l generalizing w with
  | nil => exact .refl w
  | cons a l ih => exact .trans (hf w a) (ih (f w a))

/-- The frontend does not announce the capabilities of the sender while they are asked for, or
the user does not become ready by it. -/
def SingleAnswer (p : Presence) (u : UserId) (w : World) : Prop :=
  p.capsHash = some "sha-1" → w.caps p.fromJid = true →
    (w.user u).connected = true ∨ (w.user u).readyForConnect = true ∨ (w.user u).slots = 0

section User

variable {u : UserId} {j : Jid} {w : World}

theorem dial_onConnectingTimeout (hu : w.users j = some u) :
    Dial w (User.onConnectingTimeout u w) := by
  unfold User.onConnectingTimeout
  split
  · exact .refl w
  · rename_i hguard
    have hready : (w.user u).readyForConnect = false := by
      cases h : (w.user u).readyForConnect with
      | false => rfl
      | true => simp [h] at hguard
    have hstop : Still w (w.modUser u fun x => { x with reconnectTimer := false }) :=
      Still.modUser u fun _ => rfl
    have hdial : Dial w
        (User.setReady u (w.modUser u fun x => { x with reconnectTimer := false })) :=
      .trans (.still hstop) (.ready (j := j) (by rw [hstop.users]; exact hu)
        (by rw [hstop.ready]; exact hready))
    dsimp only
    split
    · exact hdial
    · exact .trans hdial (.still (still_onPresenceChanged u _ _))

theorem dial_handleDiscoInfo (j : Jid) : Dial w (UserManager.handleDiscoInfo j w) := by
  unfold UserManager.handleDiscoInfo
  split
  · exact .refl w
  · rename_i v hv
    exact dial_onConnectingTimeout hv

theorem dial_sendCapabilitiesRequest (j : Jid) : Dial w (sendCapabilitiesRequest j w).2 := by
  unfold sendCapabilitiesRequest
  split
  · exact dial_handleDiscoInfo j
  · exact .refl w

/-- The request for the capabilities leaves the map of users and their handlers alone. -/
theorem quiet_sendCapabilitiesRequest (j : Jid) (w : World) :
    Quiet Effect.Tame w (sendCapabilitiesRequest j w).2 :=
  (chat_sendCapabilitiesRequest (S := fun _ => True) (fun _ _ _ => trivial) j).quiet

theorem sendCapabilitiesRequest_fst (j : Jid) (w : World) :
    (sendCapabilitiesRequest j w).1 = w.caps j := by
  unfold sendCapabilitiesRequest
  cases hcaps : w.caps j with
  | false => rfl
  | true => rfl

/-- A user without handlers becomes ready without a LOGIN, also for the second time. -/
theorem dial_setReady_of_slots (hu : w.users j = some u) (hslots : (w.user u).slots = 0) :
    Dial w (User.setReady u w) := by
  by_cases hready : (w.user u).readyForConnect = true
  · have hmark : Still w (w.modUser u fun x => { x with readyForConnect := true }) := by
      refine ⟨rfl, rfl, fun _ => rfl, fun _ => rfl, rfl, rfl, rfl, fun v => ?_, rfl, .of_eq rfl⟩
      by_cases hv : v = u
      · subst hv
        simp [modUser, User.line, hready]
      · simp [modUser, Function.update_of_ne hv]
    have hsame : User.setReady u w = w.modUser u fun x => { x with readyForConnect := true } := by
      simp [User.setReady, User.onReadyToConnect, hmark.slots u, hslots]
    rw [hsame]
    exact .still hmark
  · exact .ready hu (by simpa using hready)

theorem dial_checkReady (hu : w.users j = some u) {p : Presence} (hp : SingleAnswer p u w) :
    Dial w (User.checkReady p u w) := by
  unfold User.checkReady
  split
  · exact .refl w
  · rename_i hguard
    have hoff : (w.user u).connected = false ∧ (w.user u).readyForConnect = false := by
      simpa using hguard
    split
    · rename_i hhash
      have hdial := dial_sendCapabilitiesRequest (w := w) p.fromJid
      have hquiet := quiet_sendCapabilitiesRequest p.fromJid w
      have hfst := sendCapabilitiesRequest_fst p.fromJid w
      generalize sendCapabilitiesRequest p.fromJid w = r at hdial hquiet hfst
      obtain ⟨known, w₁⟩ := r
      cases known with
      | false => exact .trans hdial (.still (Still.modUser u fun _ => rfl))
      | true =>
        have hslots : (w.user u).slots = 0 := by
          rcases hp hhash hfst.symm with hconn | hready | hslots
          · rw [hoff.1] at hconn
            cases hconn
          · rw [hoff.2] at hready
            cases hready
          · exact hslots
        have hslots₁ : (w₁.user u).slots = (w.user u).slots :=
          (congrArg User.slots (hquiet.user u) :)
        exact .trans hdial (dial_setReady_of_slots (j := j) (by rw [hquiet.users]; exact hu)
          (hslots₁.trans hslots))
    · split
      · exact .ready hu hoff.2
      · exact .still (Still.modUser u fun _ => rfl)

theorem dial_joinRoom (hu : w.users j = some u) (p : Presence) (forceJoin : Bool) :
    Dial w (User.joinRoom p forceJoin u w) := by
  have hfirst : Dial w (if (w.user u).readyForConnect = true then w else User.setReady u w) := by
    split
    · exact .refl w
    · rename_i hready
      exact .ready hu (by simpa using hready)
  simp only [User.joinRoom]
  generalize (if (w.user u).readyForConnect = true then w else User.setReady u w) = w₁ at hfirst
  refine .trans hfirst (.still ?_)
  split
  · rename_i key conv _
    have hadded : Still w₁ (if p.fromJid ∈ conv.jids then w₁
        else User.modConvs u (Conversations.update key (Conversation.addJid p.fromJid)) w₁) := by
      split
      · exact .refl w₁
      · exact still_modConvs u w₁ _
    split
    · exact hadded.trans (still_onRoomJoined u _ _ _ _)
    · exact hadded
  · have hpostponed : Still w₁ (if (w₁.user u).joinedRooms.any
        (fun q => decide (q.toJid = p.toJid)) = true then w₁
        else w₁.modUser u fun x => { x with joinedRooms := x.joinedRooms ++ [p] }) := by
      split
      · exact .refl w₁
      · exact Still.modUser u fun _ => rfl
    generalize (if (w₁.user u).joinedRooms.any (fun q => decide (q.toJid = p.toJid)) = true then w₁
      else w₁.modUser u fun x => { x with joinedRooms := x.joinedRooms ++ [p] }) = w₂ at hpostponed
    split
    · exact hpostponed
    · exact hpostponed.trans ((still_modConvs u _ _).trans (still_onRoomJoined u _ _ _ _))

/-- `checkReady` leaves the map of users alone. -/
theorem quiet_checkReady (p : Presence) (u : UserId) (w : World) :
    Quiet Effect.Tame w (User.checkReady p u w) :=
  (chat_checkReady (S := fun _ => True) trivial (fun _ _ _ => trivial) p).quiet

theorem dial_userPresence (hu : w.users j = some u) {p : Presence} (hp : SingleAnswer p u w)
    (forceJoin : Bool) : Dial w (User.handlePresence p forceJoin u w) := by
  have hu₁ : (User.checkReady p u w).users j = some u := by
    rw [(quiet_checkReady p u w).users]
    exact hu
  simp only [User.handlePresence]
  apply Dial.trans (dial_checkReady hu hp)
  split
  · exact .still (still_leaveContact u _ p)
  · split
    · exact dial_joinRoom hu₁ p forceJoin
    · exact .still (still_handleTransportPresence u _ p)

/-- The rooms are joined again by a user who is connected. -/
theorem dial_rejoin (hu : w.users j = some u) (hconn : (w.user u).connected = true)
    (ps : List Presence) :
    Dial w (ps.foldl (fun w p => User.handlePresence p true u w) w) := by
  induction ps generalizing w with
  | nil => exact .refl w
  | cons p ps ih =>
    have hquiet := (chat_handlePresence (S := fun _ => True) (w := w) (u := u) trivial
      (fun _ _ _ => trivial) p true).quiet
    have hconn₁ : ((User.handlePresence p true u w).user u).connected = (w.user u).connected :=
      (congrArg User.connected (hquiet.user u) :)
    rw [List.foldl_cons]
    refine .trans (dial_userPresence hu (fun _ _ => .inl hconn) true) (ih ?_ (hconn₁.trans hconn))
    rw [hquiet.users]
    exact hu

theorem dial_setConnected (hu : w.users j = some u) : Dial w (User.setConnected u w) := by
  have hmark : Still w (markConnected u w) := Still.modUser u fun _ => rfl
  refine .trans (.still hmark) (dial_rejoin (w := markConnected u w) (j := j) ?_ ?_ _)
  · rw [hmark.users]
    exact hu
  · simp [markConnected, modUser]

end User

/-! ## Callbacks of the frontend -/

/-- The presence announces known capabilities and makes its user ready twice: it creates him and
he gets a backend, or he has one, is not ready yet and `Component` has not asked before. -/
def doubles (p : Presence) (w : World) : Bool :=
  p.capsHash = some "sha-1" && w.caps p.fromJid &&
    (p.toJid.node ≠ "" ∨ p.fromJid.isValid = true) &&
    match w.users p.fromJid.toBare with
    | some u =>
      (p.type = .unavailable ∨ p.type = .available ∧ p.toJid.node ≠ "") &&
        !(w.user u).connected && !(w.user u).readyForConnect && (w.user u).slots ≠ 0
    | none =>
      p.type = .available && (UserManager.admission p w).1.isSome &&
        (getFreeClient true false false w).1.isSome

section Manager

variable {w : World} {p : Presence}

/-- A user of the map is not made ready twice, and neither is a user that is created. -/
structure Answers (p : Presence) (w : World) : Prop where
  user : ∀ u, w.users p.fromJid.toBare = some u → SingleAnswer p u w
  created : w.users p.fromJid.toBare = none → p.capsHash = some "sha-1" →
    w.caps p.fromJid = true → (UserManager.admission p w).1.isSome = true →
      (getFreeClient true false false w).1 = none

theorem dial_deliver (hp : ∀ u, w.users p.fromJid.toBare = some u → SingleAnswer p u w) :
    Dial w (UserManager.deliver p w) := by
  unfold UserManager.deliver
  split
  · exact .still (still_onPasswordInvalid w _ _)
  · rename_i u hu
    exact .trans (dial_userPresence hu (hp u hu) false) (.still (still_checkUnavailable _ u p))

theorem getFreeClient_fst (acceptUsers longRun check : Bool) (w : World) :
    (getFreeClient acceptUsers longRun check w).1 =
      if loginPostponed w then none else findFree acceptUsers longRun w := by
  rcases getFreeClient_cases acceptUsers longRun check w with
    ⟨hpost, heq⟩ | ⟨hpost, w₁, -, ⟨c, hfind, heq⟩ | ⟨hfind, heq⟩⟩
  · rw [heq, if_pos hpost]
  · rw [heq, hpost, hfind]
    rfl
  · rw [heq, hpost, hfind]
    rfl

theorem getFreeClient_fst_congr {w' : World} (h : w'.core = w.core)
    (acceptUsers longRun check : Bool) : (getFreeClient acceptUsers longRun check w').1 =
      (getFreeClient acceptUsers longRun check w).1 := by
  have hback : w'.backends = w.backends := (congrArg Core.backends h :)
  have hpost : loginPostponed w' = loginPostponed w :=
    loginPostponed_congr (congrArg Core.cfg h :) (congrArg Core.now h :)
      (congrArg Core.lastLogin h :)
  have hfind : findFree acceptUsers longRun w' = findFree acceptUsers longRun w :=
    findFree_congr (congrArg Core.clients h :) (congrArg Core.cfg h :) fun b => by rw [hback]
  rw [getFreeClient_fst, getFreeClient_fst, hpost, hfind]

/-- A user who is created without a free backend has no handlers. -/
theorem addUser_slots {info : UserInfo} (j : Jid)
    (hnone : (getFreeClient true false false w).1 = none) :
    ((UserManager.addUser j info w).user w.nextUser).slots = 0 := by
  have hfree : (getFreeClient true false false (withUser j info w)).1 = none := by
    rw [getFreeClient_fst] at hnone ⊢
    exact hnone
  have hsearch := searched_getFreeClient true false false (withUser j info w)
  rw [addUser_eq]
  unfold handleUserCreated
  generalize getFreeClient true false false (withUser j info w) = r at hfree hsearch
  obtain ⟨found, w₁⟩ := r
  cases hfree
  have hslots : ((withUser j info w).user w.nextUser).slots = 0 := by simp [withUser]
  rw [← hslots, ← hsearch.user]

theorem dial_handlePresence (hp : Answers p w) : Dial w (UserManager.handlePresence p w) := by
  unfold UserManager.handlePresence
  split
  · exact dial_deliver hp.user
  · rename_i hnone
    have hadm := still_admission w p
    have haside := aside_admission w p
    have hfree := hp.created hnone
    generalize UserManager.admission p w = r at hadm haside hfree
    obtain ⟨res, w₁⟩ := r
    cases res with
    | none => exact .still hadm
    | some res =>
      have hnone₁ : w₁.users p.fromJid.toBare = none := by
        rw [hadm.users]
        exact hnone
      refine .trans (.still hadm) (.trans (.create p.fromJid res hnone₁) (dial_deliver ?_))
      intro u hu hhash hcaps
      rw [addUser_eq, created_users] at hu
      have hnew : w₁.nextUser = u := by simpa [withUser] using hu
      have hcaps₁ : (UserManager.addUser p.fromJid res w₁).caps = w₁.caps := by
        rw [addUser_eq]
        obtain ⟨w₂, hs, ⟨-, heq⟩ | ⟨c, -, -, heq⟩⟩ :=
          handleUserCreated_cases w₁.nextUser (withUser p.fromJid res w₁)
        · rw [heq]
          exact (Still.of_searched hs).caps
        · rw [heq]
          exact (Still.of_searched hs).caps
      rw [hcaps₁, hadm.caps] at hcaps
      have hnofree : (getFreeClient true false false w₁).1 = none :=
        (getFreeClient_fst_congr haside.core true false false).trans (hfree hhash hcaps rfl)
      rw [← hnew]
      exact .inr (.inr (addUser_slots _ hnofree))

theorem admission_type (h : (UserManager.admission p w).1.isSome = true) :
    p.type ≠ .unavailable ∧ p.type ≠ .probe := by
  unfold UserManager.admission at h
  split at h
  · cases h
  · split at h
    · cases h
    · rename_i htype
      exact not_or.mp htype

theorem identify_keeps (p : Presence) (w : World) : (UserManager.identify p w).2.cfg = w.cfg ∧
    (UserManager.identify p w).2.storage.isSome = w.storage.isSome := by
  have hregister : ∀ info, (UserManager.register info w).cfg = w.cfg ∧
      (UserManager.register info w).storage.isSome = w.storage.isSome := by
    intro info
    unfold UserManager.register
    cases hst : w.storage with
    | none => exact ⟨rfl, by rw [hst]⟩
    | some st => exact ⟨rfl, rfl⟩
  have hinvalid : (UserRegistry.onPasswordInvalid p.fromJid "" w).cfg = w.cfg ∧
      (UserRegistry.onPasswordInvalid p.fromJid "" w).storage = w.storage := by
    unfold UserRegistry.onPasswordInvalid UserRegistry.callSession
    split
    · exact ⟨rfl, rfl⟩
    · split
      · exact ⟨rfl, rfl⟩
      · exact ⟨rfl, rfl⟩
  unfold UserManager.identify
  split
  · simp only [UserManager.identifyServer]
    split
    · exact ⟨rfl, rfl⟩
    · split
      · exact ⟨hinvalid.1, by rw [hinvalid.2]⟩
      · exact hregister _
  · simp only [UserManager.identifyGateway]
    split
    · exact ⟨rfl, rfl⟩
    · split
      · exact hregister _
      · exact ⟨rfl, rfl⟩

/-- What the admission decides depends on the configuration, the user database and the pending
logins only. -/
theorem admission_congr {w' : World} (hcfg : w'.cfg = w.cfg) (hstorage : w'.storage = w.storage)
    (hregistry : w'.registry = w.registry) :
    (UserManager.admission p w').1 = (UserManager.admission p w).1 := by
  have hid : (UserManager.identify p w').1 = (UserManager.identify p w).1 := by
    unfold UserManager.identify UserManager.identifyServer UserManager.identifyGateway
      UserManager.stored UserRegistry.getUserPassword
    rw [hcfg, hstorage, hregistry]
    dsimp only
    split
    · split
      · rfl
      · split
        · rfl
        · rfl
    · split
      · rfl
      · split
        · rfl
        · rfl
  have hkept := identify_keeps p w
  have hkept' := identify_keeps p w'
  unfold UserManager.admission
  rw [hcfg]
  generalize UserManager.identify p w = r at hid hkept
  generalize UserManager.identify p w' = r' at hid hkept'
  obtain ⟨res, w₁⟩ := r
  obtain ⟨res', w₁'⟩ := r'
  cases hid
  obtain ⟨hcfg₁, hstorage₁⟩ := hkept
  obtain ⟨hcfg₁', hstorage₁'⟩ := hkept'
  cases res with
  | none =>
    dsimp only
    split
    · rfl
    · split
      · rfl
      · rfl
  | some res =>
    dsimp only at hcfg₁ hcfg₁' hstorage₁ hstorage₁' ⊢
    rw [hcfg₁, hcfg₁', hstorage₁, hstorage₁', hcfg, hstorage]
    repeat' split
    all_goals rfl

theorem doubles_congr {w' : World} (hcore : w'.core = w.core) (huser : w'.user = w.user)
    (hcaps : w'.caps = w.caps) (hstorage : w'.storage = w.storage)
    (hregistry : w'.registry = w.registry) : doubles p w' = doubles p w := by
  have hcfg : w'.cfg = w.cfg := (congrArg Core.cfg hcore :)
  have husers : w'.users = w.users := (congrArg Core.users hcore :)
  unfold doubles
  rw [huser, hcaps, husers, admission_congr hcfg hstorage hregistry,
    getFreeClient_fst_congr hcore]

/-- The presence does not double: what that says about the user of the map. -/
theorem singleAnswer_of_doubles (hp : doubles p w = false)
    (hsender : p.toJid.node ≠ "" ∨ p.fromJid.isValid = true)
    (htype : p.type = .unavailable ∨ p.type = .available ∧ p.toJid.node ≠ "") {u : UserId}
    (hu : w.users p.fromJid.toBare = some u) : SingleAnswer p u w := by
  intro hhash hcaps
  by_contra hno
  obtain ⟨hconn, hready, hslots⟩ : (w.user u).connected = false ∧
      (w.user u).readyForConnect = false ∧ (w.user u).slots ≠ 0 := by
    simpa [not_or] using hno
  simp [doubles, hhash, hcaps, hsender, hu, htype, hconn, hready, hslots] at hp

theorem created_of_doubles (hp : doubles p w = false)
    (hsender : p.toJid.node ≠ "" ∨ p.fromJid.isValid = true) (htype : p.type = .available)
    (hnone : w.users p.fromJid.toBare = none) (hhash : p.capsHash = some "sha-1")
    (hcaps : w.caps p.fromJid = true)
    (hadm : (UserManager.admission p w).1.isSome = true) :
    (getFreeClient true false false w).1 = none := by
  by_contra hno
  have hfree : (getFreeClient true false false w).1.isSome = true :=
    Option.isSome_iff_ne_none.mpr hno
  simp [doubles, hhash, hcaps, hsender, hnone, htype, hadm, hfree] at hp

theorem dial_handleGeneralPresenceReceived (hp : doubles p w = false) :
    Dial w (UserManager.handleGeneralPresenceReceived p w) := by
  unfold UserManager.handleGeneralPresenceReceived UserManager.handleMUCPresence
  split
  · rename_i htype
    split
    · exact .refl w
    · rename_i hnode
      split
      · rename_i havailable
        exact dial_handlePresence ⟨fun u hu =>
          singleAnswer_of_doubles hp (.inl hnode) (.inr ⟨havailable, hnode⟩) hu,
          created_of_doubles hp (.inl hnode) havailable⟩
      · rename_i hnot
        split
        · exact .refl w
        · rename_i u hu
          have hunavailable := htype.resolve_left hnot
          exact dial_userPresence hu
            (singleAnswer_of_doubles hp (.inl hnode) (.inl hunavailable) hu) false
  · exact .refl w

theorem onConnectingTimeout_ready (u : UserId) (w : World) :
    ((User.onConnectingTimeout u w).user u).connected = true ∨
      ((User.onConnectingTimeout u w).user u).readyForConnect = true := by
  unfold User.onConnectingTimeout
  split
  · rename_i hguard
    simpa using hguard
  · have hready := setReady_ready u (w.modUser u fun x => { x with reconnectTimer := false })
    dsimp only
    split
    · exact .inr hready
    · rename_i highest _
      have hsame := (still_onPresenceChanged u
        (User.setReady u (w.modUser u fun x => { x with reconnectTimer := false })) highest).ready u
      exact .inr (hsame.trans hready)

/-- After the request for the capabilities, the user of the map is not made ready again. -/
theorem answers_requested (hp : doubles p w = false)
    (hsender : p.toJid.node ≠ "" ∨ p.fromJid.isValid = true)
    (htype : p.type = .available ∨ p.type = .probe) :
    Answers p (sendCapabilitiesRequest p.fromJid w).2 := by
  cases hcaps : w.caps p.fromJid with
  | false =>
    have hsame : sendCapabilitiesRequest p.fromJid w = (false, w) := by
      simp [sendCapabilitiesRequest, hcaps]
    rw [hsame]
    refine ⟨fun u _ _ hknown => ?_, fun _ _ hknown => ?_⟩
    · rw [hcaps] at hknown
      cases hknown
    · rw [hcaps] at hknown
      cases hknown
  | true =>
    have hsame : (sendCapabilitiesRequest p.fromJid w).2 =
        UserManager.handleDiscoInfo p.fromJid w := by
      simp [sendCapabilitiesRequest, hcaps]
    have husers := (quiet_sendCapabilitiesRequest p.fromJid w).users
    refine ⟨fun u hu _ _ => ?_, fun hnone hhash _ hadm => ?_⟩
    · rw [husers] at hu
      rw [hsame]
      simp only [UserManager.handleDiscoInfo, hu]
      rcases onConnectingTimeout_ready u w with hconn | hready
      · exact .inl hconn
      · exact .inr (.inl hready)
    · rw [husers] at hnone
      have hidle : (sendCapabilitiesRequest p.fromJid w).2 = w := by
        rw [hsame]
        simp only [UserManager.handleDiscoInfo, hnone]
      rw [hidle] at hadm ⊢
      exact created_of_doubles hp hsender (htype.resolve_right (admission_type hadm).2) hnone hhash
        hcaps hadm

theorem dial_componentPresence (hp : p.toJid.node = "" → doubles p w = false) :
    Dial w (Component.handlePresence p w) := by
  have hcaps := dial_sendCapabilitiesRequest (w := w) p.fromJid
  unfold Component.handlePresence
  split
  · exact .refl w
  · rename_i hto
    obtain ⟨hnode, hvalid⟩ := not_or.mp hto
    have hsingle := hp (not_not.mp hnode)
    have hsender : p.toJid.node ≠ "" ∨ p.fromJid.isValid = true := .inr (by simpa using hvalid)
    split
    all_goals first
      | exact .refl w
      | skip
    · rename_i htype
      refine dial_handlePresence
        ⟨fun u hu => singleAnswer_of_doubles hsingle hsender (.inl htype) hu, ?_⟩
      exact fun _ _ _ hadm => absurd htype (admission_type hadm).1
    · rename_i htype
      exact .trans hcaps (dial_handlePresence (answers_requested hsingle hsender (.inl htype)))
    · rename_i htype
      exact .trans hcaps (dial_handlePresence (answers_requested hsingle hsender (.inr htype)))

theorem doubles_of_hash (h : p.capsHash ≠ some "sha-1") : doubles p w = false := by
  simp [doubles, h]

/-- What the oracle passes on is the presence itself or an unavailable one of its own. -/
theorem passed_cases (o : Oracle) : (o.handleIncomingPresence p).2 = none ∨
    p.toJid.node = "" ∧ ((o.handleIncomingPresence p).2 = some p ∨
      ∃ q : Presence, q.capsHash = none ∧ (o.handleIncomingPresence p).2 = some q) := by
  unfold Oracle.handleIncomingPresence
  split
  · exact .inl rfl
  · rename_i hnode
    split
    · exact .inl rfl
    · refine .inr ⟨not_not.mp hnode, ?_⟩
      dsimp only
      split
      · exact .inr ⟨_, rfl, rfl⟩
      · exact .inl rfl

theorem dial_presenceReceived (hp : doubles p w = false) : Dial w (presenceReceived p w) := by
  have hsame : ∀ o, doubles p { w with oracle := o } = false := by
    intro o
    rw [← hp]
    exact doubles_congr rfl rfl rfl rfl rfl
  simp only [presenceReceived]
  apply Dial.trans (.still (still_oracle w (w.oracle.handleIncomingPresence p).1))
  rcases passed_cases (p := p) w.oracle with hnone | ⟨hnode, hpassed⟩
  · rw [hnone]
    exact dial_handleGeneralPresenceReceived (hsame _)
  · have hdone : ∀ w' : World, UserManager.handleGeneralPresenceReceived p w' = w' := by
      intro w'
      unfold UserManager.handleGeneralPresenceReceived UserManager.handleMUCPresence
      rw [if_pos hnode]
      split
      · rfl
      · rfl
    rw [hdone]
    rcases hpassed with hpassed | ⟨q, hq, hpassed⟩
    · rw [hpassed]
      exact dial_componentPresence fun _ => hsame _
    · rw [hpassed]
      exact dial_componentPresence fun _ => doubles_of_hash (by rw [hq]; simp)

end Manager

/-! ## Logins and sessions -/

section Sessions

variable (w : World)

/-- The presences that `UserManager` makes up carry no capabilities. -/
theorem dial_disconnectUser (j : Jid) : Dial w (UserManager.disconnectUser j w) :=
  dial_presenceReceived (doubles_of_hash (by simp))

theorem dial_connectUser (j : Jid) : Dial w (UserManager.connectUser j w) := by
  unfold UserManager.connectUser
  split
  · exact dial_presenceReceived (doubles_of_hash (by simp))
  · split
    · exact .refl w
    · split
      · split
        · exact .still (.of_same rfl)
        · split
          · exact .still (still_onPasswordValid w j)
          · have hmessage : Still w
                (w.emit (.message j "You have signed on from another location.")) := .emit trivial
            exact .still (hmessage.trans (still_onPasswordValid _ j))
      · exact .still (.of_same rfl)

theorem dial_handleRemoveTimeout (slot : RemoveSlot) :
    Dial w (UserManager.handleRemoveTimeout slot w) := by
  have hdrop : Still w (UserManager.dropSlot slot w) :=
    .of_same rfl
  simp only [UserManager.handleRemoveTimeout]
  apply Dial.trans (.still hdrop)
  split
  · exact .refl _
  · rename_i hu
    have hremove := Dial.remove (w := UserManager.dropSlot slot w) (not_not.mp hu)
    split
    · exact .trans hremove (dial_connectUser _ _)
    · exact hremove

theorem dial_removeTick : Dial w (UserManager.removeTick w) := by
  have htimer : Still w { w with removeTimer := false } :=
    .of_same rfl
  apply Dial.trans (.still htimer)
  refine Dial.foldl (fun w slot => ?_) _ _
  split
  · exact dial_handleRemoveTimeout w slot
  · exact .refl w

theorem dial_isValidUserPassword (j : Jid) (s : SessionId) (password : String) :
    Dial w (UserRegistry.isValidUserPassword j s password w) := by
  have hadmin : ∀ valid, Still w (w.emit (.adminPassword s valid)) := fun valid => .emit trivial
  unfold UserRegistry.isValidUserPassword
  split
  · split
    · exact .still ((hadmin true).trans (still_callSession _ _ _))
    · exact .still ((hadmin false).trans (still_callSession _ _ _))
  · dsimp only
    split
    · exact .trans (.still (still_setEntry w _ _)) (dial_connectUser _ j)
    · rename_i e _
      have hold := (still_setEntry w j.toBare (some { e with session := s })).trans
        (still_callSession _ e.session (Session.handlePasswordInvalid ""))
      exact .trans (.still (hold.trans (still_setEntry _ _ _))) (dial_connectUser _ j)

theorem dial_stopLogin (j : Jid) (s : SessionId) : Dial w (UserRegistry.stopLogin j s w) := by
  simp only [UserRegistry.stopLogin]
  apply Dial.trans (.still (still_eraseLogin w j.toBare s))
  split
  · exact .refl _
  · exact dial_disconnectUser _ j

/-- The outputs that carry no element of the client. -/
theorem dial_react (s : SessionId) {o : Session.Output}
    (ho : ∀ e, o ≠ .onElementReceived e) : Dial w (react s w o) := by
  unfold react
  split
  · exact dial_isValidUserPassword w _ s _
  · unfold addSession
    split
    · exact .refl w
    · exact .still (.of_same rfl)
  · exact absurd rfl (ho _)
  · exact dial_stopLogin w _ s
  · exact .refl w

variable {w} in
theorem dial_reacts (s : SessionId) {os : List Session.Output}
    (hos : ∀ e, Session.Output.onElementReceived e ∉ os) : Dial w (os.foldl (react s) w) := by
  induction os generalizing w with
  | nil => exact .refl w
  | cons o os ih =>
    refine .trans (dial_react w s ?_) (ih fun e he => hos e (List.mem_cons_of_mem o he))
    rintro e rfl
    exact hos e List.mem_cons_self

theorem dial_runSession (s : SessionId) (f : Session → Session × List Session.Output)
    (hf : ∀ x e, Session.Output.onElementReceived e ∉ (f x).2) : Dial w (runSession s f w) := by
  unfold runSession
  split
  · exact .refl w
  · rename_i x _
    exact .trans (.still (still_callSession w s f)) (dial_reacts s (hf x))

theorem dial_streamStart (s : SessionId) (toJid : Jid) :
    Dial w (runSession s (Session.handleStreamStart toJid) w) := by
  refine dial_runSession w s _ fun x e he => ?_
  simp only [Session.handleStreamStart] at he
  split at he
  · simp at he
  · simp at he

/-- The presence that an event of the frontend brings. -/
def Event.presence? (w : World) : Event → Option Presence
  | .presence p => some p
  | .element s (.presence p) _ =>
    match w.session s with
    | none => none
    | some x =>
      if x.initialized = true ∧ s ∈ w.channel x.remoteJid.toBare ∧ x.remoteJid.isValid = true then
        some { p with fromJid := x.remoteJid }
      else none
  | _ => none

/-- Before its session is started, a client passes no element on. -/
theorem handleElement_of_not_initialized (prep : StringPrep) (uuid : String) (e : Element)
    {x : Session} (hx : x.initialized = false) :
    ∀ e', Session.Output.onElementReceived e' ∉ (Session.handleElement prep uuid e x).2 := by
  intro e' he
  unfold Session.handleElement at he
  rw [if_neg (by simp [hx])] at he
  cases e with
  | authRequest mechanism message =>
    dsimp only at he
    split at he
    · split at he <;> simp at he
    · simp at he
  | startTls =>
    dsimp only at he
    split at he <;> simp at he
  | iq query id => cases query <;> simp at he
  | _ => simp at he

theorem dial_channelElement (s : SessionId) (e : Element)
    (hp : ∀ x p, w.session s = some x → e = .presence p →
      s ∈ w.channel x.remoteJid.toBare → x.remoteJid.isValid = true →
        doubles { p with fromJid := x.remoteJid } w = false) :
    Dial w (channelElement s e w) := by
  unfold channelElement
  split
  · rename_i x p hx
    split
    · rename_i hguard
      exact dial_presenceReceived (hp x p hx rfl hguard.1 hguard.2)
    · exact .refl w
  · exact .refl w

theorem dial_element (s : SessionId) (e : Element) (uuid : String)
    (hp : ∀ p, Event.presence? w (.element s e uuid) = some p → doubles p w = false) :
    Dial w (runSession s (Session.handleElement w.cfg.prep uuid e) w) := by
  unfold runSession
  split
  · exact .refl w
  · rename_i x hx
    have hcall := still_callSession w s (Session.handleElement w.cfg.prep uuid e)
    apply Dial.trans (.still hcall)
    by_cases hinit : x.initialized = true
    · have hforward : Session.handleElement w.cfg.prep uuid e x = (x, [.onElementReceived e]) := by
        unfold Session.handleElement
        rw [if_pos hinit]
      have hstate : UserRegistry.callSession s (Session.handleElement w.cfg.prep uuid e) w =
          { w with
            session := Function.update w.session s (some x)
            log := .session s (.onElementReceived e) :: w.log } := by
        simp [UserRegistry.callSession, hx, hforward]
      rw [hforward, hstate]
      refine dial_channelElement _ s e ?_
      rintro y p hy rfl hmem hvalid
      have hxy : x = y := by simpa using hy
      subst hxy
      rw [← hp { p with fromJid := x.remoteJid } (by
        simp only [Event.presence?, hx]
        exact if_pos ⟨hinit, hmem, hvalid⟩)]
      exact doubles_congr rfl rfl rfl rfl rfl
    · have hquiet := handleElement_of_not_initialized w.cfg.prep uuid e (x := x)
        (by simpa using hinit)
      exact dial_reacts s hquiet

theorem dial_closeSession (s : SessionId) : Dial w (closeSession s w) := by
  unfold closeSession
  split
  · exact .refl w
  · rename_i x _
    have hstop : Dial w (runSession s (Session.handleSessionFinished w.cfg.prep) w) :=
      dial_runSession w s _ fun x e he => by simp [Session.handleSessionFinished] at he
    have hend : ∀ w' : World, Dial w' { w' with session := Function.update w'.session s none } :=
      fun w' => .still (.of_same rfl)
    have hleave : ∀ w' : World, Dial w' (removeSession x.remoteJid s w') :=
      fun w' => .still (.of_same rfl)
    dsimp only
    split
    · refine .trans (.trans hstop (.trans (hleave _) ?_)) (hend _)
      exact dial_presenceReceived (doubles_of_hash (by simp))
    · exact .trans hstop (hend _)

theorem dial_unregister (j : Jid) : Dial w (UserManager.unregister j w) := by
  have hstorage : Still w
      { w with storage := w.storage.map fun st => Function.update st j none } :=
    .of_same rfl
  simp only [UserManager.unregister]
  apply Dial.trans (.still hstorage)
  split
  · exact .refl _
  · rename_i u hu
    exact .remove hu

/-- An event of the frontend whose presence does not double. -/
theorem dial_run {e : Event} (he : e.isFront = true)
    (hp : ∀ p, e.presence? w = some p → doubles p w = false)
    (htimer : ∀ u, e = .connectingTimeout u → ∃ j, w.users j = some u) : Dial w (e.run w) := by
  cases e with
  | presence p => exact dial_presenceReceived (hp p rfl)
  | caps j known =>
    simp only [Event.run]
    apply Dial.trans (.learn (Function.update w.caps j known))
    split
    · exact dial_handleDiscoInfo j
    · exact .refl _
  | connectingTimeout u =>
    obtain ⟨j, hu⟩ := htimer u rfl
    have hstop : Still w (w.modUser u fun x => { x with reconnectTimer := false }) :=
      Still.modUser u fun _ => rfl
    exact .trans (.still hstop) (dial_onConnectingTimeout (j := j) (by rw [hstop.users]; exact hu))
  | removeTick => exact dial_removeTick w
  | unregister j => exact dial_unregister w j
  | registryTick => exact .still (still_registryTick w)
  | openSession tlsLayer =>
    exact .still (.of_same rfl)
  | streamStart s toJid => exact dial_streamStart w s toJid
  | element s e uuid => exact dial_element w s e uuid hp
  | closeSession s => exact dial_closeSession w s
  | _ => cases he

end Sessions

end Spectrum
