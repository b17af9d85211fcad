import Spectrum.Transport.Flow

/-!
# The frame of one user

Assigning, releasing, disconnecting, moving or removing one user leaves every other user
where he was: his object, the lists and the queue he is in, and his entry in the map.
`Others z` states this frame once, for the user `z` an operation is about (`none` for
nobody). A property of each single user that respects the frame (`Local`) is then checked
only for the user the operation is about.
-/

namespace Spectrum

open World NetworkPluginServer

/-- The operation changed nothing about the users other than `z`. -/
structure Others (z : Option UserId) (w w' : World) : Prop where
  clients : w'.clients = w.clients
  user : ∀ v, some v ≠ z → (w'.user v).core = (w.user v).core
  listed : ∀ v, some v ≠ z → ∀ b, v ∈ (w'.backends b).users ↔ v ∈ (w.backends b).users
  waiting : ∀ v, some v ≠ z → (v ∈ w'.waitingUsers ↔ v ∈ w.waitingUsers)
  managed : ∀ v, some v ≠ z → (w'.Managed v ↔ w.Managed v)

namespace Others

variable {x : Option BackendId} {z : Option UserId} {w w' w₁ : World} {u v : UserId}

theorem refl (w : World) : Others z w w :=
  ⟨rfl, fun _ _ => rfl, fun _ _ _ => Iff.rfl, fun _ _ => Iff.rfl, fun _ _ => Iff.rfl⟩

theorem trans (h : Others z w w₁) (h' : Others z w₁ w') : Others z w w' where
  clients := h'.clients.trans h.clients
  user := fun v hv => (h'.user v hv).trans (h.user v hv)
  listed := fun v hv b => (h'.listed v hv b).trans (h.listed v hv b)
  waiting := fun v hv => (h'.waiting v hv).trans (h.waiting v hv)
  managed := fun v hv => (h'.managed v hv).trans (h.managed v hv)

theorem data (h : Others z w w') (hv : some v ≠ z) : (w'.user v).data = (w.user v).data :=
  (congrArg User.data (h.user v hv) :)

theorem ignoreDisconnect (h : Others z w w') (hv : some v ≠ z) :
    (w'.user v).ignoreDisconnect = (w.user v).ignoreDisconnect :=
  (congrArg User.ignoreDisconnect (h.user v hv) :)

/-- A change of fields that the frame does not mention. -/
theorem of_fields (hclients : w'.clients = w.clients)
    (hcore : ∀ v, (w'.user v).core = (w.user v).core)
    (husers : ∀ b, (w'.backends b).users = (w.backends b).users)
    (hwait : w'.waitingUsers = w.waitingUsers) (hmap : w'.users = w.users) : Others z w w' where
  clients := hclients
  user := fun v _ => hcore v
  listed := fun v _ b => by rw [husers]
  waiting := fun v _ => by rw [hwait]
  managed := by
    intro v _
    have hjid : (w'.user v).jid = (w.user v).jid := (congrArg User.jid (hcore v) :)
    unfold Managed
    rw [hmap, hjid]

theorem of_quiet {P : Effect → Prop} (h : Quiet P w w') : Others z w w' :=
  of_fields h.clients h.user (fun b => by rw [h.backends]) h.waitingUsers h.users

theorem of_idle (h : Idle w w') : Others z w w' := of_quiet h.quiet

theorem of_searched (h : Searched w w') : Others z w w' :=
  of_fields h.clients (fun v => by rw [h.user]) h.usersOf h.waitingUsers h.users

theorem of_pinged (h : Pinged w w') : Others z w w' :=
  of_fields h.clients (fun v => by rw [h.user]) h.usersOf h.waitingUsers h.users

theorem modBackend {b : BackendId} {f : Backend → Backend} (husers : ∀ c, (f c).users = c.users) :
    Others z w (w.modBackend b f) := by
  refine of_fields rfl (fun _ => rfl) ?_ rfl rfl
  intro c
  by_cases hc : c = b
  · subst hc
    simp [World.modBackend, husers]
  · simp [World.modBackend, Function.update_of_ne hc]

theorem noteData (b : BackendId) : Others z w (noteData b w) := by
  obtain ⟨v, hv⟩ := noteData_eq b w
  rw [hv]
  exact modBackend fun _ => rfl

/-! ## Changes of one user -/

theorem modUser {f : User → User} : Others (some u) w (w.modUser u f) := by
  have huser : ∀ v, some v ≠ some u → (w.modUser u f).user v = w.user v := by
    intro v hv
    have hne : v ≠ u := by simpa using hv
    simp [World.modUser, Function.update_of_ne hne]
  refine ⟨rfl, fun v hv => by rw [huser v hv], fun _ _ _ => Iff.rfl, fun _ _ => Iff.rfl, ?_⟩
  intro v hv
  unfold Managed
  rw [huser v hv]
  rfl

theorem of_destroyed (h : Destroyed u w w') : Others (some u) w w' where
  clients := h.clients
  user := by
    intro v hv
    have hne : v ≠ u := by simpa using hv
    rw [h.user, Function.update_of_ne hne]
  listed := fun v hv b => h.mem_usersOf (by simpa using hv)
  waiting := by
    intro v hv
    have hne : v ≠ u := by simpa using hv
    rw [h.waitingUsers]
    simp [hne]
  managed := fun v _ => h.managed v

theorem attach (how : Assignment) (c : BackendId) : Others (some u) w (attach how u c w) where
  clients := rfl
  user := by
    intro v hv
    have hne : v ≠ u := by simpa using hv
    simp [NetworkPluginServer.attach, World.modBackend, setData, emit, World.modUser,
      Function.update_of_ne hne]
  listed := by
    intro v hv b
    have hne : v ≠ u := by simpa using hv
    rw [attach_usersOf]
    split
    · simp [hne]
    · exact Iff.rfl
  waiting := fun _ _ => Iff.rfl
  managed := fun v _ => attach_managed v

theorem enqueue : Others (some u) w { w with waitingUsers := w.waitingUsers ++ [u] } where
  clients := rfl
  user := fun _ _ => rfl
  listed := fun _ _ _ => Iff.rfl
  waiting := by
    intro v hv
    have hne : v ≠ u := by simpa using hv
    simp [hne]
  managed := fun _ _ => Iff.rfl

theorem dequeue {rest : List UserId} (hwait : w.waitingUsers = u :: rest) :
    Others (some u) w { w with waitingUsers := rest } where
  clients := rfl
  user := fun _ _ => rfl
  listed := fun _ _ _ => Iff.rfl
  waiting := by
    intro v hv
    have hne : v ≠ u := by simpa using hv
    rw [hwait]
    simp [hne]
  managed := fun _ _ => Iff.rfl

theorem removeFrom (old : BackendId) : Others (some u) w (removeFrom u old w) where
  clients := rfl
  user := fun _ _ => rfl
  listed := by
    intro v hv b
    have hne : v ≠ u := by simpa using hv
    rw [removeFrom_usersOf]
    split
    · simp [hne]
    · exact Iff.rfl
  waiting := fun _ _ => Iff.rfl
  managed := fun _ _ => Iff.rfl

theorem erase (h : Link x none w) (hm : w.Managed u) :
    Others (some u) w { w with users := Function.update w.users (w.user u).jid.toBare none } where
  clients := rfl
  user := fun _ _ => rfl
  listed := fun _ _ _ => Iff.rfl
  waiting := fun _ _ => Iff.rfl
  managed := by
    intro v hv
    have hne : v ≠ u := by simpa using hv
    show Function.update w.users (w.user u).jid.toBare none (w.user v).jid = some v ↔
      w.users (w.user v).jid = some v
    rw [h.toBare_jid hm]
    by_cases hjid : (w.user v).jid = (w.user u).jid
    · have hmu : w.users (w.user u).jid = some u := hm
      rw [hjid, hmu]
      simpa using hne.symm
    · rw [Function.update_of_ne hjid]

theorem withUser (h : Link x none w) {j : Jid} {info : UserInfo}
    (hnone : w.users j.toBare = none) : Others (some w.nextUser) w (withUser j info w) where
  clients := rfl
  user := by
    intro v hv
    have hne : v ≠ w.nextUser := by simpa using hv
    simp [Spectrum.withUser, Function.update_of_ne hne]
  listed := fun _ _ _ => Iff.rfl
  waiting := fun _ _ => Iff.rfl
  managed := by
    intro v hv
    have hne : v ≠ w.nextUser := by simpa using hv
    refine ⟨?_, withUser_managed h hnone⟩
    unfold Managed
    simp only [Spectrum.withUser, Function.update_of_ne hne]
    by_cases hjid : (w.user v).jid = j.toBare
    · rw [hjid, Function.update_self]
      intro heq
      exact absurd (Option.some.inj heq).symm hne
    · rw [Function.update_of_ne hjid]
      exact id

end Others

/-! ## Operations on one user -/

section Operations

variable {x : Option BackendId} {w : World} {u : UserId}

theorem others_created (u : UserId) (w : World) : Others (some u) w (handleUserCreated u w) := by
  obtain ⟨w₁, hs, ⟨-, heq⟩ | ⟨c, -, -, heq⟩⟩ := handleUserCreated_cases u w
  · rw [heq]
    exact (Others.of_searched hs).trans .enqueue
  · rw [heq]
    exact ((Others.of_searched hs).trans (.attach .created c)).trans .modUser

theorem others_destroyed (u : UserId) (w : World) : Others (some u) w (handleUserDestroyed u w) :=
  .of_destroyed (handleUserDestroyed_spec u w)

theorem others_reconnect (u : UserId) (w : World) : Others (some u) w (User.reconnect u w) := by
  simp only [User.reconnect]
  exact ((Others.modUser.trans (others_destroyed u _)).trans (others_created u _)).trans
    (.of_idle (idle_onReadyToConnect u _))

theorem others_removeUser (h : Link x none w) (hm : w.Managed u) :
    Others (some u) w (UserManager.removeUser u w) := by
  obtain ⟨w₁, hq, hq'⟩ := removeUser_steps w u
  exact (((Others.erase h hm).trans (.of_idle hq)).trans (others_destroyed u w₁)).trans
    (.of_idle hq')

/-- A removed user is no longer in the map. -/
theorem removeUser_not_managed (h : Link x none w) (hm : w.Managed u) :
    ¬(UserManager.removeUser u w).Managed u := by
  obtain ⟨w₁, hq, hq'⟩ := removeUser_steps w u
  rw [hq'.sameLinks.managed, (handleUserDestroyed_spec u w₁).managed, hq.sameLinks.managed]
  unfold Managed
  rw [h.toBare_jid hm]
  simp

theorem giveUp_eq (h : Link x none w) (hm : w.Managed u) (error : String) :
    User.giveUp u error w = UserManager.removeUser u (User.reportError u error w) := by
  have hs := (idle_reportError u error w).sameLinks
  have hm' := hs.managed.mpr hm
  have hsome : (User.reportError u error w).users
      ((User.reportError u error w).user u).jid.toBare = some u := by
    rw [(h.of_same hs).toBare_jid hm']
    exact hm'
  simp only [User.giveUp]
  rw [hsome]
  rfl

theorem others_disconnected (h : Link x none w) (hm : w.Managed u) (error : String)
    (e : ConnectionError) : Others (some u) w (User.handleDisconnected u error e w) := by
  have hq : Quiet (fun _ => True) w (w.emit (.disconnected u)) := .emit trivial
  have hemit : Others (some u) w (w.emit (.disconnected u)) := .of_quiet hq
  rcases handleDisconnected_cases u error e w with ⟨-, heq⟩ | ⟨-, -, heq⟩ | ⟨-, -, heq⟩
  · rw [heq]
    exact hemit
  · rw [heq]
    exact hemit.trans (others_reconnect u _)
  · have hlink := h.of_same hq.sameLinks
    have hm₁ := hq.sameLinks.managed.mpr hm
    have hs := (idle_reportError u error (w.emit (.disconnected u))).sameLinks
    rw [heq, giveUp_eq hlink hm₁]
    exact (hemit.trans (.of_idle (idle_reportError u error _))).trans
      (others_removeUser (hlink.of_same hs) (hs.managed.mpr hm₁))

/-- A user who is neither ignored nor reconnected is removed. -/
theorem disconnected_not_managed (hlink : Link x none w) (hm : w.Managed u)
    {e : ConnectionError} (hignore : (w.user u).ignoreDisconnect = false)
    (hrec : User.reconnects (w.user u) e = false) (error : String) :
    ¬ (User.handleDisconnected u error e w).Managed u := by
  have hq : Quiet (fun _ => True) w (w.emit (.disconnected u)) := .emit trivial
  rcases handleDisconnected_cases u error e w with ⟨htrue, -⟩ | ⟨-, htrue, -⟩ | ⟨-, -, heq⟩
  · rw [hignore] at htrue
    cases htrue
  · rw [hrec] at htrue
    cases htrue
  · have hlink₁ := hlink.of_same hq.sameLinks
    have hm₁ := hq.sameLinks.managed.mpr hm
    have hreport := (idle_reportError u error (w.emit (.disconnected u))).sameLinks
    rw [heq, giveUp_eq hlink₁ hm₁]
    exact removeUser_not_managed (hlink₁.of_same hreport) (hreport.managed.mpr hm₁)

theorem others_dropUser (h : Link x none w) (hu : Pending x u w) :
    Others (some u) w (dropUser w u) :=
  Others.modUser.trans
    (others_disconnected (h.setData hu.unplaced none) (hu.setData none).managed _ _)

theorem others_serve {rest : List UserId} (hwait : w.waitingUsers = u :: rest) :
    Others (some u) w (serve u rest w) :=
  ((Others.dequeue hwait).trans (others_created u _)).trans (.of_idle (idle_serveLogin u _))

theorem others_move (u : UserId) (w : World) : Others (some u) w (moveToLongRunBackend u w).2 := by
  rcases moveToLongRunBackend_cases u w with heq | ⟨w₁, hs, heq⟩ | heq |
    ⟨w₁, old, c, hs, -, -, -, -, -, heq⟩
  · rw [heq]
    exact .refl w
  · rw [heq]
    exact .of_searched hs
  · rw [heq]
    exact .of_fields rfl (fun _ => rfl) (fun _ => rfl) rfl rfl
  · rw [heq]
    exact ((((Others.of_searched hs).trans .modUser).trans (.removeFrom old)).trans
      (.attach .moved c)).trans (.of_idle (idle_handleUserReadyToConnect u _))

/-! ## Where the user ends up -/

/-- The user is listed by the backend he points to, and it is not `x`. -/
def Seated (x : Option BackendId) (u : UserId) (w : World) : Prop :=
  ∃ d ∈ w.clients, some d ≠ x ∧ (w.user u).data = some d ∧ u ∈ (w.backends d).users

/-- The user waits and points to the backend `d` he pointed to before, if any. -/
def Queued (d : Option BackendId) (u : UserId) (w : World) : Prop :=
  u ∈ w.waitingUsers ∧ (w.user u).data = d

theorem Seated.of_same {w' : World} (h : Seated x u w) (hs : SameLinks w w') :
    Seated x u w' := by
  obtain ⟨d, hd, hx, hdata, hmem⟩ := h
  refine ⟨d, ?_, hx, ?_, ?_⟩
  · rw [hs.clients]
    exact hd
  · rw [hs.data]
    exact hdata
  · rw [hs.usersOf]
    exact hmem

theorem Queued.of_same {w' : World} {d : Option BackendId} (h : Queued d u w)
    (hs : SameLinks w w') : Queued d u w' := by
  refine ⟨?_, ?_⟩
  · rw [hs.waitingUsers]
    exact h.1
  · rw [hs.data]
    exact h.2

theorem seated_attach (how : Assignment) {c : BackendId} (hc : c ∈ w.clients) (hx : some c ≠ x) :
    Seated x u (attach how u c w) := by
  refine ⟨c, hc, hx, ?_, ?_⟩
  · rw [attach_data, if_pos rfl]
  · rw [attach_usersOf, if_pos rfl]
    simp

/-- No user is sent to a dying backend. -/
theorem ne_of_isFree {c : BackendId} {acceptUsers longRun : Bool}
    (hdying : ∀ b, some b = x → (w.backends b).willDie = true)
    (hfree : isFree acceptUsers longRun w c = true) : some c ≠ x := by
  intro hcx
  have hdie := hdying c hcx
  rw [(isFree_iff.mp hfree).1] at hdie
  cases hdie

theorem created_outcome (u : UserId) (hdying : ∀ b, some b = x → (w.backends b).willDie = true) :
    Queued (w.user u).data u (handleUserCreated u w) ∨ Seated x u (handleUserCreated u w) := by
  obtain ⟨w₁, hs, ⟨-, heq⟩ | ⟨c, hc, hfree, heq⟩⟩ := handleUserCreated_cases u w
  · left
    rw [heq]
    refine ⟨List.mem_append_right _ List.mem_cons_self, ?_⟩
    show (w₁.user u).data = (w.user u).data
    rw [hs.user]
  · right
    rw [heq]
    have hc₁ : c ∈ w₁.clients := by
      rw [hs.clients]
      exact hc
    exact (seated_attach .created hc₁ (ne_of_isFree hdying hfree)).of_same sameLinks_connectSlots

theorem created_seated {c : BackendId} (hpost : loginPostponed w = false)
    (hfind : findFree true false w = some c) : Seated none u (handleUserCreated u w) := by
  obtain ⟨w₁, hs, heq⟩ := handleUserCreated_of_free (u := u) hpost hfind
  rw [heq]
  have hc₁ : c ∈ w₁.clients := by
    rw [hs.clients]
    exact (findFree_eq_some hfind).1
  exact (seated_attach .created hc₁ (by simp)).of_same sameLinks_connectSlots

theorem reconnect_outcome (u : UserId) (hdying : ∀ b, some b = x → (w.backends b).willDie = true) :
    Queued (w.user u).data u (User.reconnect u w) ∨ Seated x u (User.reconnect u w) := by
  simp only [User.reconnect]
  have hcount : SameLinks w (w.modUser u fun y =>
    { y with reconnectCounter := y.reconnectCounter + 1 }) := sameLinks_count
  generalize (w.modUser u fun y => { y with reconnectCounter := y.reconnectCounter + 1 }) = w₁
    at hcount
  have hd := handleUserDestroyed_spec u w₁
  have hdying' : ∀ b, some b = x → ((handleUserDestroyed u w₁).backends b).willDie = true :=
    fun b hb => hd.willDie (hcount.willDie b (hdying b hb))
  have hdata : ((handleUserDestroyed u w₁).user u).data = (w.user u).data := by
    rw [hd.data, hcount.data]
  have hready :=
    (idle_onReadyToConnect u (handleUserCreated u (handleUserDestroyed u w₁))).sameLinks
  rcases created_outcome u hdying' with hqueued | hseated
  · rw [hdata] at hqueued
    exact .inl (hqueued.of_same hready)
  · exact .inr (hseated.of_same hready)

/-- A user that is still in the map after a disconnection was ignored, waits, or has been
given another backend. -/
theorem disconnected_outcome (h : Link x none w) (hm : w.Managed u) (error : String)
    (e : ConnectionError) (hm' : (User.handleDisconnected u error e w).Managed u) :
    ((w.user u).ignoreDisconnect = true ∧
      User.handleDisconnected u error e w = w.emit (.disconnected u)) ∨
    (w.user u).ignoreDisconnect = false ∧ User.reconnects (w.user u) e = true ∧
      (Queued (w.user u).data u (User.handleDisconnected u error e w) ∨
        Seated x u (User.handleDisconnected u error e w)) := by
  rcases handleDisconnected_cases u error e w with ⟨hignore, heq⟩ | ⟨hignore, hrec, heq⟩ |
    ⟨-, -, heq⟩
  · exact .inl ⟨hignore, heq⟩
  · rw [heq]
    exact .inr ⟨hignore, hrec, reconnect_outcome (w := w.emit (.disconnected u)) u h.dying⟩
  · have hq : Quiet (fun _ => True) w (w.emit (.disconnected u)) := .emit trivial
    have hlink := h.of_same hq.sameLinks
    have hm₁ := hq.sameLinks.managed.mpr hm
    have hs := (idle_reportError u error (w.emit (.disconnected u))).sameLinks
    rw [heq, giveUp_eq hlink hm₁] at hm'
    exact absurd hm' (removeUser_not_managed (hlink.of_same hs) (hs.managed.mpr hm₁))

theorem dropUser_outcome (h : Link x none w) (hu : Pending x u w)
    (hm' : (dropUser w u).Managed u) :
    ((w.user u).ignoreDisconnect = true ∧ ((dropUser w u).user u).data = none) ∨
      Queued none u (dropUser w u) ∨ Seated x u (dropUser w u) := by
  have hdata : ((w.setData u none).user u).data = none := by simp [setData, modUser]
  have hignore : ((w.setData u none).user u).ignoreDisconnect = (w.user u).ignoreDisconnect := by
    simp [setData, modUser]
  rcases disconnected_outcome (h.setData hu.unplaced none) (hu.setData none).managed _ _ hm' with
    ⟨htrue, heq⟩ | ⟨-, -, hplaced⟩
  · left
    rw [hignore] at htrue
    refine ⟨htrue, ?_⟩
    unfold dropUser
    rw [heq]
    exact hdata
  · right
    rw [hdata] at hplaced
    exact hplaced

end Operations

/-! ## Properties of single users -/

/-- A property of single users, in states where the backend `x` is being finished, that
holds for a seated user and for a waiting user without a backend, and that only operations
on the user himself can break. -/
structure Local (Q : Option BackendId → World → UserId → Prop) : Prop where
  same : ∀ {x w w' v}, SameLinks w w' → Q x w v → Q x w' v
  others : ∀ {x z w w' v}, Others z w w' → some v ≠ z → Q x w v → Q x w' v
  seated : ∀ {x w u}, Seated x u w → Q x w u
  queued : ∀ {x w u}, Queued none u w → Q x w u
  joined : ∀ {w w' v}, Link none none w → Joined w w' → Q none w v → Q none w' v
  marked : ∀ {c w v}, v ∉ (w.backends c).users → Q none w v → Q (some c) w v
  dropped : ∀ {c w v}, Q (some c) w v →
    Q none { w.modBackend c (fun b => { b with connection := false }) with
      clients := w.clients.filter fun b => b ≠ c } v

/-- The property holds for all users of `UserManager`. -/
def Everyone (Q : Option BackendId → World → UserId → Prop) (w : World) : Prop :=
  ∀ v, w.Managed v → Q none w v

/-- The events that neither disconnect a user of a backend nor end a backend. -/
def Event.benign : Event → Bool
  | .backendLost _ | .pingTimeout | .received _ (.disconnected ..) => false
  | _ => true

namespace Everyone

variable {Q : Option BackendId → World → UserId → Prop} {z : Option UserId} {w w' : World}
  {u : UserId}

theorem others (hQ : Local Q) (h : Everyone Q w) (ho : Others (some u) w w')
    (hu : w'.Managed u → Q none w' u) : Everyone Q w' := by
  intro v hv
  by_cases hvu : v = u
  · subst hvu
    exact hu hv
  · have hne : some v ≠ some u := by simpa using hvu
    exact hQ.others ho hne (h v ((ho.managed v hne).mp hv))

theorem frame (hQ : Local Q) (h : Everyone Q w) (ho : Others none w w') : Everyone Q w' := by
  intro v hv
  have hne : some v ≠ none := by simp
  exact hQ.others ho hne (h v ((ho.managed v hne).mp hv))

theorem same (hQ : Local Q) (h : Everyone Q w) (hs : SameLinks w w') : Everyone Q w' :=
  fun v hv => hQ.same hs (h v (hs.managed.mp hv))

theorem quiet {P : Effect → Prop} (hQ : Local Q) (h : Everyone Q w) (hq : Quiet P w w') :
    Everyone Q w' := h.same hQ hq.sameLinks

theorem front {P : Effect → Prop} (hQ : Local Q) (hlink : Link none none w) (h : Everyone Q w)
    (hf : Front P w w') : Everyone Q w' := by
  induction hf with
  | quiet hq => exact h.quiet hQ hq
  | @create w j info hnone =>
    have hdata : ((withUser j info w).user w.nextUser).data = none := by simp [withUser]
    rw [addUser_eq]
    refine h.others hQ ((Others.withUser hlink hnone).trans (others_created _ _)) fun _ => ?_
    rcases created_outcome (x := none) (w := withUser j info w) w.nextUser (by simp) with
      hqueued | hseated
    · rw [hdata] at hqueued
      exact hQ.queued hqueued
    · exact hQ.seated hseated
  | @remove w w₁ u j hu hq =>
    have hm := hlink.managed_of_users hu
    refine h.others hQ (((Others.erase hlink hm).trans (.of_quiet hq)).trans
      (others_destroyed u _)) fun hmanaged => ?_
    rw [(handleUserDestroyed_spec u w₁).managed, hq.sameLinks.managed] at hmanaged
    unfold Managed at hmanaged
    rw [hlink.toBare_jid hm] at hmanaged
    simp at hmanaged
  | trans hf _ ih ih' => exact ih' (hlink.front hf) (ih hlink h)

theorem serve (hQ : Local Q) (h : Everyone Q w) {rest : List UserId} {c : BackendId}
    (hwait : w.waitingUsers = u :: rest) (hpost : loginPostponed w = false)
    (hfind : findFree true false w = some c) : Everyone Q (serve u rest w) := by
  refine h.others hQ (others_serve hwait) fun _ => ?_
  have hpost' : loginPostponed { w with waitingUsers := rest } = false := hpost
  have hfind' : findFree true false { w with waitingUsers := rest } = some c := hfind
  exact hQ.seated ((created_seated (u := u) hpost' hfind').of_same
    (idle_serveLogin u _).sameLinks)

theorem connectWaitingUsers (hQ : Local Q) (h : Everyone Q w) :
    Everyone Q (connectWaitingUsers w) := by
  have hstart : Everyone Q (w.emit .connectWaitingUsers) :=
    h.quiet hQ (Quiet.emit (P := fun _ => True) trivial)
  refine drain_induction ?_ ?_ _ _ hstart
  · intro w₁ w₂ hs h₁
    exact h₁.frame hQ (.of_searched hs)
  · intro w₁ u rest c hwait hpost hfind h₁
    exact h₁.serve hQ hwait hpost hfind

theorem move (hQ : Local Q) (h : Everyone Q w) (u : UserId) :
    Everyone Q (moveToLongRunBackend u w).2 := by
  have ho := others_move u w
  rcases moveToLongRunBackend_cases u w with heq | ⟨w₁, hs, heq⟩ | heq |
    ⟨w₁, old, c, hs, -, -, -, hc, -, heq⟩
  · rw [heq]
    exact h
  · rw [heq]
    exact h.frame hQ (.of_searched hs)
  · rw [heq]
    exact h.frame hQ (.of_fields rfl (fun _ => rfl) (fun _ => rfl) rfl rfl)
  · rw [heq] at ho ⊢
    have hc₁ : c ∈ w₁.clients := by
      rw [hs.clients]
      exact hc
    refine h.others hQ ho fun _ => hQ.seated ?_
    refine Seated.of_same ?_ (idle_handleUserReadyToConnect u _).sameLinks
    exact seated_attach .moved hc₁ (by simp)

theorem moveUsers (hQ : Local Q) (h : Everyone Q w) (us : List UserId) :
    Everyone Q (moveUsers us w) := by
  induction us generalizing w with
  | nil => exact h
  | cons u us ih =>
    have hmove := h.move hQ u
    unfold NetworkPluginServer.moveUsers
    generalize moveToLongRunBackend u w = r at hmove
    obtain ⟨ok, w₁⟩ := r
    cases ok with
    | false => exact hmove
    | true => exact ih hmove

theorem moveIdleUsers (hQ : Local Q) (h : Everyone Q w) : Everyone Q (moveIdleUsers w) := by
  unfold NetworkPluginServer.moveIdleUsers
  split
  · exact h
  · exact h.moveUsers hQ _

/-! ## The end of a backend -/

/-- In the loop of `handleSessionFinished`: the users that are not to be disconnected any more
have the property, and so has a user that ignores his disconnection once he has no backend. -/
structure Finishing (Q : Option BackendId → World → UserId → Prop) (c : BackendId)
    (us : List UserId) (w : World) : Prop where
  ignored : ∀ v ∈ us, (w.user v).ignoreDisconnect = true → ∀ w₁ : World,
    (w₁.user v).data = none → Q (some c) w₁ v
  done : ∀ v, v ∉ us → w.Managed v → Q (some c) w v

theorem Finishing.step (hQ : Local Q) {c : BackendId} {us : List UserId} (hnot : u ∉ us)
    (hlink : Link (some c) none w) (hu : Pending (some c) u w) (h : Finishing Q c (u :: us) w) :
    Finishing Q c us (dropUser w u) := by
  have ho := others_dropUser hlink hu
  refine ⟨?_, ?_⟩
  · intro v hv htrue
    have hne : some v ≠ some u := by
      intro heq
      cases heq
      exact hnot hv
    rw [ho.ignoreDisconnect hne] at htrue
    exact h.ignored v (List.mem_cons_of_mem u hv) htrue
  · intro v hv hm
    by_cases hvu : v = u
    · subst hvu
      rcases dropUser_outcome hlink hu hm with ⟨htrue, hdata⟩ | hqueued | hseated
      · exact h.ignored v List.mem_cons_self htrue _ hdata
      · exact hQ.queued hqueued
      · exact hQ.seated hseated
    · have hvne : some v ≠ some u := by simpa using hvu
      refine hQ.others ho hvne (h.done v ?_ ((ho.managed v hvne).mp hm))
      simp [hvu, hv]

theorem finished (hQ : Local Q) (hlink : Link none none w) (h : Everyone Q w) (c : BackendId)
    (hignore : ∀ v ∈ (w.backends c).users, (w.user v).ignoreDisconnect = true →
      ∀ w₁ : World, (w₁.user v).data = none → Q (some c) w₁ v) :
    Everyone Q (handleSessionFinished c w) := by
  by_cases hc : c ∈ w.clients
  · obtain ⟨w₁, w₂, hq₁, hq₂, heq⟩ := handleSessionFinished_steps hc
    have hmark : Others none w (markDying c w) :=
      .of_fields rfl (fun _ => rfl) (markDying_users c) rfl rfl
    have ho₁ := hmark.trans (.of_idle hq₁)
    have hstart : Finishing Q c (w.backends c).users w₁ := by
      refine ⟨?_, ?_⟩
      · intro v hv htrue
        rw [ho₁.ignoreDisconnect (by simp)] at htrue
        exact hignore v hv htrue
      · intro v hv hm
        exact hQ.others ho₁ (by simp) (hQ.marked hv (h v ((ho₁.managed v (by simp)).mp hm)))
    obtain ⟨-, hloop⟩ := dropUsers_induction (I := Finishing Q c)
      (fun u us w hnot hlink hu _ h => h.step hQ hnot hlink hu)
      (hlink.users_nodup c hc (by simp)) ((hlink.markDying c).of_same hq₁.sameLinks)
      (fun v hv => (pending_markDying hlink hc v hv).of_same hq₁.sameLinks) hstart
    rw [heq]
    intro v hv
    have ho₂ : Others none _ w₂ := .of_idle hq₂
    have hdone := hloop.done v (by simp) ((ho₂.managed v (by simp)).mp hv)
    exact hQ.dropped (hQ.others ho₂ (by simp) hdone)
  · unfold handleSessionFinished
    rw [if_pos hc]
    exact h.frame hQ (.of_fields rfl (fun _ => rfl) (fun _ => rfl) rfl rfl)

/-! ## Events -/

theorem noteData (hQ : Local Q) (h : Everyone Q w) (b : BackendId) :
    Everyone Q (noteData b w) := h.frame hQ (.noteData b)

theorem pong (hQ : Local Q) (h : Everyone Q w) (b : BackendId) :
    Everyone Q (handlePongReceived b w) := by
  have hemit : Everyone Q (w.emit (.pong b)) := h.quiet hQ (Quiet.emit (P := fun _ => True) trivial)
  have hstart : ∀ w₁, Everyone Q w₁ → Everyone Q (startComponent w₁) :=
    fun w₁ h₁ => h₁.quiet hQ (quiet_startComponent w₁)
  simp only [handlePongReceived]
  split
  · refine frame hQ (connectWaitingUsers hQ (hstart _ (hemit.frame hQ (.modBackend ?_))))
      (.modBackend ?_)
    · intro c
      rfl
    · intro c
      rfl
  · exact hemit.frame hQ (.modBackend fun _ => rfl)

theorem connected (hQ : Local Q) (h : Everyone Q w) (j : Jid) :
    Everyone Q (handleConnectedPayload j w) := by
  unfold handleConnectedPayload
  split
  · exact h
  · rename_i u _
    have hmark : SameLinks w (markConnected u w) := sameLinks_modUser (fun _ => rfl) (fun _ => rfl)
    exact ((h.same hQ hmark).quiet hQ (quiet_setConnected u w)).quiet hQ (quiet_onPasswordValid _ j)

theorem run (hQ : Local Q) (hlink : Link none none w) (h : Everyone Q w) {e : Event}
    (he : e.benign = true) : Everyone Q (e.run w) := by
  cases e with
  | clock now => exact h.frame hQ (.of_fields rfl (fun _ => rfl) (fun _ => rfl) rfl rfl)
  | backendConnected =>
    have hj := joined_newBackend w
    intro v hv
    refine hQ.joined hlink hj (h v ?_)
    unfold Managed at hv ⊢
    simp only [Event.run] at hv
    rw [hj.users, hj.user] at hv
    exact hv
  | backendLost b => cases he
  | received b m =>
    have hnote := h.noteData hQ b
    cases m with
    | connected j _ => exact hnote.connected hQ j
    | disconnected j error message => cases he
    | pong => exact hnote.pong hQ b
    | stats res id =>
      simp only [Event.run, handleMessage, handleStatsPayload]
      exact hnote.frame hQ (.modBackend fun _ => rfl)
    | other => exact hnote
  | pingTimeout => cases he
  | loginDelay =>
    have hstop : Everyone Q { w with loginTimer := false } :=
      h.frame hQ (.of_fields rfl (fun _ => rfl) (fun _ => rfl) rfl rfl)
    exact hstop.connectWaitingUsers hQ
  | collect =>
    simp only [Event.run, collectBackend]
    split
    · exact h
    · exact h.frame hQ (.modBackend fun _ => rfl)
  | activity u => exact h.same hQ (sameLinks_activity u)
  | _ => exact h.front hQ hlink (front_run rfl w)

end Everyone

end Spectrum
