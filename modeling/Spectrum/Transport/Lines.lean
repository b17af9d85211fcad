import Spectrum.Transport.FrontendSteps
import Spectrum.Transport.Logins

/-!
# The log and the state

`Lines` ties the log to the state: the users of a backend are those with an open assignment to
it, and a user who is not ready has none of his LOGINs sent. As in `Link`, the backend `x` that
is being finished is left out.
-/

namespace Spectrum

open World NetworkPluginServer

/-- The open assignment of a user. -/
def World.phase (w : World) (u : UserId) : Option (BackendId × Nat) :=
  openLogins u (w.user u).jid.toBare w.log

structure Lines (x : Option BackendId) (w : World) : Prop where
  slots : ∀ u, (w.user u).slots ≤ 1
  waiting : ∀ u ∈ w.waitingUsers, (w.user u).slots = 0
  assigned : ∀ how u b state, Effect.assign how u b state ∈ w.log →
    u < w.nextUser ∧ b < w.nextBackend
  fresh : ∀ u b, (w.user u).data = some b → b < w.nextBackend
  phase : ∀ b ∈ w.clients, some b ≠ x → ∀ u ∈ (w.backends b).users,
    ∃ n, w.phase u = some (b, n) ∧ ((w.user u).readyForConnect = false → n = 0)
  listed : ∀ u b n, w.phase u = some (b, n) → b ∈ w.clients → some b ≠ x →
    u ∈ (w.backends b).users
  wired : ∀ u b, w.Managed u → (w.user u).slots ≠ 0 → (w.user u).data = some b →
    b ∈ w.clients → some b ≠ x → u ∈ (w.backends b).users
  order : LoginsInOrder w.user w.log

/-- Nobody else at these backends has the JID of the user. -/
def Alone (x : Option BackendId) (u : UserId) (w : World) : Prop :=
  ∀ b ∈ w.clients, some b ≠ x → ∀ v ∈ (w.backends b).users, v ≠ u →
    (w.user v).jid.toBare ≠ (w.user u).jid.toBare

/-- The backend of the user, if there is one, has got no LOGIN for him yet. -/
def Unserved (x : Option BackendId) (u : UserId) (w : World) : Prop :=
  ∀ c, (w.user u).data = some c → c ∈ w.clients →
    some c ≠ x ∧ u ∈ (w.backends c).users ∧ w.phase u = some (c, 0)

section Lines

variable {x : Option BackendId} {z : Option UserId} {w w' : World} {u v : UserId}
  {b c : BackendId} {n : Nat}

theorem lines_start (cfg : Config) (now : Int) (storage : Option (Jid → Option UserInfo)) :
    Lines none (World.start cfg now storage) := by
  refine ⟨fun _ => Nat.zero_le 1, ?_, ?_, ?_, ?_, ?_, ?_, .nil⟩
  · intro u hu
    cases hu
  · intro how u b state hmem
    cases hmem
  · intro u b hdata
    cases hdata
  · intro b hb
    cases hb
  · intro u b n _ hb
    cases hb
  · intro u b _ _ _ hb
    cases hb

theorem Link.alone (h : Link x none w) (hu : w.Managed u) : Alone x u w := by
  intro b hb hbx v hv hne heq
  have hm := h.listed_managed b hb hbx v hv (by simp)
  rw [h.toBare_jid hm, h.toBare_jid hu] at heq
  unfold Managed at hm hu
  rw [heq, hu] at hm
  exact hne (Option.some.inj hm).symm

theorem Still.phase (h : Still w w') (v : UserId) : w'.phase v = w.phase v := by
  obtain ⟨l, hl, hmum⟩ := h.log
  unfold World.phase
  rw [h.jid, hl, openLogins_mums hmum]

theorem Still.sameLinks (h : Still w w') : SameLinks w w' :=
  ⟨h.clients, h.nextBackend, h.waitingUsers, h.users, h.nextUser, h.usersOf,
    fun b hb => by rw [h.willDie]; exact hb, h.data, h.jid⟩

theorem Still.assigned (h : Still w w') {how : Assignment} {state : Backend}
    (hmem : Effect.assign how v b state ∈ w'.log) : Effect.assign how v b state ∈ w.log := by
  obtain ⟨l, hl, hmum⟩ := h.log
  rw [hl] at hmem
  rcases List.mem_append.mp hmem with hmem | hmem
  · exact (hmum _ hmem).elim
  · exact hmem

theorem Alone.still (h : Alone x u w) (hs : Still w w') : Alone x u w' := by
  intro b hb hbx v hv hne
  rw [hs.clients] at hb
  rw [hs.usersOf] at hv
  rw [hs.jid, hs.jid]
  exact h b hb hbx v hv hne

theorem Lines.still (h : Lines x w) (hs : Still w w') : Lines x w' where
  slots := fun u => by rw [hs.slots]; exact h.slots u
  waiting := by
    intro u hu
    rw [hs.waitingUsers] at hu
    rw [hs.slots]
    exact h.waiting u hu
  assigned := by
    intro how u b state hmem
    rw [hs.nextUser, hs.nextBackend]
    exact h.assigned how u b state (hs.assigned hmem)
  fresh := by
    intro u b hdata
    rw [hs.data] at hdata
    rw [hs.nextBackend]
    exact h.fresh u b hdata
  phase := by
    intro b hb hbx u hu
    rw [hs.clients] at hb
    rw [hs.usersOf] at hu
    rw [hs.phase, hs.ready]
    exact h.phase b hb hbx u hu
  listed := by
    intro u b n ho hb hbx
    rw [hs.phase] at ho
    rw [hs.clients] at hb
    rw [hs.usersOf]
    exact h.listed u b n ho hb hbx
  wired := by
    intro u b hm hslots hdata hb hbx
    rw [hs.slots] at hslots
    rw [hs.data] at hdata
    rw [hs.clients] at hb
    rw [hs.usersOf]
    exact h.wired u b (hs.sameLinks.managed.mp hm) hslots hdata hb hbx
  order := by
    obtain ⟨l, hl, hmum⟩ := hs.log
    rw [hl]
    refine LoginsInOrder.mums (h.order.mono ?_ ?_) hmum
    · exact fun v _ _ _ _ => hs.jid v
    · intro v _ _ _ _ hv
      rw [hs.ready]
      exact hv

/-- A backend that is being finished is left out. -/
theorem Lines.weaken (h : Lines none w) : Lines x w where
  slots := h.slots
  waiting := h.waiting
  assigned := h.assigned
  fresh := h.fresh
  phase := fun b hb _ => h.phase b hb (by simp)
  listed := fun u b n ho hb _ => h.listed u b n ho hb (by simp)
  wired := fun u b hm hslots hdata hb _ => h.wired u b hm hslots hdata hb (by simp)
  order := h.order

/-! ## LOGINs -/

/-- The LOGIN of a user leaves the open assignments of the others alone. -/
theorem phase_login_of_ne (h : Lines x w) (halone : Alone x u w) (hb : b ∈ w.clients)
    (hbx : some b ≠ x) (name password : String) (hv : v ≠ u) :
    (w.emit (.send b (.login (w.user u).jid.toBare name password))).phase v = w.phase v := by
  refine openLogins_login_of_ne fun n ho heq => ?_
  exact halone b hb hbx v (h.listed v b n ho hb hbx) hv heq.symm

theorem Lines.login (h : Lines x w) (halone : Alone x u w)
    (hready : (w.user u).readyForConnect = true) (hb : b ∈ w.clients) (hbx : some b ≠ x)
    (hu : u ∈ (w.backends b).users) (hphase : w.phase u = some (b, 0)) (name password : String) :
    Lines x (w.emit (.send b (.login (w.user u).jid.toBare name password))) := by
  have hself : (w.emit (.send b (.login (w.user u).jid.toBare name password))).phase u =
      some (b, 1) := openLogins_login hphase
  have hother : ∀ v, v ≠ u →
      (w.emit (.send b (.login (w.user u).jid.toBare name password))).phase v = w.phase v :=
    fun v hv => phase_login_of_ne h halone hb hbx name password hv
  refine ⟨h.slots, h.waiting, ?_, h.fresh, ?_, ?_, h.wired, ?_⟩
  · intro how v c state hmem
    rcases List.mem_cons.mp hmem with hmem | hmem
    · cases hmem
    · exact h.assigned how v c state hmem
  · intro c hc hcx v hv
    by_cases hvu : v = u
    · subst hvu
      obtain ⟨m, hm, -⟩ := h.phase c hc hcx v hv
      rw [hphase] at hm
      cases hm
      refine ⟨1, hself, fun hnot => ?_⟩
      rw [show (w.user v).readyForConnect = false from hnot] at hready
      cases hready
    · rw [hother v hvu]
      exact h.phase c hc hcx v hv
  · intro v c m ho hc hcx
    by_cases hvu : v = u
    · subst hvu
      rw [hself] at ho
      cases ho
      exact hu
    · rw [hother v hvu] at ho
      exact h.listed v c m ho hc hcx
  · refine h.order.cons (fun v c m ho => ?_) ?_
    · by_cases hvu : v = u
      · subst hvu
        cases hself.symm.trans ho
        exact Nat.le_refl 1
      · exact h.order.last ((hother v hvu).symm.trans ho)
    · rintro c j name' password' heq
      cases heq
      exact ⟨u, rfl, hready, hphase⟩

theorem Lines.readyToConnect (h : Lines x w) (halone : Alone x u w)
    (hready : (w.user u).readyForConnect = true) (hun : Unserved x u w) :
    Lines x (handleUserReadyToConnect u w) := by
  have hlogin : Lines x (sendToBackendOf u
      (.login (w.user u).jid.toBare (w.user u).info.uin (w.user u).info.password) w) := by
    unfold sendToBackendOf
    split
    · exact h
    · rename_i c hdata
      unfold send
      split
      · rename_i hc
        obtain ⟨hcx, hmem, hphase⟩ := hun c hdata hc
        exact h.login halone hready hc hcx hmem hphase _ _
      · exact h.still (.of_same rfl)
  simp only [handleUserReadyToConnect]
  split
  · exact hlogin.still (still_sendToBackendOf u _ fun _ => trivial)
  · exact hlogin

/-- The handlers of a ready user run at most once. -/
theorem Lines.onReadyToConnect (h : Lines x w) (halone : Alone x u w)
    (hready : (w.user u).readyForConnect = true)
    (hun : (w.user u).slots ≠ 0 → Unserved x u w) : Lines x (User.onReadyToConnect u w) := by
  unfold User.onReadyToConnect
  have hle := h.slots u
  match hslots : (w.user u).slots with
  | 0 => exact h
  | 1 => exact h.readyToConnect halone hready (hun (by rw [hslots]; exact Nat.one_ne_zero))
  | m + 2 =>
    rw [hslots] at hle
    exact absurd hle (by omega)

/-! ## Assigning -/

/-- The user was assigned to a backend and is at no other one. -/
structure Placed (x : Option BackendId) (u : UserId) (c : BackendId) (w w' : World) : Prop where
  clients : w'.clients = w.clients
  nextBackend : w'.nextBackend = w.nextBackend
  waitingUsers : w'.waitingUsers = w.waitingUsers
  users : w'.users = w.users
  nextUser : w'.nextUser = w.nextUser
  usersOf : ∀ b ∈ w.clients, some b ≠ x → ∀ v,
    v ∈ (w'.backends b).users ↔ v ≠ u ∧ v ∈ (w.backends b).users ∨ v = u ∧ b = c
  line : ∀ v, v ≠ u → (w'.user v).line = (w.user v).line
  jid : (w'.user u).jid = (w.user u).jid
  ready : (w'.user u).readyForConnect = (w.user u).readyForConnect
  data : (w'.user u).data = some c
  log : ∃ how state, w'.log = .assign how u c state :: w.log

theorem Placed.jids (h : Placed x u c w w') (v : UserId) : (w'.user v).jid = (w.user v).jid := by
  by_cases hv : v = u
  · rw [hv]
    exact h.jid
  · exact congrArg (fun l => l.1) (h.line v hv)

theorem Placed.phase (h : Placed x u c w w') (v : UserId) :
    w'.phase v = if v = u then some (c, 0) else w.phase v := by
  obtain ⟨how, state, hlog⟩ := h.log
  unfold World.phase
  rw [h.jids, hlog, openLogins_assign]
  by_cases hv : v = u
  · rw [if_pos hv, if_pos hv.symm]
  · rw [if_neg hv, if_neg (Ne.symm hv)]

theorem Placed.slots (h : Placed x u c w w') {v : UserId} (hv : v ≠ u) :
    (w'.user v).slots = (w.user v).slots :=
  congrArg (fun l => l.2.2.1) (h.line v hv)

theorem Placed.data_of_ne (h : Placed x u c w w') {v : UserId} (hv : v ≠ u) :
    (w'.user v).data = (w.user v).data :=
  congrArg (fun l => l.2.1) (h.line v hv)

theorem Placed.readies (h : Placed x u c w w') (v : UserId) :
    (w'.user v).readyForConnect = (w.user v).readyForConnect := by
  by_cases hv : v = u
  · rw [hv]
    exact h.ready
  · exact congrArg (fun l => l.2.2.2) (h.line v hv)

theorem Placed.managed (h : Placed x u c w w') (v : UserId) : w'.Managed v ↔ w.Managed v := by
  unfold Managed
  rw [h.users, h.jids]

theorem Placed.order (h : Placed x u c w w') (ho : LoginsInOrder w.user w.log) :
    LoginsInOrder w'.user w'.log := by
  obtain ⟨how, state, hlog⟩ := h.log
  rw [hlog]
  refine LoginsInOrder.cons (ho.mono (fun v _ _ _ _ => h.jids v) ?_) ?_ ?_
  · intro v _ _ _ _ hv
    rw [h.readies]
    exact hv
  · intro v b n hopen
    have hphase : w'.phase v = some (b, n) := by
      unfold World.phase
      rw [hlog]
      exact hopen
    rw [h.phase] at hphase
    split at hphase
    · cases hphase
      exact Nat.zero_le 1
    · exact ho.last hphase
  · rintro b j name password heq
    cases heq

theorem Lines.placed (h : Lines x w) (hp : Placed x u c w w') (hc : c < w.nextBackend)
    (hu : u < w.nextUser) (hwait : u ∉ w.waitingUsers) (hslots : (w'.user u).slots ≤ 1) :
    Lines x w' := by
  refine ⟨?_, ?_, ?_, ?_, ?_, ?_, ?_, hp.order h.order⟩
  · intro v
    by_cases hv : v = u
    · rw [hv]
      exact hslots
    · rw [hp.slots hv]
      exact h.slots v
  · intro v hv
    rw [hp.waitingUsers] at hv
    have hne : v ≠ u := by
      rintro rfl
      exact hwait hv
    rw [hp.slots hne]
    exact h.waiting v hv
  · intro how v b state hmem
    obtain ⟨how', state', hlog⟩ := hp.log
    rw [hp.nextUser, hp.nextBackend]
    rw [hlog] at hmem
    rcases List.mem_cons.mp hmem with heq | hmem
    · cases heq
      exact ⟨hu, hc⟩
    · exact h.assigned how v b state hmem
  · intro v b hdata
    rw [hp.nextBackend]
    by_cases hv : v = u
    · rw [hv, hp.data] at hdata
      cases hdata
      exact hc
    · rw [hp.data_of_ne hv] at hdata
      exact h.fresh v b hdata
  · intro b hb hbx v hv
    rw [hp.clients] at hb
    rw [hp.phase, hp.readies]
    rcases (hp.usersOf b hb hbx v).mp hv with ⟨hne, hmem⟩ | ⟨rfl, rfl⟩
    · rw [if_neg hne]
      exact h.phase b hb hbx v hmem
    · exact ⟨0, if_pos rfl, fun _ => rfl⟩
  · intro v b n ho hb hbx
    rw [hp.clients] at hb
    rw [hp.phase] at ho
    apply (hp.usersOf b hb hbx v).mpr
    by_cases hv : v = u
    · rw [if_pos hv] at ho
      cases ho
      exact .inr ⟨hv, rfl⟩
    · rw [if_neg hv] at ho
      exact .inl ⟨hv, h.listed v b n ho hb hbx⟩
  · intro v b hm hs hdata hb hbx
    rw [hp.clients] at hb
    apply (hp.usersOf b hb hbx v).mpr
    by_cases hv : v = u
    · rw [hv, hp.data] at hdata
      exact .inr ⟨hv, (Option.some.inj hdata).symm⟩
    · rw [hp.data_of_ne hv] at hdata
      rw [hp.slots hv] at hs
      exact .inl ⟨hv, h.wired v b ((hp.managed v).mp hm) hs hdata hb hbx⟩

theorem Placed.unserved (h : Placed x u c w w') (hc : c ∈ w.clients) (hcx : some c ≠ x) :
    Unserved x u w' := by
  intro b hb _
  rw [h.data] at hb
  cases hb
  exact ⟨hcx, (h.usersOf c hc hcx u).mpr (.inr ⟨rfl, rfl⟩), by rw [h.phase, if_pos rfl]⟩

theorem Alone.placed (h : Alone x u w) (hp : Placed x u c w w') : Alone x u w' := by
  intro b hb hbx v hv hne
  rw [hp.clients] at hb
  rw [hp.jids, hp.jids]
  rcases (hp.usersOf b hb hbx v).mp hv with ⟨-, hmem⟩ | ⟨heq, -⟩
  · exact h b hb hbx v hmem hne
  · exact absurd heq hne

theorem placed_created (hun : Unplaced x u w) (c : BackendId) :
    Placed x u c w (connectSlots u (attach .created u c w)) := by
  refine ⟨rfl, rfl, rfl, rfl, rfl, ?_, ?_, ?_, ?_, ?_, ⟨.created, w.backends c, rfl⟩⟩
  · intro b hb hbx v
    rw [show ((connectSlots u (attach .created u c w)).backends b).users =
      ((attach .created u c w).backends b).users from rfl, attach_usersOf]
    by_cases hv : v = u
    · subst hv
      have hnot := hun.not_listed b hb hbx
      split
      · rename_i hbc
        simp [hbc]
      · rename_i hbc
        simp [hnot, hbc]
    · split
      · simp [hv]
      · simp [hv]
  · intro v hv
    simp [connectSlots, modUser, attach_user, Function.update_of_ne hv]
  · rw [sameLinks_connectSlots.jid]
    exact attach_jid u
  · simp [connectSlots, modUser, attach_user]
  · rw [sameLinks_connectSlots.data, attach_data, if_pos rfl]

theorem Lines.enqueue (h : Lines x w) (hslots : (w.user u).slots = 0) :
    Lines x { w with waitingUsers := w.waitingUsers ++ [u] } := by
  refine ⟨h.slots, ?_, h.assigned, h.fresh, h.phase, h.listed, h.wired, h.order⟩
  intro v hv
  rcases List.mem_append.mp hv with hv | hv
  · exact h.waiting v hv
  · rw [List.mem_singleton.mp hv]
    exact hslots

/-- `handleUserCreated` of a user without handlers: the LOGIN is still to come. -/
theorem Lines.created (h : Lines x w) (hlink : Link x z w) (hun : Unplaced x u w)
    (hu : u < w.nextUser) (hslots : (w.user u).slots = 0) :
    Lines x (handleUserCreated u w) ∧
      (((handleUserCreated u w).user u).slots ≠ 0 → Unserved x u (handleUserCreated u w)) := by
  obtain ⟨w₁, hs, ⟨-, heq⟩ | ⟨c, hc, hfree, heq⟩⟩ := handleUserCreated_cases u w
  · have hstill := Still.of_searched hs
    have hslots₁ : (w₁.user u).slots = 0 := (hstill.slots u).trans hslots
    rw [heq]
    exact ⟨(h.still hstill).enqueue hslots₁, fun hne => absurd hslots₁ hne⟩
  · have hstill := Still.of_searched hs
    have hsame := hs.sameLinks
    have hcx : some c ≠ x := by
      intro hcx
      have hdie := hlink.dying c hcx
      rw [(isFree_iff.mp hfree).1] at hdie
      cases hdie
    have hun₁ := hun.of_same hsame
    have hp := placed_created hun₁ c
    have hslots₁ : (w₁.user u).slots = 0 := (hstill.slots u).trans hslots
    have hone : ((connectSlots u (attach .created u c w₁)).user u).slots ≤ 1 := by
      simp [connectSlots, modUser, attach_user, hslots₁]
    rw [heq]
    refine ⟨(h.still hstill).placed hp ?_ ?_ hun₁.not_waiting hone, fun _ => ?_⟩
    · rw [hsame.nextBackend]
      exact hlink.fresh c hc
    · rw [hsame.nextUser]
      exact hu
    · refine hp.unserved ?_ hcx
      rw [hsame.clients]
      exact hc

/-- What `handleUserCreated` keeps of the user himself. -/
theorem created_self (u : UserId) (w : World) :
    ((handleUserCreated u w).user u).readyForConnect = (w.user u).readyForConnect := by
  obtain ⟨w₁, hs, ⟨-, heq⟩ | ⟨c, -, -, heq⟩⟩ := handleUserCreated_cases u w
  · rw [heq]
    exact (Still.of_searched hs).ready u
  · rw [heq, ← (Still.of_searched hs).ready u]
    simp [connectSlots, modUser, attach_user]

theorem created_managed (u v : UserId) (w : World) :
    (handleUserCreated u w).Managed v ↔ w.Managed v := by
  obtain ⟨w₁, hs, ⟨-, heq⟩ | ⟨c, -, -, heq⟩⟩ := handleUserCreated_cases u w
  · rw [heq]
    exact hs.sameLinks.managed
  · rw [heq, sameLinks_connectSlots.managed, attach_managed]
    exact hs.sameLinks.managed

/-! ## Releasing -/

theorem handleUserDestroyed_log (u : UserId) (w : World) : (handleUserDestroyed u w).log =
    match (w.user u).data with
    | none => w.log
    | some c =>
      if c ∈ w.clients then
        .send c (.logout (w.user u).jid.toBare (w.user u).info.uin) :: w.log
      else w.log := by
  have hend : ∀ (c : BackendId) (w : World), (dieIfEmpty c (removeFrom u c w)).log = w.log := by
    intro c w
    unfold dieIfEmpty
    split
    · rfl
    · rfl
  simp only [handleUserDestroyed]
  generalize hw₁ : modUser u (fun x => { x with slots := 0 })
    { w with waitingUsers := w.waitingUsers.filter fun v => v ≠ u } = w₁
  obtain ⟨hself, hclients, hlog⟩ : w₁.user u = { w.user u with slots := 0 } ∧
      w₁.clients = w.clients ∧ w₁.log = w.log := by
    subst hw₁
    simp [modUser]
  rw [hself]
  dsimp only
  cases (w.user u).data with
  | none => exact hlog
  | some c =>
    dsimp only
    rw [hend, ← hclients, ← hlog]
    unfold send
    split
    · rfl
    · rfl

/-- The LOGOUT of a user closes his assignment and leaves those of the others alone. -/
theorem phase_destroyed (h : Lines x w) (halone : Alone x u w)
    (hdata : ∀ c, (w.user u).data = some c → some c ≠ x) :
    (∀ v, v ≠ u → (handleUserDestroyed u w).phase v = w.phase v) ∧
      ∀ b n, (handleUserDestroyed u w).phase u = some (b, n) →
        w.phase u = some (b, n) ∧ (b ∈ w.clients → (w.user u).data ≠ some b) := by
  have hd := handleUserDestroyed_spec u w
  have hlog := handleUserDestroyed_log u w
  unfold World.phase
  simp only [hd.jid]
  cases hc : (w.user u).data with
  | none =>
    rw [hc] at hlog
    rw [hlog]
    exact ⟨fun _ _ => rfl, fun b n ho => ⟨ho, fun _ hb => nomatch hb⟩⟩
  | some c =>
    rw [hc] at hlog
    dsimp only at hlog
    split at hlog
    · rename_i hmem
      rw [hlog]
      refine ⟨fun v hv => openLogins_logout_of_ne fun n ho heq => ?_, fun b n ho => ?_⟩
      · exact halone c hmem (hdata c hc) v (h.listed v c n ho hmem (hdata c hc)) hv heq.symm
      · obtain ⟨hopen, hne⟩ := openLogins_logout ho
        exact ⟨hopen, fun _ heq => hne (Option.some.inj heq).symm⟩
    · rename_i hmem
      rw [hlog]
      refine ⟨fun _ _ => rfl, fun b n ho => ⟨ho, fun hb heq => hmem ?_⟩⟩
      rw [Option.some.inj heq]
      exact hb

theorem ready_destroyed (u v : UserId) (w : World) :
    ((handleUserDestroyed u w).user v).readyForConnect = (w.user v).readyForConnect := by
  rw [(handleUserDestroyed_spec u w).user]
  by_cases hv : v = u
  · subst hv
    simp
  · rw [Function.update_of_ne hv]

theorem Lines.order_destroyed (h : Lines x w) (halone : Alone x u w)
    (hdata : ∀ c, (w.user u).data = some c → some c ≠ x) :
    LoginsInOrder (handleUserDestroyed u w).user (handleUserDestroyed u w).log := by
  obtain ⟨hother, hself⟩ := phase_destroyed h halone hdata
  have hmono : LoginsInOrder (handleUserDestroyed u w).user w.log := by
    refine h.order.mono (fun v _ _ _ _ => (handleUserDestroyed_spec u w).jid v) ?_
    intro v _ _ _ _ hv
    rw [ready_destroyed]
    exact hv
  have honce : ∀ v b n, (handleUserDestroyed u w).phase v = some (b, n) → n ≤ 1 := by
    intro v b n ho
    by_cases hv : v = u
    · subst hv
      exact h.order.last (hself b n ho).1
    · exact h.order.last ((hother v hv).symm.trans ho)
  have hlog := handleUserDestroyed_log u w
  unfold World.phase at honce
  split at hlog
  · rw [hlog]
    exact hmono
  · split at hlog
    · rw [hlog] at honce ⊢
      refine hmono.cons honce ?_
      rintro b j name password heq
      cases heq
    · rw [hlog]
      exact hmono

theorem Lines.destroyed (h : Lines x w) (halone : Alone x u w)
    (hdata : ∀ c, (w.user u).data = some c → some c ≠ x)
    (hlinked : ∀ b ∈ w.clients, some b ≠ x → u ∈ (w.backends b).users →
      (w.user u).data = some b) : Lines x (handleUserDestroyed u w) := by
  have hd := handleUserDestroyed_spec u w
  obtain ⟨hother, hself⟩ := phase_destroyed h halone hdata
  have hslot : ∀ v, v ≠ u → ((handleUserDestroyed u w).user v).slots = (w.user v).slots := by
    intro v hv
    rw [hd.user, Function.update_of_ne hv]
  have hgone : ∀ b ∈ w.clients, some b ≠ x →
      u ∉ ((handleUserDestroyed u w).backends b).users := by
    intro b hb hbx hmem
    have hb' := hlinked b hb hbx ((hd.usersOf_subset b).subset hmem)
    rw [hd.usersOf b, if_pos hb'] at hmem
    simp at hmem
  refine ⟨?_, ?_, ?_, ?_, ?_, ?_, ?_, h.order_destroyed halone hdata⟩
  · intro v
    by_cases hv : v = u
    · subst hv
      rw [hd.user]
      simp
    · rw [hslot v hv]
      exact h.slots v
  · intro v hv
    rw [hd.waitingUsers] at hv
    obtain ⟨hmem, hne⟩ := List.mem_filter.mp hv
    rw [hslot v (by simpa using hne)]
    exact h.waiting v hmem
  · intro how v b state hmem
    rw [hd.nextUser, hd.nextBackend]
    obtain ⟨l, hl, hplain⟩ := hd.log
    rw [hl] at hmem
    rcases List.mem_append.mp hmem with hmem | hmem
    · exact (hplain _ hmem).elim
    · exact h.assigned how v b state hmem
  · intro v b hdata'
    rw [hd.data] at hdata'
    rw [hd.nextBackend]
    exact h.fresh v b hdata'
  · intro b hb hbx v hv
    rw [hd.clients] at hb
    have hne : v ≠ u := by
      rintro rfl
      exact hgone b hb hbx hv
    rw [hother v hne, ready_destroyed]
    exact h.phase b hb hbx v ((hd.mem_usersOf hne).mp hv)
  · intro v b n ho hb hbx
    rw [hd.clients] at hb
    by_cases hv : v = u
    · subst hv
      obtain ⟨hopen, hnot⟩ := hself b n ho
      exact absurd (hlinked b hb hbx (h.listed v b n hopen hb hbx)) (hnot hb)
    · rw [hother v hv] at ho
      exact (hd.mem_usersOf hv).mpr (h.listed v b n ho hb hbx)
  · intro v b hm hs hdata' hb hbx
    rw [hd.clients] at hb
    have hne : v ≠ u := by
      rintro rfl
      rw [hd.user] at hs
      simp at hs
    rw [hslot v hne] at hs
    rw [hd.data] at hdata'
    exact (hd.mem_usersOf hne).mpr (h.wired v b ((hd.managed v).mp hm) hs hdata' hb hbx)

/-! ## Users come and go -/

/-- Users are taken from the map. -/
theorem Lines.of_map (h : Lines x w) {users : Jid → Option UserId}
    (hm : ∀ v, World.Managed { w with users := users } v → w.Managed v) :
    Lines x { w with users := users } :=
  ⟨h.slots, h.waiting, h.assigned, h.fresh, h.phase, h.listed,
    fun u b hu hslots hdata hb hbx => h.wired u b (hm u hu) hslots hdata hb hbx, h.order⟩

/-- A user of whom the log says nothing has no open assignment. -/
theorem Lines.lt_of_phase (h : Lines x w) {j : Jid} (ho : openLogins v j w.log = some (b, n)) :
    v < w.nextUser := by
  obtain ⟨how, state, hmem⟩ := mem_of_openLogins ho
  exact (h.assigned how v b state hmem).1

theorem Lines.withUser (h : Lines x w) (j : Jid) (info : UserInfo) :
    Lines x (withUser j info w) := by
  have hold : ∀ v, v ≠ w.nextUser → (Spectrum.withUser j info w).user v = w.user v := by
    intro v hv
    simp [Spectrum.withUser, Function.update_of_ne hv]
  have hnew : ((Spectrum.withUser j info w).user w.nextUser).slots = 0 := by
    simp [Spectrum.withUser]
  have hphase : ∀ v b n, (Spectrum.withUser j info w).phase v = some (b, n) →
      v ≠ w.nextUser ∧ w.phase v = some (b, n) := by
    intro v b n ho
    have hne := Nat.ne_of_lt (h.lt_of_phase ho)
    unfold World.phase at ho ⊢
    rw [hold v hne] at ho
    exact ⟨hne, ho⟩
  refine ⟨?_, ?_, ?_, ?_, ?_, ?_, ?_, ?_⟩
  · intro v
    by_cases hv : v = w.nextUser
    · subst hv
      rw [hnew]
      exact Nat.zero_le 1
    · rw [hold v hv]
      exact h.slots v
  · intro v hv
    by_cases hvn : v = w.nextUser
    · subst hvn
      exact hnew
    · rw [hold v hvn]
      exact h.waiting v hv
  · intro how v b state hmem
    obtain ⟨hv, hb⟩ := h.assigned how v b state hmem
    exact ⟨Nat.lt_succ_of_lt hv, hb⟩
  · intro v b hdata
    by_cases hv : v = w.nextUser
    · subst hv
      simp [Spectrum.withUser] at hdata
    · rw [hold v hv] at hdata
      exact h.fresh v b hdata
  · intro b hb hbx v hv
    obtain ⟨n, ho, hn⟩ := h.phase b hb hbx v hv
    have hne := Nat.ne_of_lt (h.lt_of_phase ho)
    unfold World.phase
    rw [hold v hne]
    exact ⟨n, ho, hn⟩
  · intro v b n ho hb hbx
    exact h.listed v b n (hphase v b n ho).2 hb hbx
  · intro v b hm hslots hdata hb hbx
    have hne : v ≠ w.nextUser := by
      rintro rfl
      exact hslots hnew
    unfold Managed at hm
    rw [hold v hne] at hm hslots hdata
    refine h.wired v b ?_ hslots hdata hb hbx
    by_cases hj : (w.user v).jid = j.toBare
    · simp [Spectrum.withUser, hj] at hm
      exact absurd hm.symm hne
    · unfold Managed
      simpa [Spectrum.withUser, Function.update_of_ne hj] using hm
  · refine h.order.mono ?_ ?_
    · intro v how b state hmem
      rw [hold v (Nat.ne_of_lt (h.assigned how v b state hmem).1)]
    · intro v how b state hmem hv
      rw [hold v (Nat.ne_of_lt (h.assigned how v b state hmem).1)]
      exact hv

theorem Lines.addUser (h : Lines x w) (hlink : Link x none w) (j : Jid) (info : UserInfo)
    (hnone : w.users j.toBare = none) : Lines x (UserManager.addUser j info w) := by
  obtain ⟨hlink₁, hun, -⟩ := link_withUser hlink info hnone
  rw [addUser_eq]
  refine ((h.withUser j info).created hlink₁ hun (Nat.lt_succ_self _) ?_).1
  simp [Spectrum.withUser]

theorem Lines.removeUser (h : Lines x w) (hlink : Link x none w) (hm : w.Managed u)
    (hdata : ∀ c, (w.user u).data = some c → some c ≠ x) :
    Lines x (UserManager.removeUser u w) := by
  obtain ⟨w₁, hs, hs'⟩ := removeUser_still w u
  have herased : Lines x
      { w with users := Function.update w.users (w.user u).jid.toBare none } := by
    refine h.of_map fun v hv => ?_
    unfold Managed at hv ⊢
    by_cases hj : (w.user v).jid = (w.user u).jid.toBare
    · simp [hj] at hv
    · simpa [Function.update_of_ne hj] using hv
  have halone : Alone x u { w with users := Function.update w.users (w.user u).jid.toBare none } :=
    hlink.alone hm
  refine Lines.still (Lines.destroyed (herased.still hs) (halone.still hs) ?_ ?_) hs'
  · intro c hc
    rw [hs.data] at hc
    exact hdata c hc
  · intro b hb hbx hmem
    rw [hs.clients] at hb
    rw [hs.usersOf] at hmem
    rw [hs.data]
    exact hlink.linked b hb hbx u hmem

/-- `setReady` up to the signal. -/
def markReady (u : UserId) (w : World) : World :=
  w.modUser u fun y => { y with readyForConnect := true }

theorem markReady_line (u v : UserId) (w : World) :
    ((markReady u w).user v).jid = (w.user v).jid ∧
      ((markReady u w).user v).slots = (w.user v).slots ∧
      ((markReady u w).user v).data = (w.user v).data := by
  by_cases hv : v = u
  · subst hv
    simp [markReady, modUser]
  · simp [markReady, modUser, Function.update_of_ne hv]

theorem markReady_ready {u v : UserId} (h : (w.user v).readyForConnect = true) :
    ((markReady u w).user v).readyForConnect = true := by
  by_cases hv : v = u
  · subst hv
    simp [markReady, modUser]
  · simpa [markReady, modUser, Function.update_of_ne hv] using h

theorem markReady_phase (u v : UserId) (w : World) : (markReady u w).phase v = w.phase v := by
  unfold World.phase
  rw [(markReady_line u v w).1]
  rfl

theorem markReady_managed : (markReady u w).Managed v ↔ w.Managed v := by
  unfold Managed
  rw [(markReady_line u v w).1]
  rfl

theorem Lines.markReady (h : Lines x w) : Lines x (markReady u w) := by
  refine ⟨?_, ?_, h.assigned, ?_, ?_, ?_, ?_, ?_⟩
  · intro v
    rw [(markReady_line u v w).2.1]
    exact h.slots v
  · intro v hv
    rw [(markReady_line u v w).2.1]
    exact h.waiting v hv
  · intro v b hdata
    rw [(markReady_line u v w).2.2] at hdata
    exact h.fresh v b hdata
  · intro b hb hbx v hv
    obtain ⟨n, ho, hn⟩ := h.phase b hb hbx v hv
    refine ⟨n, (markReady_phase u v w).trans ho, fun hnot => hn ?_⟩
    by_contra hready
    rw [markReady_ready (by simpa using hready)] at hnot
    cases hnot
  · intro v b n ho hb hbx
    rw [markReady_phase] at ho
    exact h.listed v b n ho hb hbx
  · intro v b hv hslots hdata hb hbx
    rw [(markReady_line u v w).2.1] at hslots
    rw [(markReady_line u v w).2.2] at hdata
    exact h.wired v b (markReady_managed.mp hv) hslots hdata hb hbx
  · exact h.order.mono (fun v _ _ _ _ => (markReady_line u v w).1)
      fun v _ _ _ _ hv => markReady_ready hv

/-- A user becomes ready: his backend gets the first LOGIN, or will get it. -/
theorem Lines.setReady (h : Lines none w) (hlink : Link none none w) (hm : w.Managed u)
    (hready : (w.user u).readyForConnect = false) : Lines none (User.setReady u w) := by
  have hlink₁ : Link none none (Spectrum.markReady u w) :=
    hlink.of_same (sameLinks_modUser (fun _ => rfl) (fun _ => rfl))
  refine Lines.onReadyToConnect (w := Spectrum.markReady u w) h.markReady
    (hlink₁.alone (markReady_managed.mpr hm)) (by simp [Spectrum.markReady, modUser]) ?_
  intro hslots c hdata hc
  rw [(markReady_line u u w).2.1] at hslots
  rw [(markReady_line u u w).2.2] at hdata
  have hmem := h.wired u c hm hslots hdata hc (by simp)
  obtain ⟨n, ho, hn⟩ := h.phase c hc (by simp) u hmem
  rw [hn hready] at ho
  exact ⟨by simp, hmem, (markReady_phase u u w).trans ho⟩

end Lines

/-! ## The frontend -/

section Front

variable {w w' : World}

theorem Lines.dial (h : Lines none w) (hlink : Link none none w) (hd : Dial w w') :
    Lines none w' ∧ Link none none w' := by
  induction hd with
  | still hs => exact ⟨h.still hs, hlink.of_same hs.sameLinks⟩
  | @ready w u j hu hready =>
    have hm := hlink.managed_of_users hu
    refine ⟨h.setReady hlink hm hready, ?_⟩
    have hmark : Link none none (Spectrum.markReady u w) :=
      hlink.of_same (sameLinks_modUser (fun _ => rfl) (fun _ => rfl))
    exact hmark.of_same (idle_onReadyToConnect u _).sameLinks
  | create j info hnone =>
    obtain ⟨hlink₁, hun, hm⟩ := link_withUser hlink info hnone
    exact ⟨h.addUser hlink j info hnone, hlink₁.created hun hm⟩
  | remove hu =>
    have hm := hlink.managed_of_users hu
    exact ⟨h.removeUser hlink hm (by simp), hlink.removeUser hm⟩
  | learn caps =>
    exact ⟨⟨h.slots, h.waiting, h.assigned, h.fresh, h.phase, h.listed, h.wired, h.order⟩,
      hlink.of_same (.of_links rfl)⟩
  | trans _ _ ih ih' =>
    obtain ⟨h₁, hlink₁⟩ := ih h hlink
    exact ih' h₁ hlink₁

end Front

/-! ## Disconnections -/

section Disconnect

variable {x : Option BackendId} {w : World} {u : UserId}

/-- A user who is ready is assigned again and logged in once. -/
theorem Lines.reconnect (h : Lines x w) (hlink : Link x none w) (hm : w.Managed u)
    (hready : (w.user u).readyForConnect = true)
    (hdata : ∀ c, (w.user u).data = some c → some c ≠ x) : Lines x (User.reconnect u w) := by
  have hcount : Still w (w.modUser u fun y =>
      { y with reconnectCounter := y.reconnectCounter + 1 }) := Still.modUser u fun _ => rfl
  simp only [User.reconnect]
  have h₁ := h.still hcount
  have hlink₁ := hlink.of_same hcount.sameLinks
  have hm₁ := hcount.sameLinks.managed.mpr hm
  have hready₁ := (hcount.ready u).trans hready
  have hdata₁ : ∀ c, ((w.modUser u fun y =>
      { y with reconnectCounter := y.reconnectCounter + 1 }).user u).data = some c →
        some c ≠ x := by
    intro c hc
    rw [hcount.data] at hc
    exact hdata c hc
  generalize (w.modUser u fun y => { y with reconnectCounter := y.reconnectCounter + 1 }) = w₁
    at h₁ hlink₁ hm₁ hready₁ hdata₁
  have hd := handleUserDestroyed_spec u w₁
  have halone := hlink₁.alone hm₁
  have h₂ := h₁.destroyed halone hdata₁ fun b hb hbx hmem => hlink₁.linked b hb hbx u hmem
  obtain ⟨hlink₂, hun⟩ := hlink₁.weaken.destroyed hd
  have hm₂ := (hd.managed u).mpr hm₁
  have hready₂ : ((handleUserDestroyed u w₁).user u).readyForConnect = true := by
    rw [hd.user]
    simpa using hready₁
  have hslots₂ : ((handleUserDestroyed u w₁).user u).slots = 0 := by
    rw [hd.user]
    simp
  have hu : u < (handleUserDestroyed u w₁).nextUser := (hlink₂.keys _ u hm₂).2.2
  obtain ⟨h₃, hunserved⟩ := h₂.created hlink₂ hun hu hslots₂
  have hlink₃ := hlink₂.created hun hm₂
  refine h₃.onReadyToConnect (hlink₃.alone ?_) ((created_self u _).trans hready₂) hunserved
  exact (created_managed u u _).mpr hm₂

theorem still_reportError (u : UserId) (error : String) (w : World) :
    Still w (User.reportError u error w) := by
  have hmessage : Still w (w.emit (.message (w.user u).jid.toBare error)) := .emit trivial
  simp only [User.reportError]
  split
  · exact hmessage.trans (still_finishSession _ _)
  · exact hmessage

theorem Lines.disconnected (h : Lines x w) (hlink : Link x none w) (hm : w.Managed u)
    (hdata : ∀ c, (w.user u).data = some c → some c ≠ x) (error : String) {e : ConnectionError}
    (hprompt : (w.user u).ignoreDisconnect = false → User.reconnects (w.user u) e = true →
      (w.user u).readyForConnect = true) : Lines x (User.handleDisconnected u error e w) := by
  have hemit : Still w (w.emit (.disconnected u)) := .emit trivial
  rcases handleDisconnected_cases u error e w with ⟨-, heq⟩ | ⟨hignore, hrec, heq⟩ | ⟨-, -, heq⟩
  · rw [heq]
    exact h.still hemit
  · rw [heq]
    exact (h.still hemit).reconnect (hlink.of_same hemit.sameLinks)
      (hemit.sameLinks.managed.mpr hm) (hprompt hignore hrec) hdata
  · have hreport := hemit.trans (still_reportError u error _)
    rw [heq]
    simp only [User.giveUp]
    split
    · exact h.still hreport
    · refine (h.still hreport).removeUser (hlink.of_same hreport.sameLinks)
        (hreport.sameLinks.managed.mpr hm) ?_
      intro c hc
      rw [hreport.data] at hc
      exact hdata c hc

/-- The users of a finished backend lose their pointer to it. -/
theorem Lines.setData (h : Lines x w) : Lines x (w.setData u none) := by
  have hline : ∀ v, ((w.setData u none).user v).jid = (w.user v).jid ∧
      ((w.setData u none).user v).slots = (w.user v).slots ∧
      ((w.setData u none).user v).readyForConnect = (w.user v).readyForConnect := by
    intro v
    by_cases hv : v = u
    · subst hv
      simp [World.setData, modUser]
    · simp [World.setData, modUser, Function.update_of_ne hv]
  have hphase : ∀ v, (w.setData u none).phase v = w.phase v := by
    intro v
    unfold World.phase
    rw [(hline v).1]
    rfl
  have hdata : ∀ v b, ((w.setData u none).user v).data = some b → (w.user v).data = some b := by
    intro v b hdata
    by_cases hv : v = u
    · subst hv
      simp [World.setData, modUser] at hdata
    · simpa [World.setData, modUser, Function.update_of_ne hv] using hdata
  refine ⟨?_, ?_, h.assigned, fun v b hb => h.fresh v b (hdata v b hb), ?_, ?_, ?_, ?_⟩
  · intro v
    rw [(hline v).2.1]
    exact h.slots v
  · intro v hv
    rw [(hline v).2.1]
    exact h.waiting v hv
  · intro b hb hbx v hv
    rw [hphase, (hline v).2.2]
    exact h.phase b hb hbx v hv
  · intro v b n ho hb hbx
    rw [hphase] at ho
    exact h.listed v b n ho hb hbx
  · intro v b hm hslots hb' hb hbx
    rw [(hline v).2.1] at hslots
    exact h.wired v b ((setData_managed none).mp hm) hslots (hdata v b hb') hb hbx
  · refine h.order.mono (fun v _ _ _ _ => (hline v).1) fun v _ _ _ _ hv => ?_
    rw [(hline v).2.2]
    exact hv

theorem Lines.dropUser (h : Lines x w) (hlink : Link x none w) (hu : Pending x u w)
    (hprompt : (w.user u).ignoreDisconnect = false →
      User.reconnects (w.user u) .otherError = true → (w.user u).readyForConnect = true) :
    Lines x (dropUser w u) := by
  have hself : (w.setData u none).user u = { w.user u with data := none } := by
    simp [World.setData, modUser]
  refine h.setData.disconnected (hlink.setData hu.unplaced none) (hu.setData none).managed ?_ _ ?_
  · intro c hc
    rw [hself] at hc
    cases hc
  · rw [hself]
    exact hprompt

end Disconnect

end Spectrum
