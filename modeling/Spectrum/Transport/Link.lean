import Spectrum.Transport.Selection

/-!
# Users and backends

The part of the association between users and backends that every event keeps: a listed
user points back to the backend that lists him, no user is listed twice, listed and waiting
at once, or waiting twice, and only users of `UserManager` are listed or wait.

While `handleSessionFinished` runs, the lists of the finished backend are out of date, and
while a user is removed he is no longer in the map but may still be listed. `Link x z`
leaves out the backend `x` and the user `z`.
-/

namespace Spectrum

open World NetworkPluginServer

structure Link (x : Option BackendId) (z : Option UserId) (w : World) : Prop where
  nodup : w.clients.Nodup
  fresh : ∀ b ∈ w.clients, b < w.nextBackend
  dying : ∀ b, some b = x → (w.backends b).willDie = true
  users_nodup : ∀ b ∈ w.clients, some b ≠ x → (w.backends b).users.Nodup
  linked : ∀ b ∈ w.clients, some b ≠ x → ∀ u ∈ (w.backends b).users, (w.user u).data = some b
  waiting_nodup : w.waitingUsers.Nodup
  not_waiting : ∀ b ∈ w.clients, some b ≠ x → ∀ u ∈ (w.backends b).users, u ∉ w.waitingUsers
  listed_managed : ∀ b ∈ w.clients, some b ≠ x → ∀ u ∈ (w.backends b).users, some u ≠ z →
    w.Managed u
  waiting_managed : ∀ u ∈ w.waitingUsers, some u ≠ z → w.Managed u
  keys : ∀ j u, w.users j = some u → (w.user u).jid = j ∧ j.toBare = j ∧ u < w.nextUser

/-- The user is in no list of a backend other than `x` and does not wait. -/
structure Unplaced (x : Option BackendId) (u : UserId) (w : World) : Prop where
  not_listed : ∀ b ∈ w.clients, some b ≠ x → u ∉ (w.backends b).users
  not_waiting : u ∉ w.waitingUsers

/-- Nothing that `Link` speaks about has changed, except that backends may be dying now. -/
structure SameLinks (w w' : World) : Prop where
  clients : w'.clients = w.clients
  nextBackend : w'.nextBackend = w.nextBackend
  waitingUsers : w'.waitingUsers = w.waitingUsers
  users : w'.users = w.users
  nextUser : w'.nextUser = w.nextUser
  usersOf : ∀ b, (w'.backends b).users = (w.backends b).users
  willDie : ∀ b, (w.backends b).willDie = true → (w'.backends b).willDie = true
  data : ∀ u, (w'.user u).data = (w.user u).data
  jid : ∀ u, (w'.user u).jid = (w.user u).jid

/-- The fields that `Link` speaks about. -/
def World.links (w : World) :=
  (w.clients, w.backends, w.nextBackend, w.waitingUsers, w.users, w.user, w.nextUser)

section Basic

variable {x : Option BackendId} {z : Option UserId} {w w' : World} {u : UserId}

theorem Quiet.sameLinks {P : Effect → Prop} (h : Quiet P w w') : SameLinks w w' where
  clients := h.clients
  nextBackend := h.nextBackend
  waitingUsers := h.waitingUsers
  users := h.users
  nextUser := h.nextUser
  usersOf := fun b => by rw [h.backends]
  willDie := fun b hb => by rw [h.backends]; exact hb
  data := h.data
  jid := h.jid

theorem Idle.sameLinks (h : Idle w w') : SameLinks w w' := h.quiet.sameLinks

theorem Searched.sameLinks (h : Searched w w') : SameLinks w w' where
  clients := h.clients
  nextBackend := h.nextBackend
  waitingUsers := h.waitingUsers
  users := h.users
  nextUser := h.nextUser
  usersOf := h.usersOf
  willDie := fun b hb => by rw [h.willDie b]; exact hb
  data := fun u => by rw [h.user]
  jid := fun u => by rw [h.user]

/-- A change of fields that `Link` does not mention. -/
theorem SameLinks.of_links (h : w'.links = w.links) : SameLinks w w' := by
  obtain ⟨hclients, hback, hnext, hwait, husers, huser, hnextUser⟩ :
      w'.clients = w.clients ∧ w'.backends = w.backends ∧ w'.nextBackend = w.nextBackend ∧
        w'.waitingUsers = w.waitingUsers ∧ w'.users = w.users ∧ w'.user = w.user ∧
        w'.nextUser = w.nextUser := by
    simpa only [World.links, Prod.mk.injEq] using h
  exact ⟨hclients, hnext, hwait, husers, hnextUser, fun b => by rw [hback],
    fun b hb => by rw [hback]; exact hb, fun u => by rw [huser], fun u => by rw [huser]⟩

theorem sameLinks_modUser {f : User → User} (hdata : ∀ y, (f y).data = y.data)
    (hjid : ∀ y, (f y).jid = y.jid) : SameLinks w (w.modUser u f) where
  clients := rfl
  nextBackend := rfl
  waitingUsers := rfl
  users := rfl
  nextUser := rfl
  usersOf := fun _ => rfl
  willDie := fun _ h => h
  data := by
    intro v
    by_cases hv : v = u
    · subst hv
      simp [modUser, hdata]
    · simp [modUser, Function.update_of_ne hv]
  jid := by
    intro v
    by_cases hv : v = u
    · subst hv
      simp [modUser, hjid]
    · simp [modUser, Function.update_of_ne hv]

theorem SameLinks.trans {w₁ : World} (h : SameLinks w w₁) (h' : SameLinks w₁ w') :
    SameLinks w w' where
  clients := h'.clients.trans h.clients
  nextBackend := h'.nextBackend.trans h.nextBackend
  waitingUsers := h'.waitingUsers.trans h.waitingUsers
  users := h'.users.trans h.users
  nextUser := h'.nextUser.trans h.nextUser
  usersOf := fun b => (h'.usersOf b).trans (h.usersOf b)
  willDie := fun b hb => h'.willDie b (h.willDie b hb)
  data := fun u => (h'.data u).trans (h.data u)
  jid := fun u => (h'.jid u).trans (h.jid u)

theorem SameLinks.managed (h : SameLinks w w') : w'.Managed u ↔ w.Managed u := by
  unfold Managed
  rw [h.users, h.jid]

theorem Link.of_same (h : Link x z w) (hs : SameLinks w w') : Link x z w' where
  nodup := by rw [hs.clients]; exact h.nodup
  fresh := by rw [hs.clients, hs.nextBackend]; exact h.fresh
  dying := fun b hb => hs.willDie b (h.dying b hb)
  users_nodup := by
    intro b hb hx
    rw [hs.clients] at hb
    rw [hs.usersOf]
    exact h.users_nodup b hb hx
  linked := by
    intro b hb hx v hv
    rw [hs.clients] at hb
    rw [hs.usersOf] at hv
    rw [hs.data]
    exact h.linked b hb hx v hv
  waiting_nodup := by rw [hs.waitingUsers]; exact h.waiting_nodup
  not_waiting := by
    intro b hb hx v hv
    rw [hs.clients] at hb
    rw [hs.usersOf] at hv
    rw [hs.waitingUsers]
    exact h.not_waiting b hb hx v hv
  listed_managed := by
    intro b hb hx v hv hz
    rw [hs.clients] at hb
    rw [hs.usersOf] at hv
    exact hs.managed.mpr (h.listed_managed b hb hx v hv hz)
  waiting_managed := by
    intro v hv hz
    rw [hs.waitingUsers] at hv
    exact hs.managed.mpr (h.waiting_managed v hv hz)
  keys := by
    intro j v hv
    rw [hs.users] at hv
    rw [hs.jid, hs.nextUser]
    exact h.keys j v hv

theorem Unplaced.of_same (h : Unplaced x u w) (hs : SameLinks w w') : Unplaced x u w' where
  not_listed := by
    intro b hb hx
    rw [hs.clients] at hb
    rw [hs.usersOf]
    exact h.not_listed b hb hx
  not_waiting := by rw [hs.waitingUsers]; exact h.not_waiting

theorem Link.weaken (h : Link x none w) : Link x z w where
  nodup := h.nodup
  fresh := h.fresh
  dying := h.dying
  users_nodup := h.users_nodup
  linked := h.linked
  waiting_nodup := h.waiting_nodup
  not_waiting := h.not_waiting
  listed_managed := fun b hb hx v hv _ => h.listed_managed b hb hx v hv (by simp)
  waiting_managed := fun v hv _ => h.waiting_managed v hv (by simp)
  keys := h.keys

theorem Link.managed_of_users (h : Link x z w) {j : Jid} (hu : w.users j = some u) :
    w.Managed u := by
  unfold Managed
  rw [(h.keys j u hu).1]
  exact hu

theorem Link.toBare_jid (h : Link x z w) (hu : w.Managed u) :
    (w.user u).jid.toBare = (w.user u).jid := (h.keys _ u hu).2.1

theorem link_start (cfg : Config) (now : Int) (storage : Option (Jid → Option UserInfo)) :
    Link none none (World.start cfg now storage) := by
  constructor <;> simp [World.start]

end Basic

/-! ## Assigning and releasing -/

section Place

variable {x : Option BackendId} {z : Option UserId} {w w' : World} {u : UserId}
  {how : Assignment} {c : BackendId}

theorem attach_backends (b : BackendId) : (attach how u c w).backends b =
    if b = c then { w.backends b with users := (w.backends b).users ++ [u] }
    else w.backends b := by
  by_cases hb : b = c
  · subst hb
    simp [attach, modBackend, setData, emit, modUser]
  · simp [attach, modBackend, setData, emit, modUser, hb]

theorem attach_usersOf (b : BackendId) : ((attach how u c w).backends b).users =
    if b = c then (w.backends b).users ++ [u] else (w.backends b).users := by
  rw [attach_backends]
  split <;> rfl

theorem attach_willDie (b : BackendId) :
    ((attach how u c w).backends b).willDie = (w.backends b).willDie := by
  rw [attach_backends]
  split <;> rfl

theorem attach_pongReceived (b : BackendId) :
    ((attach how u c w).backends b).pongReceived = (w.backends b).pongReceived := by
  rw [attach_backends]
  split <;> rfl

theorem attach_log : (attach how u c w).log = .assign how u c (w.backends c) :: w.log := rfl

theorem attach_user : (attach how u c w).user =
    Function.update w.user u { w.user u with data := some c } := rfl

theorem attach_data (v : UserId) : ((attach how u c w).user v).data =
    if v = u then some c else (w.user v).data := by
  by_cases hv : v = u
  · subst hv
    simp [attach_user]
  · simp [attach_user, hv]

theorem attach_jid (v : UserId) : ((attach how u c w).user v).jid = (w.user v).jid := by
  by_cases hv : v = u
  · subst hv
    simp [attach_user]
  · simp [attach_user, hv]

/-- An assignment changes nothing else of a user. -/
theorem attach_line (v : UserId) : ((attach how u c w).user v).slots = (w.user v).slots ∧
    ((attach how u c w).user v).readyForConnect = (w.user v).readyForConnect := by
  by_cases hv : v = u
  · subst hv
    simp [attach_user]
  · simp [attach_user, hv]

theorem attach_managed (v : UserId) : (attach how u c w).Managed v ↔ w.Managed v := by
  unfold Managed
  rw [attach_jid]
  rfl

theorem mem_attach {b : BackendId} {v : UserId} (hv : v ∈ ((attach how u c w).backends b).users) :
    v ∈ (w.backends b).users ∨ b = c ∧ v = u := by
  rw [attach_usersOf] at hv
  split at hv
  · rename_i hb
    rcases List.mem_append.mp hv with hv | hv
    · exact .inl hv
    · exact .inr ⟨hb, List.mem_singleton.mp hv⟩
  · exact .inl hv

theorem Link.attach (h : Link x z w) (hu : Unplaced x u w) (hm : w.Managed u) (hc : c ∈ w.clients)
    (hx : some c ≠ x) : Link x z (attach how u c w) where
  nodup := h.nodup
  fresh := h.fresh
  dying := fun b hb => by rw [attach_willDie]; exact h.dying b hb
  users_nodup := by
    intro b hb hbx
    rw [attach_usersOf]
    split
    · rw [List.nodup_append]
      refine ⟨h.users_nodup b hb hbx, by simp, ?_⟩
      intro v hv v' hv' heq
      rw [List.mem_singleton] at hv'
      subst hv' heq
      exact hu.not_listed b hb hbx hv
    · exact h.users_nodup b hb hbx
  linked := by
    intro b hb hbx v hv
    rw [attach_data]
    rcases mem_attach hv with hold | ⟨rfl, rfl⟩
    · have hne : v ≠ u := by
        rintro rfl
        exact hu.not_listed b hb hbx hold
      rw [if_neg hne]
      exact h.linked b hb hbx v hold
    · rw [if_pos rfl]
  waiting_nodup := h.waiting_nodup
  not_waiting := by
    intro b hb hbx v hv
    rcases mem_attach hv with hv | ⟨-, rfl⟩
    · exact h.not_waiting b hb hbx v hv
    · exact hu.not_waiting
  listed_managed := by
    intro b hb hbx v hv hz
    rw [attach_managed]
    rcases mem_attach hv with hv | ⟨-, rfl⟩
    · exact h.listed_managed b hb hbx v hv hz
    · exact hm
  waiting_managed := fun v hv hz => (attach_managed v).mpr (h.waiting_managed v hv hz)
  keys := by
    intro j v hv
    rw [attach_jid]
    exact h.keys j v hv

theorem Link.enqueue (h : Link x z w) (hu : Unplaced x u w) (hm : w.Managed u) :
    Link x z { w with waitingUsers := w.waitingUsers ++ [u] } where
  nodup := h.nodup
  fresh := h.fresh
  dying := h.dying
  users_nodup := h.users_nodup
  linked := h.linked
  waiting_nodup := by
    rw [List.nodup_append]
    refine ⟨h.waiting_nodup, by simp, ?_⟩
    intro v hv v' hv' heq
    rw [List.mem_singleton] at hv'
    subst hv' heq
    exact hu.not_waiting hv
  not_waiting := by
    intro b hb hbx v hv hw
    rcases List.mem_append.mp hw with hw | hw
    · exact h.not_waiting b hb hbx v hv hw
    · rw [List.mem_singleton] at hw
      subst hw
      exact hu.not_listed b hb hbx hv
  listed_managed := h.listed_managed
  waiting_managed := by
    intro v hv hz
    rcases List.mem_append.mp hv with hv | hv
    · exact h.waiting_managed v hv hz
    · rw [List.mem_singleton] at hv
      subst hv
      exact hm
  keys := h.keys

theorem sameLinks_connectSlots : SameLinks w (connectSlots u w) :=
  sameLinks_modUser (fun _ => rfl) (fun _ => rfl)

theorem Link.created (h : Link x z w) (hu : Unplaced x u w) (hm : w.Managed u) :
    Link x z (handleUserCreated u w) := by
  obtain ⟨w₁, hs, ⟨-, heq⟩ | ⟨c, hc, hfree, heq⟩⟩ := handleUserCreated_cases u w
  · rw [heq]
    have hsame := hs.sameLinks
    exact (h.of_same hsame).enqueue (hu.of_same hsame) (hsame.managed.mpr hm)
  · rw [heq]
    have hsame := hs.sameLinks
    have hx : some c ≠ x := by
      intro hcx
      have hdie := h.dying c hcx
      rw [(isFree_iff.mp hfree).1] at hdie
      cases hdie
    have hattach : Link x z (NetworkPluginServer.attach .created u c w₁) :=
      (h.of_same hsame).attach (hu.of_same hsame) (hsame.managed.mpr hm)
        (by rw [hsame.clients]; exact hc) hx
    exact hattach.of_same sameLinks_connectSlots

theorem Destroyed.managed (h : Destroyed u w w') (v : UserId) : w'.Managed v ↔ w.Managed v := by
  unfold Managed
  rw [h.users, h.jid]

/-- Releasing a user leaves him unplaced and needs him no longer excepted. -/
theorem Link.destroyed (h : Link x (some u) w) (hd : Destroyed u w w') :
    Link x none w' ∧ Unplaced x u w' := by
  have hunlisted : ∀ b ∈ w'.clients, some b ≠ x → u ∉ (w'.backends b).users := by
    intro b hb hbx hmem
    rw [hd.clients] at hb
    have hdata := h.linked b hb hbx u ((hd.usersOf_subset b).subset hmem)
    rw [hd.usersOf b, if_pos hdata] at hmem
    simp at hmem
  have hunqueued : u ∉ w'.waitingUsers := by
    rw [hd.waitingUsers]
    simp
  refine ⟨⟨?_, ?_, ?_, ?_, ?_, ?_, ?_, ?_, ?_, ?_⟩, ⟨hunlisted, hunqueued⟩⟩
  · rw [hd.clients]
    exact h.nodup
  · rw [hd.clients, hd.nextBackend]
    exact h.fresh
  · intro b hb
    exact hd.willDie (h.dying b hb)
  · intro b hb hbx
    rw [hd.clients] at hb
    exact (h.users_nodup b hb hbx).sublist (hd.usersOf_subset b)
  · intro b hb hbx v hv
    rw [hd.clients] at hb
    rw [hd.data]
    exact h.linked b hb hbx v ((hd.usersOf_subset b).subset hv)
  · rw [hd.waitingUsers]
    exact h.waiting_nodup.filter _
  · intro b hb hbx v hv hw
    rw [hd.clients] at hb
    rw [hd.waitingUsers] at hw
    exact h.not_waiting b hb hbx v ((hd.usersOf_subset b).subset hv) (List.mem_filter.mp hw).1
  · intro b hb hbx v hv _
    rw [hd.managed]
    have hne : v ≠ u := by
      rintro rfl
      exact hunlisted b hb hbx hv
    rw [hd.clients] at hb
    exact h.listed_managed b hb hbx v ((hd.usersOf_subset b).subset hv) (by simpa using hne)
  · intro v hv _
    rw [hd.managed]
    have hne : v ≠ u := by
      rintro rfl
      exact hunqueued hv
    rw [hd.waitingUsers] at hv
    exact h.waiting_managed v (List.mem_filter.mp hv).1 (by simpa using hne)
  · intro j v hv
    rw [hd.users] at hv
    rw [hd.jid, hd.nextUser]
    exact h.keys j v hv

/-- Erasing a user from the map excepts him. -/
theorem Link.erase (h : Link x none w) (hm : w.Managed u) :
    Link x (some u) { w with users := Function.update w.users (w.user u).jid.toBare none } := by
  have hkept : ∀ v, v ≠ u → w.Managed v →
      World.Managed { w with users := Function.update w.users (w.user u).jid.toBare none } v := by
    intro v hv hmv
    have hne : (w.user v).jid ≠ (w.user u).jid.toBare := by
      rw [h.toBare_jid hm]
      intro heq
      unfold Managed at hm hmv
      rw [heq, hm] at hmv
      exact hv (Option.some.inj hmv).symm
    unfold Managed
    show Function.update w.users (w.user u).jid.toBare none (w.user v).jid = some v
    rw [Function.update_of_ne hne]
    exact hmv
  refine ⟨h.nodup, h.fresh, h.dying, h.users_nodup, h.linked, h.waiting_nodup, h.not_waiting,
    ?_, ?_, ?_⟩
  · intro b hb hbx v hv hz
    exact hkept v (by simpa using hz) (h.listed_managed b hb hbx v hv (by simp))
  · intro v hv hz
    exact hkept v (by simpa using hz) (h.waiting_managed v hv (by simp))
  · intro j v hv
    by_cases hj : j = (w.user u).jid.toBare
    · subst hj
      simp at hv
    · simp only [Function.update_of_ne hj] at hv
      exact h.keys j v hv

end Place

/-! ## The frontend -/

/-- The fresh user object of `addUser`, before it is announced. -/
def withUser (j : Jid) (info : UserInfo) (w : World) : World :=
  { w with
    nextUser := w.nextUser + 1
    users := Function.update w.users j.toBare (some w.nextUser)
    user := Function.update w.user w.nextUser
      { jid := j.toBare, info := info, reconnectLimit := w.cfg.reconnectLimit,
        lastActivity := w.now } }

theorem addUser_eq (j : Jid) (info : UserInfo) (w : World) :
    UserManager.addUser j info w = handleUserCreated w.nextUser (withUser j info w) := rfl

section Front

variable {x : Option BackendId} {w w' : World}

theorem Link.lt_nextUser (h : Link x none w) {v : UserId} (hv : w.Managed v) : v < w.nextUser :=
  (h.keys _ v hv).2.2

theorem withUser_managed (h : Link x none w) {j : Jid} {info : UserInfo}
    (hnone : w.users j.toBare = none) {v : UserId} (hv : w.Managed v) :
    (withUser j info w).Managed v := by
  have hne : v ≠ w.nextUser := Nat.ne_of_lt (h.lt_nextUser hv)
  have hjid : (w.user v).jid ≠ j.toBare := by
    intro heq
    unfold Managed at hv
    rw [heq, hnone] at hv
    cases hv
  unfold Managed
  simp only [withUser, Function.update_of_ne hne, Function.update_of_ne hjid]
  exact hv

theorem link_withUser (h : Link x none w) {j : Jid} (info : UserInfo)
    (hnone : w.users j.toBare = none) :
    Link x none (withUser j info w) ∧ Unplaced x w.nextUser (withUser j info w) ∧
      (withUser j info w).Managed w.nextUser := by
  have hlisted : ∀ b ∈ w.clients, some b ≠ x → ∀ v ∈ (w.backends b).users, v ≠ w.nextUser := by
    intro b hb hbx v hv
    exact Nat.ne_of_lt (h.lt_nextUser (h.listed_managed b hb hbx v hv (by simp)))
  have hwaits : ∀ v ∈ w.waitingUsers, v ≠ w.nextUser := by
    intro v hv
    exact Nat.ne_of_lt (h.lt_nextUser (h.waiting_managed v hv (by simp)))
  refine ⟨⟨h.nodup, h.fresh, h.dying, h.users_nodup, ?_, h.waiting_nodup, h.not_waiting,
    ?_, ?_, ?_⟩, ⟨?_, ?_⟩, ?_⟩
  · intro b hb hbx v hv
    simp only [withUser, Function.update_of_ne (hlisted b hb hbx v hv)]
    exact h.linked b hb hbx v hv
  · intro b hb hbx v hv _
    exact withUser_managed h hnone (h.listed_managed b hb hbx v hv (by simp))
  · intro v hv _
    exact withUser_managed h hnone (h.waiting_managed v hv (by simp))
  · intro i v hv
    by_cases hi : i = j.toBare
    · subst hi
      simp only [withUser, Function.update_self, Option.some.injEq] at hv
      subst hv
      simp [withUser]
    · simp only [withUser, Function.update_of_ne hi] at hv
      obtain ⟨hjid, hbare, hlt⟩ := h.keys i v hv
      have hne : v ≠ w.nextUser := Nat.ne_of_lt hlt
      simp only [withUser, Function.update_of_ne hne]
      exact ⟨hjid, hbare, Nat.lt_succ_of_lt hlt⟩
  · intro b hb hbx hmem
    exact hlisted b hb hbx _ hmem rfl
  · intro hmem
    exact hwaits _ hmem rfl
  · simp [Managed, withUser]

theorem Link.front {P : Effect → Prop} (h : Link x none w) (hf : Front P w w') :
    Link x none w' := by
  induction hf with
  | quiet hq => exact h.of_same hq.sameLinks
  | create j info hnone =>
    obtain ⟨hlink, hun, hm⟩ := link_withUser h info hnone
    rw [addUser_eq]
    exact hlink.created hun hm
  | @remove w w' u j hu hq =>
    have hm := h.managed_of_users hu
    exact (((h.erase hm).of_same hq.sameLinks).destroyed (handleUserDestroyed_spec u w')).1
  | trans _ _ ih ih' => exact ih' (ih h)

end Front

end Spectrum
