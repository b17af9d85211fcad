import Spectrum.Transport.Link

/-!
# Events keep the links

`Link none none` holds in every reachable state. The loop of `handleSessionFinished` needs
to know more about the users that are still to be disconnected: they are placed nowhere but
in the finished backend and are still in `UserManager` (`Pending`).
-/

namespace Spectrum

open World NetworkPluginServer

/-- A user that is placed in the backend `x` at most, and is in the map. -/
structure Pending (x : Option BackendId) (u : UserId) (w : World) : Prop where
  unplaced : Unplaced x u w
  managed : w.Managed u

section Pending

variable {x : Option BackendId} {w w' : World} {u v : UserId}

theorem Pending.of_same (h : Pending x v w) (hs : SameLinks w w') : Pending x v w' :=
  ⟨h.unplaced.of_same hs, hs.managed.mpr h.managed⟩

theorem Pending.created (h : Pending x v w) (hne : v ≠ u) :
    Pending x v (handleUserCreated u w) := by
  obtain ⟨w₁, hs, ⟨-, heq⟩ | ⟨c, -, -, heq⟩⟩ := handleUserCreated_cases u w
  · rw [heq]
    obtain ⟨⟨hlisted, hwaits⟩, hm⟩ := h.of_same hs.sameLinks
    refine ⟨⟨hlisted, ?_⟩, hm⟩
    intro hmem
    rcases List.mem_append.mp hmem with hmem | hmem
    · exact hwaits hmem
    · exact hne (List.mem_singleton.mp hmem)
  · rw [heq]
    obtain ⟨⟨hlisted, hwaits⟩, hm⟩ := h.of_same hs.sameLinks
    have hattach : Pending x v (attach .created u c w₁) := by
      refine ⟨⟨?_, hwaits⟩, (attach_managed v).mpr hm⟩
      intro b hb hbx hmem
      rcases mem_attach hmem with hmem | ⟨-, rfl⟩
      · exact hlisted b hb hbx hmem
      · exact hne rfl
    exact hattach.of_same sameLinks_connectSlots

theorem Pending.destroyed (h : Pending x v w) (hd : Destroyed u w w') : Pending x v w' := by
  refine ⟨⟨?_, ?_⟩, (hd.managed v).mpr h.managed⟩
  · intro b hb hbx hmem
    rw [hd.clients] at hb
    exact h.unplaced.not_listed b hb hbx ((hd.usersOf_subset b).subset hmem)
  · intro hmem
    rw [hd.waitingUsers] at hmem
    exact h.unplaced.not_waiting (List.mem_filter.mp hmem).1

theorem Pending.erase (h : Pending x v w) (hlink : Link x none w) (hm : w.Managed u)
    (hne : v ≠ u) :
    Pending x v { w with users := Function.update w.users (w.user u).jid.toBare none } := by
  refine ⟨⟨h.unplaced.not_listed, h.unplaced.not_waiting⟩, ?_⟩
  have hmv := h.managed
  have hjid : (w.user v).jid ≠ (w.user u).jid.toBare := by
    rw [hlink.toBare_jid hm]
    intro heq
    unfold Managed at hm hmv
    rw [heq, hm] at hmv
    exact hne (Option.some.inj hmv).symm
  unfold Managed
  show Function.update w.users (w.user u).jid.toBare none (w.user v).jid = some v
  rw [Function.update_of_ne hjid]
  exact hmv

end Pending

/-! ## Disconnections -/

section Disconnect

variable {x : Option BackendId} {w : World} {u v : UserId}

theorem sameLinks_count : SameLinks w (w.modUser u fun y =>
    { y with reconnectCounter := y.reconnectCounter + 1 }) :=
  sameLinks_modUser (fun _ => rfl) (fun _ => rfl)

theorem Link.reconnect (h : Link x none w) (hm : w.Managed u) :
    Link x none (User.reconnect u w) := by
  simp only [User.reconnect]
  have hcount := h.of_same (sameLinks_count (u := u))
  have hd := handleUserDestroyed_spec u (w.modUser u fun y =>
    { y with reconnectCounter := y.reconnectCounter + 1 })
  obtain ⟨hlink, hun⟩ := hcount.weaken.destroyed hd
  have hm' := (hd.managed u).mpr ((sameLinks_count (u := u)).managed.mpr hm)
  exact (hlink.created hun hm').of_same (idle_onReadyToConnect u _).sameLinks

theorem Link.removeUser (h : Link x none w) (hm : w.Managed u) :
    Link x none (UserManager.removeUser u w) := by
  obtain ⟨w₁, hq, hq'⟩ := removeUser_steps w u
  have herased := (h.erase hm).of_same hq.sameLinks
  exact (herased.destroyed (handleUserDestroyed_spec u w₁)).1.of_same hq'.sameLinks

theorem Link.giveUp (h : Link x none w) (hm : w.Managed u) (error : String) :
    Link x none (User.giveUp u error w) := by
  have hs := (idle_reportError u error w).sameLinks
  simp only [User.giveUp]
  split
  · exact h.of_same hs
  · exact (h.of_same hs).removeUser (hs.managed.mpr hm)

theorem Link.disconnected (h : Link x none w) (hm : w.Managed u) (error : String)
    (e : ConnectionError) : Link x none (User.handleDisconnected u error e w) := by
  have hemit : SameLinks w (w.emit (.disconnected u)) := .of_links rfl
  rcases handleDisconnected_cases u error e w with ⟨-, heq⟩ | ⟨-, -, heq⟩ | ⟨-, -, heq⟩
  · rw [heq]
    exact h.of_same hemit
  · rw [heq]
    exact (h.of_same hemit).reconnect (hemit.managed.mpr hm)
  · rw [heq]
    exact (h.of_same hemit).giveUp (hemit.managed.mpr hm) error

theorem Pending.disconnected (h : Pending x v w) (hlink : Link x none w) (hm : w.Managed u)
    (hne : v ≠ u) (error : String) (e : ConnectionError) :
    Pending x v (User.handleDisconnected u error e w) := by
  have hemit : SameLinks w (w.emit (.disconnected u)) := .of_links rfl
  rcases handleDisconnected_cases u error e w with ⟨-, heq⟩ | ⟨-, -, heq⟩ | ⟨-, -, heq⟩
  · rw [heq]
    exact h.of_same hemit
  · rw [heq]
    simp only [User.reconnect]
    have hcount := (h.of_same hemit).of_same (sameLinks_count (u := u))
    exact ((hcount.destroyed (handleUserDestroyed_spec u _)).created hne).of_same
      (idle_onReadyToConnect u _).sameLinks
  · rw [heq]
    have hs := hemit.trans (idle_reportError u error _).sameLinks
    simp only [User.giveUp]
    split
    · exact h.of_same hs
    · obtain ⟨w₁, hq, hq'⟩ :=
        removeUser_steps (User.reportError u error (w.emit (.disconnected u))) u
      have herase := (h.of_same hs).erase (hlink.of_same hs) (hs.managed.mpr hm) hne
      exact ((herase.of_same hq.sameLinks).destroyed (handleUserDestroyed_spec u w₁)).of_same
        hq'.sameLinks

end Disconnect

/-! ## The end of a backend -/

section Finish

variable {x : Option BackendId} {w : World} {u v : UserId}

theorem setData_managed (d : Option BackendId) : (w.setData u d).Managed v ↔ w.Managed v := by
  unfold Managed setData
  by_cases hv : v = u
  · subst hv
    simp [modUser]
  · simp [modUser, Function.update_of_ne hv]

theorem Link.setData (h : Link x none w) (hu : Unplaced x u w) (d : Option BackendId) :
    Link x none (w.setData u d) where
  nodup := h.nodup
  fresh := h.fresh
  dying := h.dying
  users_nodup := h.users_nodup
  linked := by
    intro b hb hbx v hv
    have hne : v ≠ u := by
      rintro rfl
      exact hu.not_listed b hb hbx hv
    simp only [World.setData, modUser, Function.update_of_ne hne]
    exact h.linked b hb hbx v hv
  waiting_nodup := h.waiting_nodup
  not_waiting := h.not_waiting
  listed_managed := fun b hb hbx v hv hz =>
    (setData_managed d).mpr (h.listed_managed b hb hbx v hv hz)
  waiting_managed := fun v hv hz => (setData_managed d).mpr (h.waiting_managed v hv hz)
  keys := by
    intro j v hv
    have hjid : ((w.setData u d).user v).jid = (w.user v).jid := by
      by_cases hvu : v = u
      · subst hvu
        simp [World.setData, modUser]
      · simp [World.setData, modUser, Function.update_of_ne hvu]
    rw [hjid]
    exact h.keys j v hv

theorem Pending.setData (h : Pending x v w) (d : Option BackendId) :
    Pending x v (w.setData u d) :=
  ⟨⟨h.unplaced.not_listed, h.unplaced.not_waiting⟩, (setData_managed d).mpr h.managed⟩

theorem Link.dropUser (h : Link x none w) (hu : Pending x u w) : Link x none (dropUser w u) :=
  (h.setData hu.unplaced none).disconnected (hu.setData none).managed _ _

theorem Pending.dropUser (h : Pending x v w) (hlink : Link x none w) (hu : Pending x u w)
    (hne : v ≠ u) : Pending x v (NetworkPluginServer.dropUser w u) :=
  (h.setData none).disconnected (hlink.setData hu.unplaced none) (hu.setData none).managed hne _ _

/-- Induction over the loop of `handleSessionFinished`: an invariant about the users that are
still to be disconnected and the state, kept by one round, holds at the end of the loop. -/
theorem dropUsers_induction {I : List UserId → World → Prop}
    (hstep : ∀ u us w, u ∉ us → Link x none w → Pending x u w → (∀ v ∈ us, Pending x v w) →
      I (u :: us) w → I us (NetworkPluginServer.dropUser w u))
    {us : List UserId} (hnodup : us.Nodup) (hlink : Link x none w)
    (hpending : ∀ v ∈ us, Pending x v w) (h : I us w) :
    Link x none (us.foldl NetworkPluginServer.dropUser w) ∧
      I [] (us.foldl NetworkPluginServer.dropUser w) := by
  induction us generalizing w with
  | nil => exact ⟨hlink, h⟩
  | cons u us ih =>
    obtain ⟨hnot, hrest⟩ := List.nodup_cons.mp hnodup
    have hu := hpending u List.mem_cons_self
    have htail : ∀ v ∈ us, Pending x v w := fun v hv => hpending v (List.mem_cons_of_mem u hv)
    refine ih hrest (hlink.dropUser hu) ?_ (hstep u us w hnot hlink hu htail h)
    intro v hv
    have hne : v ≠ u := by
      rintro rfl
      exact hnot hv
    exact (htail v hv).dropUser hlink hu hne

/-- The backend that is being finished, marked so that no user is sent to it. -/
def markDying (c : BackendId) (w : World) : World :=
  (w.emit (.sessionFinished c)).modBackend c fun b => { b with willDie := true }

theorem markDying_users (c b : BackendId) :
    ((markDying c w).backends b).users = (w.backends b).users := by
  by_cases hb : b = c
  · subst hb
    simp [markDying, modBackend, emit]
  · simp [markDying, modBackend, emit, Function.update_of_ne hb]

theorem markDying_willDie (c b : BackendId) : ((markDying c w).backends b).willDie =
    if b = c then true else (w.backends b).willDie := by
  by_cases hb : b = c
  · subst hb
    simp [markDying, modBackend, emit]
  · simp [markDying, modBackend, emit, hb]

/-- A backend that ends with users on it is remembered as crashed. -/
def noteCrash (c : BackendId) (w : World) : World :=
  if (w.backends c).users = [] then w
  else { w with crashedBackends := w.crashedBackends ++ [(w.backends c).id] }

theorem idle_noteCrash (c : BackendId) (w : World) : Idle w (noteCrash c w) := by
  unfold noteCrash
  split
  · exact .refl _
  · exact ⟨rfl, fun _ => rfl, fun _ h => h, rfl, .of_eq rfl⟩

theorem handleSessionFinished_eq {c : BackendId} (hc : c ∈ w.clients) :
    handleSessionFinished c w =
      { (send c .exit ((w.backends c).users.foldl NetworkPluginServer.dropUser
          (noteCrash c (markDying c w)))).modBackend c (fun b => { b with connection := false }) with
        clients := (send c .exit ((w.backends c).users.foldl NetworkPluginServer.dropUser
          (noteCrash c (markDying c w)))).clients.filter fun b => b ≠ c } := by
  have husers : ((markDying c w).backends c).users = (w.backends c).users := markDying_users c c
  unfold handleSessionFinished
  rw [if_neg (not_not.mpr hc), ← husers]
  rfl

/-- What `handleSessionFinished` does to a backend in `m_clients`: mark it, disconnect its
users, and remove it, with idle steps between. -/
theorem handleSessionFinished_steps {c : BackendId} (hc : c ∈ w.clients) :
    ∃ w₁ w₂, Idle (markDying c w) w₁ ∧
      Idle ((w.backends c).users.foldl NetworkPluginServer.dropUser w₁) w₂ ∧
      handleSessionFinished c w =
        { w₂.modBackend c (fun b => { b with connection := false }) with
          clients := w₂.clients.filter fun b => b ≠ c } := by
  exact ⟨_, _, idle_noteCrash c _, idle_send _ c (m := .exit) trivial, handleSessionFinished_eq hc⟩

theorem Link.markDying (h : Link none none w) (c : BackendId) :
    Link (some c) none (markDying c w) := by
  refine ⟨h.nodup, h.fresh, ?_, ?_, ?_, h.waiting_nodup, ?_, ?_, ?_, h.keys⟩
  · intro b hb
    cases hb
    rw [markDying_willDie, if_pos rfl]
  · intro b hb _
    rw [markDying_users]
    exact h.users_nodup b hb (by simp)
  · intro b hb _ v hv
    rw [markDying_users] at hv
    exact h.linked b hb (by simp) v hv
  · intro b hb _ v hv
    rw [markDying_users] at hv
    exact h.not_waiting b hb (by simp) v hv
  · intro b hb _ v hv _
    rw [markDying_users] at hv
    exact h.listed_managed b hb (by simp) v hv (by simp)
  · intro v hv _
    exact h.waiting_managed v hv (by simp)

theorem pending_markDying (h : Link none none w) {c : BackendId} (hc : c ∈ w.clients) :
    ∀ v ∈ (w.backends c).users, Pending (some c) v (markDying c w) := by
  intro v hv
  have hdata := h.linked c hc (by simp) v hv
  refine ⟨⟨?_, h.not_waiting c hc (by simp) v hv⟩, h.listed_managed c hc (by simp) v hv (by simp)⟩
  intro b hb hbx hmem
  rw [markDying_users] at hmem
  have hdata' := h.linked b hb (by simp) v hmem
  rw [hdata] at hdata'
  exact hbx hdata'.symm

theorem Link.dropBackend {c : BackendId} (h : Link (some c) none w) :
    Link none none { w.modBackend c (fun b => { b with connection := false }) with
      clients := w.clients.filter fun b => b ≠ c } := by
  have hmem : ∀ b ∈ w.clients.filter (fun b => b ≠ c), b ∈ w.clients ∧ b ≠ c := by
    intro b hb
    simpa using hb
  have hback : ∀ b, b ≠ c →
      (w.modBackend c (fun b => { b with connection := false })).backends b = w.backends b := by
    intro b hb
    simp [modBackend, Function.update_of_ne hb]
  refine ⟨h.nodup.filter _, ?_, by simp, ?_, ?_, h.waiting_nodup, ?_, ?_, ?_, h.keys⟩
  · intro b hb
    exact h.fresh b (hmem b hb).1
  · intro b hb _
    obtain ⟨hb, hne⟩ := hmem b hb
    rw [hback b hne]
    exact h.users_nodup b hb (by simpa using hne)
  · intro b hb _ v hv
    obtain ⟨hb, hne⟩ := hmem b hb
    rw [hback b hne] at hv
    exact h.linked b hb (by simpa using hne) v hv
  · intro b hb _ v hv
    obtain ⟨hb, hne⟩ := hmem b hb
    rw [hback b hne] at hv
    exact h.not_waiting b hb (by simpa using hne) v hv
  · intro b hb _ v hv hz
    obtain ⟨hb, hne⟩ := hmem b hb
    rw [hback b hne] at hv
    exact h.listed_managed b hb (by simpa using hne) v hv hz
  · exact h.waiting_managed

theorem Link.finished (h : Link none none w) (c : BackendId) :
    Link none none (handleSessionFinished c w) := by
  by_cases hc : c ∈ w.clients
  · obtain ⟨w₁, w₂, hq₁, hq₂, heq⟩ := handleSessionFinished_steps hc
    rw [heq]
    have h₁ := (h.markDying c).of_same hq₁.sameLinks
    have hpending : ∀ v ∈ (w.backends c).users, Pending (some c) v w₁ :=
      fun v hv => (pending_markDying h hc v hv).of_same hq₁.sameLinks
    obtain ⟨hloop, -⟩ := dropUsers_induction (I := fun _ _ => True)
      (fun _ _ _ _ _ _ _ _ => trivial) (h.users_nodup c hc (by simp)) h₁ hpending trivial
    exact (hloop.of_same hq₂.sameLinks).dropBackend
  · unfold handleSessionFinished
    rw [if_pos hc]
    exact h.of_same (.of_links rfl)

end Finish

/-! ## The queue and the first PONG -/

section Queue

variable {w w' : World} {u : UserId}

theorem idle_serveLogin (u : UserId) (w : World) :
    Idle w (if (w.user u).readyForConnect then handleUserReadyToConnect u w else w) := by
  split
  · exact idle_handleUserReadyToConnect u w
  · exact .refl w

theorem Link.dequeue (h : Link none none w) {rest : List UserId}
    (hwait : w.waitingUsers = u :: rest) :
    Link none none { w with waitingUsers := rest } ∧
      Unplaced none u { w with waitingUsers := rest } ∧
      World.Managed { w with waitingUsers := rest } u := by
  have hnodup := h.waiting_nodup
  rw [hwait] at hnodup
  obtain ⟨hnot, hrest⟩ := List.nodup_cons.mp hnodup
  have hsub : ∀ v, v ∈ rest → v ∈ w.waitingUsers := by
    intro v hv
    rw [hwait]
    exact List.mem_cons_of_mem u hv
  have hmem : u ∈ w.waitingUsers := by
    rw [hwait]
    exact List.mem_cons_self
  refine ⟨⟨h.nodup, h.fresh, h.dying, h.users_nodup, h.linked, hrest, ?_, h.listed_managed, ?_,
    h.keys⟩, ⟨?_, hnot⟩, h.waiting_managed u hmem (by simp)⟩
  · intro b hb hbx v hv hv'
    exact h.not_waiting b hb hbx v hv (hsub v hv')
  · intro v hv hz
    exact h.waiting_managed v (hsub v hv) hz
  · intro b hb hbx hlisted
    exact h.not_waiting b hb hbx u hlisted hmem

theorem Link.serve (h : Link none none w) {rest : List UserId}
    (hwait : w.waitingUsers = u :: rest) : Link none none (serve u rest w) := by
  obtain ⟨hlink, hun, hm⟩ := h.dequeue hwait
  exact (hlink.created hun hm).of_same (idle_serveLogin u _).sameLinks

theorem Link.connectWaitingUsers (h : Link none none w) :
    Link none none (connectWaitingUsers w) := by
  refine drain_induction ?_ ?_ _ _
    (h.of_same (Quiet.sameLinks (P := fun _ => True) (.emit trivial)))
  · intro w w' hs h
    exact h.of_same hs.sameLinks
  · intro w u rest c hwait _ _ h
    exact h.serve hwait

/-- A change of a backend other than its list of users. -/
theorem Link.modBackend {z : Option UserId} (h : Link none z w) (b : BackendId)
    {f : Backend → Backend} (husers : ∀ c, (f c).users = c.users) :
    Link none z (w.modBackend b f) := by
  have hback : ∀ c, ((w.modBackend b f).backends c).users = (w.backends c).users := by
    intro c
    by_cases hc : c = b
    · subst hc
      simp [World.modBackend, husers]
    · simp [World.modBackend, Function.update_of_ne hc]
  refine ⟨h.nodup, h.fresh, by simp, ?_, ?_, h.waiting_nodup, ?_, ?_, h.waiting_managed, h.keys⟩
  · intro c hc hx
    rw [hback]
    exact h.users_nodup c hc hx
  · intro c hc hx v hv
    rw [hback] at hv
    exact h.linked c hc hx v hv
  · intro c hc hx v hv
    rw [hback] at hv
    exact h.not_waiting c hc hx v hv
  · intro c hc hx v hv
    rw [hback] at hv
    exact h.listed_managed c hc hx v hv

theorem Link.startComponent (h : Link none none w) : Link none none (startComponent w) :=
  h.of_same (quiet_startComponent w).sameLinks

theorem Link.pong (h : Link none none w) (b : BackendId) :
    Link none none (handlePongReceived b w) := by
  have hemit : Link none none (w.emit (.pong b)) := h.of_same (.of_links rfl)
  simp only [handlePongReceived]
  split
  · refine Link.modBackend (Link.connectWaitingUsers (Link.startComponent ?_)) b ?_
    · refine hemit.modBackend b ?_
      intro c
      rfl
    · intro c
      rfl
  · exact hemit.modBackend b fun _ => rfl

theorem Link.loginDelay (h : Link none none w) : Link none none (loginDelayFinished w) :=
  Link.connectWaitingUsers (h.of_same (.of_links rfl))

theorem Link.noteData (h : Link none none w) (b : BackendId) : Link none none (noteData b w) := by
  obtain ⟨v, hv⟩ := noteData_eq b w
  rw [hv]
  exact h.modBackend b fun _ => rfl

theorem Link.stats (h : Link none none w) (b : BackendId) (res : Nat) (id : String) :
    Link none none (handleStatsPayload b res id w) := by
  unfold handleStatsPayload
  exact h.modBackend b fun _ => rfl

theorem Link.collect (h : Link none none w) : Link none none (collectBackend w) := by
  unfold collectBackend
  split
  · exact h
  · exact h.modBackend _ fun _ => rfl

end Queue

/-! ## New backends and the sweep -/

section Backends

variable {w : World} {u : UserId}

theorem sendPing_cases (b : BackendId) (w : World) :
    sendPing b w = w ∨
      ∃ w₁, Idle w w₁ ∧
        sendPing b w = w₁.modBackend b fun c => { c with pongReceived := 0 } := by
  unfold sendPing
  split
  · exact .inr ⟨_, idle_send w b (m := .ping) trivial, rfl⟩
  · exact .inl rfl

theorem Link.sendPing (h : Link none none w) (b : BackendId) : Link none none (sendPing b w) := by
  rcases sendPing_cases b w with heq | ⟨w₁, hq, heq⟩
  · rw [heq]
    exact h
  · rw [heq]
    exact (h.of_same hq.sameLinks).modBackend b fun _ => rfl

/-- A new backend before it is pinged. -/
def withBackend (w : World) : World :=
  { w with
    backends := Function.update w.backends w.nextBackend
      { connection := true, acceptUsers := !w.isNextLongRun, longRun := w.isNextLongRun }
    nextBackend := w.nextBackend + 1
    startingBackend := false
    clients := w.nextBackend :: w.clients }

theorem handleNewClientConnection_eq (w : World) :
    handleNewClientConnection w =
      (sendPing w.nextBackend (withBackend w)).modBackend w.nextBackend fun c =>
        { c with pongReceived := -1 } := rfl

theorem Link.withBackend (h : Link none none w) : Link none none (withBackend w) := by
  have hback : ∀ b ∈ w.clients, (Spectrum.withBackend w).backends b = w.backends b := by
    intro b hb
    have hne : b ≠ w.nextBackend := Nat.ne_of_lt (h.fresh b hb)
    simp [Spectrum.withBackend, Function.update_of_ne hne]
  have hnew : ((Spectrum.withBackend w).backends w.nextBackend).users = [] := by
    simp [Spectrum.withBackend]
  refine ⟨?_, ?_, by simp, ?_, ?_, h.waiting_nodup, ?_, ?_, h.waiting_managed, h.keys⟩
  · refine List.nodup_cons.mpr ⟨?_, h.nodup⟩
    intro hmem
    exact Nat.lt_irrefl _ (h.fresh _ hmem)
  · intro b hb
    rcases List.mem_cons.mp hb with rfl | hb
    · exact Nat.lt_succ_self _
    · exact Nat.lt_succ_of_lt (h.fresh b hb)
  · intro b hb _
    rcases List.mem_cons.mp hb with rfl | hb
    · rw [hnew]
      exact List.nodup_nil
    · rw [hback b hb]
      exact h.users_nodup b hb (by simp)
  · intro b hb _ v hv
    rcases List.mem_cons.mp hb with rfl | hb
    · rw [hnew] at hv
      cases hv
    · rw [hback b hb] at hv
      exact h.linked b hb (by simp) v hv
  · intro b hb _ v hv
    rcases List.mem_cons.mp hb with rfl | hb
    · rw [hnew] at hv
      cases hv
    · rw [hback b hb] at hv
      exact h.not_waiting b hb (by simp) v hv
  · intro b hb _ v hv hz
    rcases List.mem_cons.mp hb with rfl | hb
    · rw [hnew] at hv
      cases hv
    · rw [hback b hb] at hv
      exact h.listed_managed b hb (by simp) v hv hz

theorem Link.newBackend (h : Link none none w) :
    Link none none (handleNewClientConnection w) := by
  rw [handleNewClientConnection_eq]
  exact (h.withBackend.sendPing _).modBackend _ fun _ => rfl

theorem removeFrom_usersOf (old b : BackendId) : ((removeFrom u old w).backends b).users =
    if b = old then (w.backends b).users.filter fun v => v ≠ u else (w.backends b).users := by
  by_cases hb : b = old
  · subst hb
    simp [removeFrom, World.modBackend]
  · simp [removeFrom, World.modBackend, hb]

theorem removeFrom_subset (old b : BackendId) :
    ((removeFrom u old w).backends b).users.Sublist (w.backends b).users := by
  rw [removeFrom_usersOf]
  split
  · exact List.filter_sublist
  · exact List.Sublist.refl _

theorem removeFrom_willDie (old b : BackendId) :
    ((removeFrom u old w).backends b).willDie = (w.backends b).willDie := by
  by_cases hb : b = old
  · subst hb
    simp [removeFrom, World.modBackend]
  · simp [removeFrom, World.modBackend, Function.update_of_ne hb]

/-- A user that leaves the backend he points to is unplaced. -/
theorem Link.removeFrom (h : Link none none w) {old : BackendId}
    (hdata : (w.user u).data = some old) (hwait : u ∉ w.waitingUsers) :
    Link none none (removeFrom u old w) ∧ Unplaced none u (removeFrom u old w) := by
  have hsub := removeFrom_subset (u := u) (w := w) old
  refine ⟨⟨h.nodup, h.fresh, by simp, ?_, ?_, h.waiting_nodup, ?_, ?_, h.waiting_managed, h.keys⟩,
    ⟨?_, hwait⟩⟩
  · intro b hb hx
    exact (h.users_nodup b hb hx).sublist (hsub b)
  · intro b hb hx v hv
    exact h.linked b hb hx v ((hsub b).subset hv)
  · intro b hb hx v hv
    exact h.not_waiting b hb hx v ((hsub b).subset hv)
  · intro b hb hx v hv hz
    exact h.listed_managed b hb hx v ((hsub b).subset hv) hz
  · intro b hb hx hmem
    have hb' := h.linked b hb hx u ((hsub b).subset hmem)
    rw [hdata] at hb'
    rw [removeFrom_usersOf, if_pos (Option.some.inj hb').symm] at hmem
    simp at hmem

theorem sameLinks_ignore : SameLinks w (w.modUser u fun y => { y with ignoreDisconnect := true }) :=
  sameLinks_modUser (fun _ => rfl) (fun _ => rfl)

theorem Link.move (h : Link none none w) (hwait : u ∉ w.waitingUsers) (hm : w.Managed u) :
    Link none none (moveToLongRunBackend u w).2 := by
  rcases moveToLongRunBackend_cases u w with heq | ⟨w₁, hs, heq⟩ | heq |
    ⟨w₁, old, c, hs, hdata, -, -, hc, -, heq⟩
  · rw [heq]
    exact h
  · rw [heq]
    exact h.of_same hs.sameLinks
  · rw [heq]
    exact h.of_same (.of_links rfl)
  · rw [heq]
    have hsame := hs.sameLinks.trans (sameLinks_ignore (u := u))
    have hm₁ := hsame.managed.mpr hm
    have hdata₁ : ((w₁.modUser u fun y => { y with ignoreDisconnect := true }).user u).data =
        some old := by
      rw [hsame.data]
      exact hdata
    have hwait₁ : u ∉ w₁.waitingUsers := by
      rw [hs.waitingUsers]
      exact hwait
    have hc₁ : c ∈ w₁.clients := by
      rw [hs.clients]
      exact hc
    obtain ⟨hlink, hun⟩ := (h.of_same hsame).removeFrom hdata₁ hwait₁
    have hattach : Link none none (NetworkPluginServer.attach .moved u c
        (NetworkPluginServer.removeFrom u old _)) :=
      hlink.attach hun hm₁ hc₁ (by simp)
    exact hattach.of_same (idle_handleUserReadyToConnect u _).sameLinks

/-- A move keeps the queue and the map of users. -/
theorem move_keeps (u : UserId) (w : World) :
    (moveToLongRunBackend u w).2.waitingUsers = w.waitingUsers ∧
      ∀ v, (moveToLongRunBackend u w).2.Managed v ↔ w.Managed v := by
  rcases moveToLongRunBackend_cases u w with heq | ⟨w₁, hs, heq⟩ | heq |
    ⟨w₁, old, c, hs, -, -, -, -, -, heq⟩
  · rw [heq]
    exact ⟨rfl, fun _ => Iff.rfl⟩
  · rw [heq]
    exact ⟨hs.waitingUsers, fun _ => hs.sameLinks.managed⟩
  · rw [heq]
    exact ⟨rfl, fun _ => Iff.rfl⟩
  · rw [heq]
    have hsame := hs.sameLinks.trans (sameLinks_ignore (u := u))
    have hq := idle_handleUserReadyToConnect u (attach .moved u c (removeFrom u old
      (w₁.modUser u fun y => { y with ignoreDisconnect := true })))
    refine ⟨hq.quiet.waitingUsers.trans hs.waitingUsers, fun v => ?_⟩
    rw [hq.sameLinks.managed, attach_managed]
    exact hsame.managed

theorem Link.moveUsers (h : Link none none w) {us : List UserId}
    (hus : ∀ v ∈ us, v ∉ w.waitingUsers ∧ w.Managed v) : Link none none (moveUsers us w) := by
  induction us generalizing w with
  | nil => exact h
  | cons u us ih =>
    obtain ⟨hwait, hm⟩ := hus u List.mem_cons_self
    have hmove := h.move hwait hm
    obtain ⟨hqueue, hmanaged⟩ := move_keeps u w
    unfold NetworkPluginServer.moveUsers
    generalize moveToLongRunBackend u w = r at hmove hqueue hmanaged
    obtain ⟨ok, w₁⟩ := r
    cases ok with
    | false => exact hmove
    | true =>
      apply ih hmove
      intro v hv
      obtain ⟨hv₁, hv₂⟩ := hus v (List.mem_cons_of_mem u hv)
      exact ⟨by rw [hqueue]; exact hv₁, (hmanaged v).mpr hv₂⟩

theorem mem_usersToMove {v : UserId} (hv : v ∈ usersToMove w) :
    ∃ b ∈ w.clients, v ∈ (w.backends b).users := by
  obtain ⟨b, hb, hv⟩ := List.mem_flatMap.mp hv
  refine ⟨b, hb, ?_⟩
  unfold idleUsersOf at hv
  split at hv
  · cases hv
  · exact (List.mem_filter.mp hv).1

theorem Link.moveIdleUsers (h : Link none none w) : Link none none (moveIdleUsers w) := by
  unfold NetworkPluginServer.moveIdleUsers
  split
  · exact h
  · apply h.moveUsers
    intro v hv
    obtain ⟨b, hb, hmem⟩ := mem_usersToMove hv
    exact ⟨h.not_waiting b hb (by simp) v hmem, h.listed_managed b hb (by simp) v hmem (by simp)⟩

theorem Link.checkBackends (h : Link none none w) (bs : List BackendId) :
    Link none none (checkBackends bs w).2 := by
  induction bs generalizing w with
  | nil => exact h
  | cons b bs ih =>
    simp only [NetworkPluginServer.checkBackends]
    split
    · exact ih h
    · exact ih (h.sendPing b)

theorem Link.finishAll (h : Link none none w) (bs : List BackendId) :
    Link none none (bs.foldl (fun w b => handleSessionFinished b w) w) := by
  induction bs generalizing w with
  | nil => exact h
  | cons b bs ih => exact ih (h.finished b)

theorem Link.sweep (h : Link none none w) : Link none none (sweep w) := by
  have hstart : Link none none { w with startingBackend := false } :=
    h.of_same (.of_links rfl)
  exact (hstart.checkBackends w.clients).finishAll _

end Backends

/-! ## Every run -/

section Run

variable {w : World}

/-- `setConnected` up to the part that handles the joined rooms. -/
def markConnected (u : UserId) (w : World) : World :=
  w.modUser u fun y =>
    { y with
      connected := true, reconnectCounter := 0, ignoreDisconnect := false, lastActivity := w.now }

theorem chat_setConnected {S : UserId → Prop} {u : UserId} (hu : S u)
    (hmap : ∀ j v, w.users j = some v → S v) :
    Chat S (markConnected u w) (User.setConnected u w) := by
  have hloop : ∀ (ps : List Presence) (w₁ : World), (∀ j v, w₁.users j = some v → S v) →
      Chat S w₁ (ps.foldl (fun w p => User.handlePresence p true u w) w₁) := by
    intro ps
    induction ps with
    | nil => exact fun w₁ _ => .idle (.refl w₁)
    | cons p ps ih =>
      intro w₁ hmap₁
      have hhead := chat_handlePresence hu hmap₁ p true
      refine .trans hhead (ih _ ?_)
      rw [hhead.quiet.users]
      exact hmap₁
  exact hloop _ _ hmap

theorem quiet_setConnected (u : UserId) (w : World) :
    Quiet Effect.Tame (markConnected u w) (User.setConnected u w) :=
  (chat_setConnected (S := fun _ => True) trivial fun _ _ _ => trivial).quiet

theorem Link.connected (h : Link none none w) (j : Jid) :
    Link none none (handleConnectedPayload j w) := by
  unfold handleConnectedPayload
  split
  · exact h
  · rename_i u _
    have hmark : SameLinks w (markConnected u w) := sameLinks_modUser (fun _ => rfl) (fun _ => rfl)
    have hset := hmark.trans (quiet_setConnected u w).sameLinks
    exact (h.of_same hset).of_same (quiet_onPasswordValid _ j).sameLinks

theorem Link.disconnectedPayload (h : Link none none w) (j : Jid) (error : ConnectionError)
    (message : String) : Link none none (handleDisconnectedPayload j error message w) := by
  have hinvalid := h.of_same (aside_onPasswordInvalid w j message).quiet.sameLinks
  simp only [handleDisconnectedPayload]
  split
  · exact hinvalid
  · rename_i u hu
    exact hinvalid.disconnected (hinvalid.managed_of_users hu) _ _

theorem sameLinks_activity (u : UserId) :
    SameLinks w (w.modUser u fun y => { y with lastActivity := w.now }) :=
  sameLinks_modUser (fun _ => rfl) (fun _ => rfl)

theorem Link.run (h : Link none none w) (e : Event) : Link none none (e.run w) := by
  cases e with
  | clock now => exact h.of_same (.of_links rfl)
  | backendConnected => exact h.newBackend
  | backendLost b => exact h.finished b
  | received b m =>
    have hnote := h.noteData b
    cases m with
    | connected j _ => exact hnote.connected j
    | disconnected j error message => exact hnote.disconnectedPayload j error message
    | pong => exact hnote.pong b
    | stats res id => exact hnote.stats b res id
    | other => exact hnote
  | pingTimeout => exact h.moveIdleUsers.sweep
  | loginDelay => exact h.loginDelay
  | collect => exact h.collect
  | activity u => exact h.of_same (sameLinks_activity u)
  | _ => exact h.front (front_run rfl w)

theorem step_eq_some {e : Event} {w' : World} (hs : w.step e = some w') :
    e.enabled w = true ∧ (e.run w).fault = false ∧ e.run w = w' := by
  unfold World.step at hs
  split at hs
  · rename_i hcond
    exact ⟨hcond.1, hcond.2, Option.some.inj hs⟩
  · cases hs

theorem mem_clients_of_enabled {b : BackendId} {m : FromBackend}
    (h : (Event.received b m).enabled w = true) : b ∈ w.clients := by
  simpa only [Event.enabled, decide_eq_true_eq] using h

theorem Link.step {e : Event} {w' : World} (h : Link none none w) (hs : w.step e = some w') :
    Link none none w' := by
  obtain ⟨-, -, rfl⟩ := step_eq_some hs
  exact h.run e

/-- The links hold in every reachable state. -/
theorem link_of_run {tr : List (World × Event)} (h : machine.Run tr w) : Link none none w := by
  refine h.invariant ?_ ?_
  · rintro s ⟨cfg, now, storage, rfl⟩
    exact link_start cfg now storage
  · intro s e s' hs hlink
    exact hlink.step hs

theorem init_start (cfg : Config) (now : Int) (storage : Option (Jid → Option UserInfo)) :
    machine.init (World.start cfg now storage) := ⟨cfg, now, storage, rfl⟩

end Run

/-! ## A small deployment -/

namespace Sample

/-- A gateway that registers everybody. -/
def cfg : Config := { needRegistration := some false }

def jid (node : String) : Jid := ⟨node, "example.org", ""⟩

def available (node : String) : Presence :=
  { fromJid := ⟨node, "example.org", "home"⟩, toJid := ⟨"", "localhost", ""⟩ }

end Sample

end Spectrum
