import Spectrum.Lib.Lists
import Spectrum.Transport.Sweep

/-!
# Whom a sweep disconnects

The removal list of a sweep is fixed before the first backend is finished, but the users of a
finished backend are reconnected at once, and the search may give them a backend that is on
the list and still to be finished: they are then disconnected again.

`Roomy` is the condition that this does not happen: for every listed backend that the search
would accept, the users to be reconnected of the listed backends before it in `m_clients` fit
into the free room of the backends before it that are not listed. With a login delay only one
of them is assigned at once, and while logins are postponed none.
-/

namespace Spectrum

open World NetworkPluginServer

/-! ## Demand and room -/

/-- The sweep that starts in `m` puts the backend on its list. -/
def listed (m : World) (b : BackendId) : Bool :=
  decide ((m.backends b).pongReceived = 0) || decide ((m.backends b).users = [])

/-- The number of users of a listed backend that are reconnected automatically. -/
def demand (m : World) (b : BackendId) : Nat :=
  if listed m b then (m.backends b).users.countP (resumes m) else 0

/-- The free places of a backend that the sweep started in `m` does not list. -/
def spare (m w : World) (b : BackendId) : Nat :=
  if !listed m b && isFree true false w b then
    (w.cfg.usersPerBackend - (w.backends b).users.length).toNat
  else 0

/-- The backends that stand before `t` in `m_clients`. -/
def before (m : World) (t : BackendId) : List BackendId := m.clients.takeWhile (· ≠ t)

def demandBefore (m : World) (t : BackendId) : Nat := ((before m t).map (demand m)).sum

def roomBefore (m w : World) (t : BackendId) : Nat := ((before m t).map (spare m w)).sum

/-- How many of `n` reconnecting users are assigned in one event. -/
def assigned (m : World) (n : Nat) : Nat :=
  if loginPostponed m then 0 else if 0 < m.cfg.loginDelay then min n 1 else n

/-- No listed backend is reached by the search before it is finished. -/
def Fitting (m : World) : Prop :=
  ∀ t ∈ m.clients, listed m t = true → isFree true false m t = true →
    assigned m (demandBefore m t) ≤ roomBefore m m t

instance (m : World) : Decidable (Fitting m) :=
  inferInstanceAs (Decidable (∀ t ∈ m.clients, listed m t = true → isFree true false m t = true →
    assigned m (demandBefore m t) ≤ roomBefore m m t))

/-- The condition for one step: a sweep starts, after the moves of idle users, in a state
where the reconnecting users fit. -/
def Roomy (w : World) (e : Event) : Prop := e = .pingTimeout → Fitting (moveIdleUsers w)

instance (w : World) (e : Event) : Decidable (Roomy w e) := inferInstanceAs (Decidable (_ → _))

/-- The users disconnected by `pingTimeout` are different users of backends that had not
answered the previous PING when the sweep started. -/
def OnlyLate (w : World) : Prop :=
  ∃ us, (NetworkPluginServer.pingTimeout w).dropped = us ++ (moveIdleUsers w).dropped ∧ us.Nodup ∧
    ∀ u ∈ us, ∃ b ∈ (moveIdleUsers w).clients,
      ((moveIdleUsers w).backends b).pongReceived = 0 ∧ u ∈ ((moveIdleUsers w).backends b).users

section Sweeping

variable {m w w' : World} {u : UserId}

theorem resumes_congr (h : (w'.user u).core = (w.user u).core) : resumes w' u = resumes w u :=
  (congrArg (fun x : User => !x.ignoreDisconnect && User.reconnects x .otherError) h :)

/-- A search during the sweep started in `m`. The backends of `keep` are still in `m_clients`,
those of `rest` are untouched, the users of `us` are still to be disconnected, and `k` users
have been assigned. -/
structure Sweeping (m : World) (keep rest : List BackendId) (us : List UserId) (k : Nat)
    (w : World) : Prop where
  cfg : w.cfg = m.cfg
  now : w.now = m.now
  clients : w.clients = m.clients.filter fun b => !listed m b || decide (b ∈ keep)
  backends : ∀ t ∈ rest, listed m t = true →
    { w.backends t with pongReceived := 0 } = { m.backends t with pongReceived := 0 }
  waiting : ∀ t ∈ rest, listed m t = true → ∀ u ∈ (m.backends t).users,
    (w.user u).core = (m.user u).core
  current : ∀ u ∈ us, (w.user u).core = (m.user u).core
  login : loginPostponed w = false →
    loginPostponed m = false ∧ (0 < m.cfg.loginDelay → k = 0)
  room : ∀ t ∈ rest, listed m t = true → roomBefore m m t ≤ roomBefore m w t + k

/-- There is still room before a listed backend that the search would accept. -/
theorem Sweeping.room_pos {keep rest : List BackendId} {us : List UserId} {k : Nat}
    (h : Sweeping m keep rest us k w) (hfit : Fitting m) {t : BackendId} (ht : t ∈ rest)
    (hmem : t ∈ m.clients) (hl : listed m t = true) (hfree : isFree true false w t = true)
    (hk : k + 1 ≤ demandBefore m t) (hpost : loginPostponed w = false) :
    0 < roomBefore m w t := by
  have hfree' : isFree true false m t = true :=
    (isFree_congr h.cfg (h.backends t ht hl)).symm.trans hfree
  have hroom := h.room t ht hl
  have hneed := hfit t hmem hl hfree'
  obtain ⟨hpost', hdelay⟩ := h.login hpost
  unfold assigned at hneed
  rw [hpost'] at hneed
  by_cases hd : 0 < m.cfg.loginDelay
  · have hk0 := hdelay hd
    simp only [hd, ↓reduceIte, Bool.false_eq_true] at hneed
    omega
  · simp only [hd, ↓reduceIte, Bool.false_eq_true] at hneed
    omega

theorem exists_spare {t : BackendId} (h : 0 < roomBefore m w t) :
    ∃ b ∈ before m t, listed m b = false ∧ isFree true false w b = true := by
  by_contra hnone
  have hzero : roomBefore m w t = 0 := by
    unfold roomBefore
    apply List.sum_eq_zero
    intro x hx
    obtain ⟨b, hb, rfl⟩ := List.mem_map.mp hx
    unfold spare
    split
    · rename_i hcond
      simp only [Bool.and_eq_true, Bool.not_eq_true'] at hcond
      exact absurd ⟨b, hb, hcond⟩ hnone
    · rfl
  omega

/-- The search does not find a listed backend. -/
theorem Sweeping.not_listed {c : BackendId} {rest : List BackendId} {us : List UserId} {k : Nat}
    (h : Sweeping m (c :: rest) rest us k w) (hfit : Fitting m)
    (hdying : (w.backends c).willDie = true) (hk : ∀ t ∈ rest, k + 1 ≤ demandBefore m t)
    (hpost : loginPostponed w = false) {d : BackendId} (hfind : findFree true false w = some d) :
    listed m d = false := by
  obtain ⟨hd, hfree⟩ := findFree_eq_some hfind
  rw [h.clients] at hd
  obtain ⟨hmem, hkeep⟩ := List.mem_filter.mp hd
  cases hl : listed m d with
  | false => rfl
  | true =>
    exfalso
    rw [hl] at hkeep
    simp only [Bool.not_true, Bool.false_or, decide_eq_true_eq] at hkeep
    rcases List.mem_cons.mp hkeep with rfl | hrest
    · rw [(isFree_iff.mp hfree).1] at hdying
      cases hdying
    · obtain ⟨b, hb, hbl, hbfree⟩ :=
        exists_spare (h.room_pos hfit hrest hmem hl hfree (hk d hrest) hpost)
      have hbefore : b ∈ w.clients.takeWhile (· ≠ d) := by
        rw [h.clients]
        exact Lib.mem_takeWhile_filter hb (by simp [hbl])
      exact Lib.find?_ne_of_mem_takeWhile hbefore hbfree hfind

/-! ## One user -/

theorem spare_congr {b : BackendId} (hcfg : w'.cfg = w.cfg)
    (hback : { w'.backends b with pongReceived := 0 } =
      { w.backends b with pongReceived := 0 }) : spare m w' b = spare m w b := by
  have husers : (w'.backends b).users = (w.backends b).users := (congrArg Backend.users hback :)
  unfold spare
  rw [isFree_congr hcfg hback, hcfg, husers]

/-- Changes of listed backends do not change the room. -/
theorem roomBefore_congr {t : BackendId} (hcfg : w'.cfg = w.cfg)
    (hback : ∀ b, listed m b = false →
      { w'.backends b with pongReceived := 0 } = { w.backends b with pongReceived := 0 }) :
    roomBefore m w' t = roomBefore m w t := by
  unfold roomBefore
  congr 1
  apply List.map_congr_left
  intro b _
  cases hl : listed m b with
  | true => simp [spare, hl]
  | false => exact spare_congr hcfg (hback b hl)

/-- A backend that takes a user loses one free place. -/
theorem spare_takes {d : BackendId} (hcfg : w'.cfg = w.cfg) (ht : Takes u d w w')
    (hfree : isFree true false w d = true) : spare m w d ≤ spare m w' d + 1 := by
  obtain ⟨a, ha, hback⟩ := ht
  have hd : w'.backends d =
      { w.backends d with users := (w.backends d).users ++ [u], acceptUsers := a } := by
    rw [hback, Function.update_self]
  obtain ⟨hdie, haccept, hlen, hconn, hlong⟩ := isFree_iff.mp hfree
  have hlen' : ((w'.backends d).users.length : Int) = (w.backends d).users.length + 1 := by
    rw [hd]
    simp
  unfold spare
  cases hl : listed m d with
  | true => simp
  | false =>
    rw [hfree, hcfg, hlen']
    simp only [Bool.not_false, Bool.and_self, ↓reduceIte, Bool.true_and]
    by_cases hfree' : isFree true false w' d = true
    · rw [if_pos hfree']
      omega
    · rw [if_neg hfree']
      have hfull : w.cfg.usersPerBackend ≤ ((w.backends d).users.length : Int) + 1 := by
        by_contra hroom
        apply hfree'
        rw [isFree_iff, hcfg, hlen', hd]
        rcases ha with ha | ha
        · exact ⟨hdie, ha.trans haccept, by omega, hconn, hlong⟩
        · exact absurd ha hroom
      omega

theorem postponed_of_login (hcfg : w'.cfg = w.cfg) (hlast : w'.lastLogin = w'.now)
    (hpost : loginPostponed w' = false) : ¬0 < w.cfg.loginDelay := by
  intro hdelay
  unfold loginPostponed at hpost
  rw [hlast, hcfg] at hpost
  simp only [Int.sub_self, Bool.and_eq_false_iff, bne_eq_false_iff_eq, decide_eq_false_iff_not]
    at hpost
  omega

section Disconnect

variable {keep rest : List BackendId} {us : List UserId} {k k' : Nat}

/-- A step that is about the next user only. -/
theorem Sweeping.next (h : Sweeping m keep rest (u :: us) k w) (hnot : u ∉ us)
    (hforeign : ∀ t ∈ rest, listed m t = true → u ∉ (m.backends t).users)
    (hsteady : Steady w w') (ho : Others (some u) w w')
    (hback : ∀ t ∈ rest, listed m t = true → w'.backends t = w.backends t)
    (hlogin : loginPostponed w' = false →
      loginPostponed m = false ∧ (0 < m.cfg.loginDelay → k' = 0))
    (hroom : ∀ t ∈ rest, listed m t = true → roomBefore m m t ≤ roomBefore m w' t + k') :
    Sweeping m keep rest us k' w' where
  cfg := hsteady.cfg.trans h.cfg
  now := hsteady.now.trans h.now
  clients := hsteady.clients.trans h.clients
  backends := by
    intro t ht hl
    rw [hback t ht hl]
    exact h.backends t ht hl
  waiting := by
    intro t ht hl v hv
    have hne : some v ≠ some u := by
      intro heq
      cases heq
      exact hforeign t ht hl hv
    exact (ho.user v hne).trans (h.waiting t ht hl v hv)
  current := by
    intro v hv
    have hne : some v ≠ some u := by
      intro heq
      cases heq
      exact hnot hv
    exact (ho.user v hne).trans (h.current v (List.mem_cons_of_mem u hv))
  login := hlogin
  room := hroom

/-- The room after a user was taken by a backend that is not listed. -/
theorem roomBefore_takes {d t : BackendId} (hnodup : m.clients.Nodup) (hcfg : w'.cfg = w.cfg)
    (hother : ∀ b, b ≠ d → w'.backends b = w.backends b) (ht : Takes u d w w')
    (hfree : isFree true false w d = true) : roomBefore m w t ≤ roomBefore m w' t + 1 :=
  Lib.sum_map_le_succ (hnodup.sublist (List.takeWhile_sublist _))
    (fun b hb => Nat.le_of_eq (spare_congr hcfg (by rw [hother b hb])).symm)
    (spare_takes hcfg ht hfree)

theorem Sweeping.dropUser {c : BackendId} (h : Sweeping m (c :: rest) rest (u :: us) k w)
    (hfit : Fitting m) (hnodup : m.clients.Nodup) (hnot : u ∉ us)
    (hlink : Link (some c) none w) (hu : Pending (some c) u w)
    (hforeign : ∀ t ∈ rest, listed m t = true → u ∉ (m.backends t).users)
    (hk : resumes m u = true → ∀ t ∈ rest, k + 1 ≤ demandBefore m t) :
    ∃ k', k' ≤ k + (if resumes m u then 1 else 0) ∧
      Sweeping m (c :: rest) rest us k' (dropUser w u) := by
  have hd := dropped_dropUser w u
  have ho := others_dropUser hlink hu
  have hcfg := hd.steady.cfg
  have hsearched : loginPostponed w = false →
      (NetworkPluginServer.dropUser w u).lastLogin = w.now → ∀ k',
      loginPostponed (NetworkPluginServer.dropUser w u) = false →
      loginPostponed m = false ∧ (0 < m.cfg.loginDelay → k' = 0) := by
    intro hpost hlast k' hpost'
    refine ⟨(h.login hpost).1, fun hdelay => ?_⟩
    exact absurd hdelay
      (postponed_of_login (hcfg.trans h.cfg) (hlast.trans hd.steady.now.symm) hpost')
  cases hd.search with
  | skipped hback hlast =>
    refine ⟨k, Nat.le_add_right _ _, h.next hnot hforeign hd.steady ho ?_ ?_ ?_⟩
    · intro t _ _
      rw [hback]
    · intro hpost
      rw [loginPostponed_congr hcfg hd.steady.now hlast] at hpost
      exact h.login hpost
    · intro t ht hl
      rw [roomBefore_congr hcfg fun b _ => by rw [hback]]
      exact h.room t ht hl
  | failed hpost hlast hback =>
    refine ⟨k, Nat.le_add_right _ _, h.next hnot hforeign hd.steady ho ?_
      (hsearched hpost hlast k) ?_⟩
    · intro t _ _
      rw [hback]
    · intro t ht hl
      rw [roomBefore_congr hcfg fun b _ => by rw [hback]]
      exact h.room t ht hl
  | found d hpost hlast hfind htakes =>
    have hother : ∀ b, b ≠ d →
        (NetworkPluginServer.dropUser w u).backends b = w.backends b := by
      intro b hb
      obtain ⟨a, -, hback⟩ := htakes
      rw [hback, Function.update_of_ne hb]
    have hchanged : (NetworkPluginServer.dropUser w u).backends ≠ w.backends := by
      obtain ⟨a, -, hback⟩ := htakes
      intro heq
      have hlen := congrArg (fun f => (f d).users.length) (hback.symm.trans heq)
      simp at hlen
    have hres : resumes w u = resumes m u := resumes_congr (h.current u List.mem_cons_self)
    have hresumes : resumes m u = true := hres.symm.trans (hd.resumes (.inl hchanged))
    have hfalse := h.not_listed hfit (hlink.dying c rfl) (hk hresumes) hpost hfind
    refine ⟨k + 1, by rw [if_pos hresumes], h.next hnot hforeign hd.steady ho ?_
      (hsearched hpost hlast (k + 1)) ?_⟩
    · intro t _ hl
      apply hother
      rintro rfl
      rw [hl] at hfalse
      cases hfalse
    · intro t ht hl
      have htaken := roomBefore_takes (t := t) hnodup hcfg hother htakes (findFree_eq_some hfind).2
      have hroom := h.room t ht hl
      omega

end Disconnect

/-! ## One backend -/

/-- A change of a listed backend that is not among the untouched ones. -/
theorem Sweeping.touch {c : BackendId} {keep keep' rest : List BackendId} {us : List UserId}
    {k : Nat} (h : Sweeping m keep rest us k w) (hl : listed m c = true) (hc : c ∉ rest)
    (hcfg : w'.cfg = w.cfg) (hnow : w'.now = w.now) (hlast : w'.lastLogin = w.lastLogin)
    (hback : ∀ b, b ≠ c → w'.backends b = w.backends b)
    (huser : ∀ v, (w'.user v).core = (w.user v).core)
    (hclients : w'.clients = m.clients.filter fun b => !listed m b || decide (b ∈ keep')) :
    Sweeping m keep' rest us k w' := by
  have hne : ∀ t ∈ rest, t ≠ c := by
    rintro t ht rfl
    exact hc ht
  refine ⟨hcfg.trans h.cfg, hnow.trans h.now, hclients, ?_, ?_, ?_, ?_, ?_⟩
  · intro t ht htl
    rw [hback t (hne t ht)]
    exact h.backends t ht htl
  · intro t ht htl v hv
    exact (huser v).trans (h.waiting t ht htl v hv)
  · intro v hv
    exact (huser v).trans (h.current v hv)
  · intro hpost
    rw [loginPostponed_congr hcfg hnow hlast] at hpost
    exact h.login hpost
  · intro t ht htl
    rw [roomBefore_congr hcfg ?_]
    · exact h.room t ht htl
    · intro b hb
      have hbc : b ≠ c := by
        rintro rfl
        rw [hl] at hb
        cases hb
      rw [hback b hbc]

/-- The users of another backend are not users of this one. -/
theorem Link.foreign (h : Link none none m) {c t : BackendId} (hc : c ∈ m.clients)
    (ht : t ∈ m.clients) (hne : t ≠ c) (hu : u ∈ (m.backends c).users) :
    u ∉ (m.backends t).users := by
  intro hu'
  have hdata := h.linked c hc (by simp) u hu
  have hdata' := h.linked t ht (by simp) u hu'
  rw [hdata] at hdata'
  exact hne (Option.some.inj hdata').symm

/-- In the loop over the users of the backend `c`: those assigned so far and those still to
be reconnected are within the bound. -/
def Looping (m : World) (c : BackendId) (rest : List BackendId) (bound : Nat) (us : List UserId)
    (w : World) : Prop :=
  ∃ k, k + us.countP (resumes m) ≤ bound ∧ us ⊆ (m.backends c).users ∧
    Sweeping m (c :: rest) rest us k w

theorem Looping.step {c : BackendId} {rest : List BackendId} {bound : Nat} {us : List UserId}
    (h : Looping m c rest bound (u :: us) w) (hm : Link none none m) (hfit : Fitting m)
    (hc : c ∈ m.clients) (hrest : ∀ t ∈ rest, t ∈ m.clients ∧ t ≠ c)
    (hbound : ∀ t ∈ rest, bound ≤ demandBefore m t) (hnot : u ∉ us)
    (hlink : Link (some c) none w) (hu : Pending (some c) u w) :
    Looping m c rest bound us (dropUser w u) := by
  obtain ⟨k, hk, hsub, hsweep⟩ := h
  obtain ⟨hmem, hsub'⟩ := List.cons_subset.mp hsub
  rw [List.countP_cons] at hk
  obtain ⟨k', hk', hsweep'⟩ := hsweep.dropUser hfit hm.nodup hnot hlink hu
    (fun t ht _ => hm.foreign hc (hrest t ht).1 (hrest t ht).2 hmem) (by
      intro hres t ht
      rw [if_pos hres] at hk
      have hle := hbound t ht
      omega)
  exact ⟨k', by omega, hsub', hsweep'⟩

/-- Finishing a listed backend disconnects the users it had when the sweep started. -/
theorem Sweeping.finish {c : BackendId} {rest : List BackendId} {k : Nat}
    (h : Sweeping m (c :: rest) (c :: rest) [] k w) (hm : Link none none m) (hfit : Fitting m)
    (hlink : Link none none w) (hl : listed m c = true) (hc : c ∈ m.clients)
    (hrest : ∀ t ∈ rest, t ∈ m.clients ∧ t ≠ c)
    (hbound : ∀ t ∈ rest, k + demand m c ≤ demandBefore m t) :
    (handleSessionFinished c w).dropped = (m.backends c).users.reverse ++ w.dropped ∧
      ∃ k', k' ≤ k + demand m c ∧ Sweeping m rest rest [] k' (handleSessionFinished c w) := by
  have hcw : c ∈ w.clients := by
    rw [h.clients]
    exact List.mem_filter.mpr ⟨hc, by simp⟩
  have hnotc : c ∉ rest := fun hmem => (hrest c hmem).2 rfl
  have husers : (w.backends c).users = (m.backends c).users :=
    (congrArg Backend.users (h.backends c List.mem_cons_self hl) :)
  obtain ⟨-, hclients, hdropped⟩ := finished_spec hcw
  rw [husers] at hdropped
  refine ⟨hdropped, ?_⟩
  obtain ⟨w₁, w₂, hq₁, hq₂, heq⟩ := handleSessionFinished_steps hcw
  have hbegin : Sweeping m (c :: rest) rest (m.backends c).users k w :=
    ⟨h.cfg, h.now, h.clients, fun t ht => h.backends t (List.mem_cons_of_mem c ht),
      fun t ht => h.waiting t (List.mem_cons_of_mem c ht), h.waiting c List.mem_cons_self hl,
      h.login, fun t ht => h.room t (List.mem_cons_of_mem c ht)⟩
  have hmarked : Sweeping m (c :: rest) rest (m.backends c).users k w₁ := by
    refine hbegin.touch hl hnotc hq₁.quiet.cfg (congrArg Core.now hq₁.core)
      (congrArg Core.lastLogin hq₁.core) ?_ hq₁.quiet.user (hq₁.quiet.clients.trans h.clients)
    intro b hb
    rw [hq₁.quiet.backends]
    simp [markDying, modBackend, emit, Function.update_of_ne hb]
  have hcount : k + (m.backends c).users.countP (resumes m) ≤ k + demand m c := by
    unfold demand
    rw [if_pos hl]
  have hloop := dropUsers_induction (I := Looping m c rest (k + demand m c))
    (fun u us w hnot hlink hu _ h => h.step hm hfit hc hrest hbound hnot hlink hu)
    (hlink.users_nodup c hcw (by simp)) ((hlink.markDying c).of_same hq₁.sameLinks)
    (fun v hv => (pending_markDying hlink hcw v hv).of_same hq₁.sameLinks)
    (by rw [husers]; exact ⟨k, hcount, fun _ hv => hv, hmarked⟩)
  obtain ⟨-, k', hk', -, hsweep⟩ := hloop
  refine ⟨k', hk', ?_⟩
  have hkeep : w.clients.filter (fun b => b ≠ c) =
      m.clients.filter fun b => !listed m b || decide (b ∈ rest) := by
    rw [h.clients, List.filter_filter]
    apply List.filter_congr
    intro b _
    by_cases hb : b = c
    · subst hb
      simp [hl, hnotc]
    · simp [hb]
  rw [hkeep] at hclients
  refine hsweep.touch hl hnotc ?_ ?_ ?_ ?_ ?_ hclients
  · rw [heq]
    exact hq₂.quiet.cfg
  · rw [heq]
    exact congrArg Core.now hq₂.core
  · rw [heq]
    exact congrArg Core.lastLogin hq₂.core
  · intro b hb
    rw [heq]
    simp only [modBackend, Function.update_of_ne hb]
    rw [hq₂.quiet.backends]
  · intro v
    rw [heq]
    exact hq₂.quiet.user v

/-! ## The whole sweep -/

theorem demandBefore_split {done rest : List BackendId} {c t : BackendId}
    (hsplit : m.clients = done ++ c :: rest) (hnodup : m.clients.Nodup) (ht : t ∈ rest) :
    (done.map (demand m)).sum + demand m c ≤ demandBefore m t := by
  rw [hsplit] at hnodup
  have hdone : t ∉ done := by
    intro hmem
    exact (List.nodup_append.mp hnodup).2.2 t hmem t (List.mem_cons_of_mem c ht) rfl
  have hne : c ≠ t := by
    rintro rfl
    exact (List.nodup_cons.mp (List.nodup_append.mp hnodup).2.1).1 ht
  unfold demandBefore before
  rw [hsplit, Lib.takeWhile_append_of_not_mem hdone,
    List.takeWhile_cons_of_pos (by simpa using hne)]
  simp only [List.map_append, List.sum_append, List.map_cons, List.sum_cons]
  omega

theorem expired_of_not_listed {b : BackendId} (h : listed m b = false) : expired m b = [] := by
  simp only [listed, Bool.or_eq_false_iff, decide_eq_false_iff_not] at h
  simp [expired, h.1, h.2]

/-- A backend that is listed twice is finished once; the second call finds it freed. -/
theorem finish_expired {c : BackendId} (h : listed m c = true) (w : World) :
    (expired m c).foldl (fun w b => handleSessionFinished b w) w = handleSessionFinished c w ∨
      (expired m c).foldl (fun w b => handleSessionFinished b w) w =
        { handleSessionFinished c w with fault := true } := by
  have hagain : handleSessionFinished c (handleSessionFinished c w) =
      { handleSessionFinished c w with fault := true } := by
    have hgone := (finished_clients c w).2
    generalize handleSessionFinished c w = w₁ at hgone
    unfold handleSessionFinished
    rw [if_pos hgone]
  simp only [listed, Bool.or_eq_true, decide_eq_true_eq] at h
  unfold expired
  by_cases hlate : (m.backends c).pongReceived = 0
  · by_cases hidle : (m.backends c).users = []
    · rw [if_pos hlate, if_pos hidle]
      exact .inr hagain
    · rw [if_pos hlate, if_neg hidle]
      exact .inl rfl
  · have hidle : (m.backends c).users = [] := by
      rcases h with h | h
      · exact absurd h hlate
      · exact h
    rw [if_neg hlate, if_pos hidle]
    exact .inl rfl

/-- Finishing the listed backends from `rest` on disconnects their users, one after the
other. -/
theorem Sweeping.finishAll {done rest : List BackendId} {k : Nat}
    (h : Sweeping m rest rest [] k w) (hm : Link none none m) (hfit : Fitting m)
    (hlink : Link none none w) (hsplit : m.clients = done ++ rest)
    (hk : k ≤ (done.map (demand m)).sum) :
    ((rest.flatMap (expired m)).foldl (fun w b => handleSessionFinished b w) w).dropped =
      ((rest.filter (listed m)).flatMap fun b => (m.backends b).users).reverse ++ w.dropped := by
  induction rest generalizing done k w with
  | nil => rfl
  | cons c rest ih =>
    have hnodup := hm.nodup
    have hsplit' : m.clients = (done ++ [c]) ++ rest := by
      rw [hsplit]
      simp
    have hc : c ∈ m.clients := by
      rw [hsplit]
      simp
    have hrest : ∀ t ∈ rest, t ∈ m.clients ∧ t ≠ c := by
      intro t ht
      refine ⟨by rw [hsplit]; simp [ht], ?_⟩
      rintro rfl
      rw [hsplit] at hnodup
      exact (List.nodup_cons.mp (List.nodup_append.mp hnodup).2.1).1 ht
    have hsum : ((done ++ [c]).map (demand m)).sum = (done.map (demand m)).sum + demand m c := by
      simp
    rw [List.flatMap_cons, List.foldl_append]
    cases hl : listed m c with
    | false =>
      rw [expired_of_not_listed hl, List.filter_cons_of_neg (by simp [hl])]
      have hkeep : w.clients = m.clients.filter fun b => !listed m b || decide (b ∈ rest) := by
        rw [h.clients]
        apply List.filter_congr
        intro b _
        by_cases hb : b = c
        · subst hb
          simp [hl]
        · simp [hb]
      have hnext : Sweeping m rest rest [] k w :=
        ⟨h.cfg, h.now, hkeep, fun t ht => h.backends t (List.mem_cons_of_mem c ht),
          fun t ht => h.waiting t (List.mem_cons_of_mem c ht), by simp, h.login,
          fun t ht => h.room t (List.mem_cons_of_mem c ht)⟩
      refine ih hnext hlink hsplit' ?_
      rw [hsum]
      omega
    | true =>
      obtain ⟨hdropped, k', hk', hsweep⟩ := h.finish hm hfit hlink hl hc hrest (by
        intro t ht
        have hle := demandBefore_split hsplit hnodup ht
        omega)
      have hlink' := hlink.finished c
      rw [List.filter_cons_of_pos hl, List.flatMap_cons, List.reverse_append, List.append_assoc,
        ← hdropped]
      have hk'' : k' ≤ ((done ++ [c]).map (demand m)).sum := by
        rw [hsum]
        omega
      rcases finish_expired hl w with heq | heq
      · rw [heq]
        exact ih hsweep hlink' hsplit' hk''
      · rw [heq]
        refine ih (w := { handleSessionFinished c w with fault := true }) ?_ ?_ hsplit' hk''
        · exact ⟨hsweep.cfg, hsweep.now, hsweep.clients, hsweep.backends, hsweep.waiting,
            hsweep.current, hsweep.login, hsweep.room⟩
        · exact hlink'.of_same (.of_links rfl)

/-- A sweep that starts in a fitting state disconnects each user of a listed backend once. -/
theorem sweep_dropped (hm : Link none none m) (hfit : Fitting m) : (sweep m).dropped =
    ((m.clients.filter (listed m)).flatMap fun b => (m.backends b).users).reverse ++ m.dropped := by
  have hping := pinged_checkBackends m.clients { m with startingBackend := false }
  have hlink₀ : Link none none { m with startingBackend := false } :=
    hm.of_same (.of_links rfl)
  have hlink := hlink₀.checkBackends m.clients
  have hdropped : (checkBackends m.clients { m with startingBackend := false }).2.dropped =
      m.dropped := hping.log.dropped Effect.Plain.not_disconnected
  rw [sweep_eq, toRemove_eq hm.nodup]
  generalize (checkBackends m.clients { m with startingBackend := false }).2 = w
    at hping hlink hdropped
  rw [← hdropped]
  have hback : ∀ b, { w.backends b with pongReceived := 0 } =
      { m.backends b with pongReceived := 0 } := by
    intro b
    obtain ⟨v, heq, -⟩ := hping.backends b
    rw [heq]
  have hstart : Sweeping m m.clients m.clients [] 0 w := by
    refine ⟨hping.cfg, (congrArg World.now hping.rest :), ?_, fun t _ _ => hback t,
      fun t _ _ u _ => by rw [hping.user], by simp, ?_, ?_⟩
    · rw [hping.clients]
      symm
      apply List.filter_eq_self.mpr
      intro b hb
      simp [hb]
    · intro hpost
      rw [loginPostponed_congr hping.cfg (congrArg World.now hping.rest :)
        (congrArg World.lastLogin hping.rest :)] at hpost
      exact ⟨hpost, fun _ => rfl⟩
    · intro t _ _
      have hroom : roomBefore m w t = roomBefore m m t :=
        roomBefore_congr hping.cfg fun b _ => hback b
      rw [hroom]
      exact Nat.le_refl _
  have hsplit : m.clients = [] ++ m.clients := rfl
  exact hstart.finishAll hm hfit hlink hsplit (Nat.zero_le _)

theorem onlyLate_of_fitting (hlink : Link none none w) (hfit : Fitting (moveIdleUsers w)) :
    OnlyLate w := by
  have hm := hlink.moveIdleUsers
  refine ⟨_, sweep_dropped hm hfit, ?_, ?_⟩
  · rw [List.nodup_reverse, List.nodup_flatMap]
    refine ⟨?_, ?_⟩
    · intro b hb
      exact hm.users_nodup b (List.mem_filter.mp hb).1 (by simp)
    · refine List.Pairwise.imp_of_mem ?_ (hm.nodup.filter _)
      intro b c hb hc hne u hu hu'
      exact hm.foreign (List.mem_filter.mp hb).1 (List.mem_filter.mp hc).1 hne.symm hu hu'
  · intro u hu
    obtain ⟨b, hb, hmem⟩ := List.mem_flatMap.mp (List.mem_reverse.mp hu)
    obtain ⟨hclient, hl⟩ := List.mem_filter.mp hb
    simp only [listed, Bool.or_eq_true, decide_eq_true_eq] at hl
    rcases hl with hlate | hidle
    · exact ⟨b, hclient, hlate, hmem⟩
    · rw [hidle] at hmem
      cases hmem

/-! ## Every run -/

/-- In every run whose sweeps start with enough room, a sweep disconnects only users of
backends that did not answer, and no user twice. -/
theorem onlyLate_of_roomy {tr : List (World × Event)} (h : machine.Run tr w)
    (hr : Lib.Machine.Meets Roomy tr) : ∀ p ∈ tr, p.2 = .pingTimeout → OnlyLate p.1 := by
  intro p hp he
  obtain ⟨tr', hrun, -⟩ := h.source p hp
  exact onlyLate_of_fitting (link_of_run hrun) (hr p hp he)

end Sweeping

namespace Sample

/-- Bob is on backend 0 and alice on backend 1; only backend 0 answers the PING. -/
def silentEvents : List Event :=
  [.presence (available "bob"), .backendConnected, .received 0 .pong, .backendConnected,
    .received 1 .pong, .presence (available "alice"), .pingTimeout, .received 0 .pong]

end Sample

/-- Alice is taken over by the backend of bob, which is not swept. -/
theorem onlyLate_alice :
    ∃ tr w, machine.Run tr w ∧ Lib.Machine.Meets Roomy tr ∧
      (w.dropped = [1] ∧ (w.backends 0).users = [0, 1]) ∧
      ∀ p ∈ tr, p.2 = .pingTimeout → OnlyLate p.1 := by
  have hexec : ∃ w, (machine.restrict Roomy).exec (World.start Sample.cfg 0 none)
      (Sample.silentEvents ++ [.pingTimeout]) = some w ∧
      w.dropped = [1] ∧ (w.backends 0).users = [0, 1] := ⟨_, by rfl, by rfl, by rfl⟩
  obtain ⟨w, hw, hstate⟩ := hexec
  obtain ⟨tr, hrun, hmeets⟩ :=
    Lib.Machine.exists_run_of_restrict (init_start Sample.cfg 0 none) hw
  exact ⟨tr, w, hrun, hmeets, hstate, onlyLate_of_roomy hrun hmeets⟩

/-- When bob has left, backend 0 is swept after alice was reconnected to it, and she is
disconnected a second time. -/
theorem not_onlyLate_of_redirect : ¬ ∀ (tr : List (World × Event)) (w : World), machine.Run tr w →
    ∀ p ∈ tr, p.2 = .pingTimeout → OnlyLate p.1 := by
  intro hall
  have hexec : ∃ w w', machine.exec (World.start Sample.cfg 0 none)
      (Sample.silentEvents ++ [.presence { Sample.available "bob" with type := .unavailable },
        .removeTick]) = some w ∧ w.step .pingTimeout = some w' ∧
      (NetworkPluginServer.pingTimeout w).dropped = [1, 1] ∧ (moveIdleUsers w).dropped = [] :=
    ⟨_, _, by rfl, by rfl, by rfl, by rfl⟩
  obtain ⟨w, w', hw, hstep, hdropped, hbefore⟩ := hexec
  obtain ⟨tr, hrun, -⟩ := Lib.Machine.exists_run_of_exec (init_start Sample.cfg 0 none) hw
  obtain ⟨us, heq, hnodup, -⟩ := hall _ w' (hrun.step hstep) _ List.mem_cons_self rfl
  rw [hdropped, hbefore, List.append_nil] at heq
  rw [← heq] at hnodup
  exact absurd hnodup (by decide)

end Spectrum
