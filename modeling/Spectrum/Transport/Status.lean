import Spectrum.Transport.Aware

/-!
# What a backend knows about a user

The log tells which backend a user was given last, which presence was announced for him last
and which status the backend was sent last. A backend has taken over a user (`HandedOver`)
when it was sent his LOGIN after he was assigned to it, and after the LOGIN the status of the
latest presence that has a show. `Handing` is the invariant behind this.
-/

namespace Spectrum

open World NetworkPluginServer

/-! ## Reading the log -/

namespace Effect

def presenceOf (u : UserId) : Effect → Option Presence
  | .presenceChanged v p => if v = u ∧ p.getShow ≠ .none then some p else none
  | _ => none

def statusFor (b : BackendId) (j : Jid) : Effect → Option (StatusType × String)
  | .send c (.statusChanged k status text) =>
    if c = b ∧ k = j then some (status, text) else none
  | _ => none

def backendOf (u : UserId) : Effect → Option BackendId
  | .assign _ v b _ => if v = u then some b else none
  | _ => none

/-- The effect says nothing about the presence, the status and the backend of the user. -/
structure Clear (u : UserId) (j : Jid) (e : Effect) : Prop where
  presence : e.presenceOf u = none
  status : ∀ b, e.statusFor b j = none
  backend : e.backendOf u = none

theorem Spares.clear {z : Option UserId} {u : UserId} (hu : some u ≠ z) (j : Jid) {e : Effect}
    (h : e.Spares z) : e.Clear u j := by
  cases e with
  | presenceChanged v p => exact h.elim
  | send b m =>
    cases m with
    | statusChanged k status text => exact h.elim
    | _ => exact ⟨rfl, fun _ => rfl, rfl⟩
  | assign how v b state =>
    have hne : v ≠ u := by
      rintro rfl
      exact hu h
    exact ⟨rfl, fun _ => rfl, by simp [backendOf, hne]⟩
  | _ => exact ⟨rfl, fun _ => rfl, rfl⟩

end Effect

/-- The latest presence with a show that was announced for the user. -/
def latest (u : UserId) (l : List Effect) : Option Presence := l.findSome? (Effect.presenceOf u)

/-- The last status that the backend was sent about the JID. -/
def lastStatus (b : BackendId) (j : Jid) (l : List Effect) : Option (StatusType × String) :=
  l.findSome? (Effect.statusFor b j)

theorem lastStatus_of_append {b : BackendId} {j : Jid} {l₁ l₂ : List Effect}
    {s : StatusType × String} (h : lastStatus b j l₁ = some s) :
    lastStatus b j (l₁ ++ l₂) = some s := by
  unfold lastStatus at h ⊢
  rw [List.findSome?_append, h, Option.some_or]

/-- The last backend that the user was given. -/
def lastBackend (u : UserId) (l : List Effect) : Option BackendId :=
  l.findSome? (Effect.backendOf u)

/-- The backend has been sent the LOGIN of the user since he was assigned to it, and since
then the status of his latest presence. -/
def HandedOver (w : World) (u : UserId) (b : BackendId) : Prop :=
  ∃ l₁ l₂, w.log = l₁ ++ .send b (.login (w.user u).jid.toBare (w.user u).info.uin
      (w.user u).info.password) :: l₂ ∧
    lastBackend u l₁ = none ∧ lastBackend u l₂ = some b ∧
    ∀ p, latest u w.log = some p →
      lastStatus b (w.user u).jid.toBare l₁ = some (statusOf p, p.status)

section Clear

variable {u : UserId} {j : Jid} {w w' : World}

theorem Logs.latest_eq {P : Effect → Prop} (h : Logs P w w')
    (hP : ∀ e, P e → e.presenceOf u = none) : latest u w'.log = latest u w.log := by
  obtain ⟨l, hl, hall⟩ := h
  have hnone : l.findSome? (Effect.presenceOf u) = none :=
    List.findSome?_eq_none_iff.mpr fun e he => hP e (hall e he)
  unfold latest
  rw [hl, List.findSome?_append, hnone, Option.none_or]

theorem Logs.lastBackend_eq {P : Effect → Prop} (h : Logs P w w')
    (hP : ∀ e, P e → e.backendOf u = none) : lastBackend u w'.log = lastBackend u w.log := by
  obtain ⟨l, hl, hall⟩ := h
  have hnone : l.findSome? (Effect.backendOf u) = none :=
    List.findSome?_eq_none_iff.mpr fun e he => hP e (hall e he)
  unfold lastBackend
  rw [hl, List.findSome?_append, hnone, Option.none_or]

/-- Nothing is announced behind the scenes. -/
theorem Mute.latest_eq {z : Option UserId} (h : Mute z w w') :
    latest u w'.log = latest u w.log := by
  refine h.covert.latest_eq fun e he => ?_
  cases e with
  | presenceChanged v p => exact he.elim
  | _ => rfl

/-- What happens to others does not undo a hand-over. -/
theorem HandedOver.clear {b : BackendId} (h : HandedOver w u b)
    (hjid : (w'.user u).jid = (w.user u).jid) (hinfo : (w'.user u).info = (w.user u).info)
    (hlog : Logs (Effect.Clear u (w.user u).jid.toBare) w w') : HandedOver w' u b := by
  have hlatest := hlog.latest_eq fun _ he => he.presence
  obtain ⟨l₁, l₂, heq, hnone, hsome, hstatus⟩ := h
  obtain ⟨l, hl, hclear⟩ := hlog
  refine ⟨l ++ l₁, l₂, ?_, ?_, hsome, ?_⟩
  · rw [hl, heq, hjid, hinfo, List.append_assoc]
  · unfold lastBackend at hnone ⊢
    rw [List.findSome?_append, hnone, Option.or_none]
    exact List.findSome?_eq_none_iff.mpr fun e he => (hclear e he).backend
  · intro p hp
    rw [hlatest] at hp
    have hquiet : l.findSome? (Effect.statusFor b (w.user u).jid.toBare) = none :=
      List.findSome?_eq_none_iff.mpr fun e he => (hclear e he).status b
    unfold lastStatus at hstatus ⊢
    rw [hjid, List.findSome?_append, hquiet, Option.none_or]
    exact hstatus p hp

end Clear

/-! ## The invariant -/

/-- The fields of a user that his hand-over depends on. -/
def User.card (x : User) : Jid × UserInfo × Nat × Bool :=
  (x.jid, x.info, x.slots, x.readyForConnect)

/-- The user is connected to the backend that lists him, nothing has been announced before he
is ready, and when he is ready the backend has taken him over. The backend `x` is left out. -/
structure Handing (x : Option BackendId) (u : UserId) (w : World) : Prop where
  placed : ∀ b ∈ w.clients, some b ≠ x → u ∈ (w.backends b).users →
    0 < (w.user u).slots ∧ lastBackend u w.log = some b
  silent : w.Managed u → (w.user u).readyForConnect = false → latest u w.log = none
  handed : ∀ b ∈ w.clients, some b ≠ x → u ∈ (w.backends b).users →
    (w.user u).readyForConnect = true → HandedOver w u b

namespace Handing

variable {x : Option BackendId} {z : Option UserId} {u : UserId} {w w' : World}

theorem frame (h : Handing x u w) (hclients : w'.clients = w.clients)
    (hlisted : ∀ b, u ∈ (w'.backends b).users → u ∈ (w.backends b).users)
    (hmanaged : w'.Managed u → w.Managed u) (hcard : (w'.user u).card = (w.user u).card)
    (hlog : Logs (Effect.Clear u (w.user u).jid.toBare) w w') : Handing x u w' := by
  have hjid : (w'.user u).jid = (w.user u).jid := congrArg (fun c => c.1) hcard
  have hinfo : (w'.user u).info = (w.user u).info := congrArg (fun c => c.2.1) hcard
  have hslots : (w'.user u).slots = (w.user u).slots := congrArg (fun c => c.2.2.1) hcard
  have hready : (w'.user u).readyForConnect = (w.user u).readyForConnect :=
    congrArg (fun c => c.2.2.2) hcard
  refine ⟨?_, ?_, ?_⟩
  · intro b hb hx hmem
    rw [hclients] at hb
    rw [hslots, hlog.lastBackend_eq fun _ he => he.backend]
    exact h.placed b hb hx (hlisted b hmem)
  · intro hm hr
    rw [hready] at hr
    rw [hlog.latest_eq fun _ he => he.presence]
    exact h.silent (hmanaged hm) hr
  · intro b hb hx hmem hr
    rw [hclients] at hb
    rw [hready] at hr
    exact (h.handed b hb hx (hlisted b hmem) hr).clear hjid hinfo hlog

/-- An operation behind the scenes that is about somebody else. -/
theorem others (h : Handing x u w) (hu : some u ≠ z) (ho : Others z w w') (hm : Mute z w w') :
    Handing x u w' := by
  have hslots : (w'.user u).slots = (w.user u).slots := (congrArg User.slots (ho.user u hu) :)
  refine h.frame ho.clients (fun b => (ho.listed u hu b).mp) (ho.managed u hu).mp ?_
    (hm.log.mono fun _ he => he.clear hu _)
  unfold User.card
  rw [hm.jid, hm.info, hslots, hm.ready]

theorem idle (h : Handing x u w) (hi : Idle w w') : Handing x u w' :=
  h.others (z := none) (by simp) (.of_idle hi) (.of_idle hi)

theorem aside (h : Handing x u w) (ha : Apart w w') : Handing x u w' :=
  h.others (z := none) (by simp) (.of_quiet ha.quiet) (.of_aside ha)

/-- A user that is not in the map is listed nowhere. -/
theorem of_not_managed (hlink : Link x none w) (hm : ¬w.Managed u) : Handing x u w := by
  have hnot : ∀ b ∈ w.clients, some b ≠ x → u ∉ (w.backends b).users :=
    fun b hb hx hmem => hm (hlink.listed_managed b hb hx u hmem (by simp))
  exact ⟨fun b hb hx hmem => absurd hmem (hnot b hb hx), fun h => absurd h hm,
    fun b hb hx hmem => absurd hmem (hnot b hb hx)⟩

end Handing

/-! ## Logging in -/

section Login

variable {x : Option BackendId} {u : UserId} {b : BackendId} {w w₁ w₂ : World}

/-- The LOGIN of the user is sent to his backend, with only plain effects around it. -/
def LogsIn (u : UserId) (b : BackendId) (w w' : World) : Prop :=
  ∃ l l', w'.log = l ++ .send b (.login (w.user u).jid.toBare (w.user u).info.uin
      (w.user u).info.password) :: (l' ++ w.log) ∧
    (∀ e ∈ l, e.Plain) ∧ ∀ e ∈ l', e.Plain

theorem logsIn_handleUserReadyToConnect (hdata : (w.user u).data = some b) (hb : b ∈ w.clients) :
    LogsIn u b w (handleUserReadyToConnect u w) := by
  have hlogin : sendToBackendOf u (.login (w.user u).jid.toBare (w.user u).info.uin
      (w.user u).info.password) w = w.emit (.send b (.login (w.user u).jid.toBare
        (w.user u).info.uin (w.user u).info.password)) := by
    simp [sendToBackendOf, hdata, send, hb]
  simp only [handleUserReadyToConnect]
  rw [hlogin]
  split
  · obtain ⟨l, hl, hplain⟩ := (idle_sendToBackendOf u (w.emit (.send b
      (.login (w.user u).jid.toBare (w.user u).info.uin (w.user u).info.password)))
      (m := .buddies (w.user u).jid.toBare) fun _ => trivial).log
    exact ⟨l, [], hl, hplain, by simp⟩
  · exact ⟨[], [], rfl, by simp, by simp⟩

theorem LogsIn.idle (h : LogsIn u b w w₁) (hi : Idle w₁ w₂) : LogsIn u b w w₂ := by
  obtain ⟨l, l', heq, hl, hl'⟩ := h
  obtain ⟨k, hk, hplain⟩ := hi.log
  refine ⟨k ++ l, l', by rw [hk, heq, List.append_assoc], ?_, hl'⟩
  intro e he
  rcases List.mem_append.mp he with he | he
  · exact hplain e he
  · exact hl e he

theorem logsIn_onReadyToConnect (hdata : (w.user u).data = some b) (hb : b ∈ w.clients)
    (hslots : 0 < (w.user u).slots) : LogsIn u b w (User.onReadyToConnect u w) := by
  obtain ⟨n, hn⟩ := Nat.exists_eq_succ_of_ne_zero (Nat.ne_of_gt hslots)
  unfold User.onReadyToConnect
  rw [hn, Function.iterate_succ_apply]
  exact (logsIn_handleUserReadyToConnect hdata hb).idle
    (Idle.iterate (idle_handleUserReadyToConnect u) n _)

/-- A user about whom nothing has been announced is taken over by a LOGIN. -/
theorem handing_login (hlink : Link x none w₂) (hidle : Idle w₁ w₂)
    (hlatest : latest u w₁.log = none)
    (hplaced : ∀ b ∈ w₁.clients, some b ≠ x → u ∈ (w₁.backends b).users →
      0 < (w₁.user u).slots ∧ lastBackend u w₁.log = some b)
    (hlogin : ∀ b ∈ w₁.clients, (w₁.user u).data = some b → 0 < (w₁.user u).slots →
      (w₁.user u).readyForConnect = true → LogsIn u b w₁ w₂) : Handing x u w₂ := by
  have hq := hidle.quiet
  have hclear : Logs (Effect.Clear u (w₁.user u).jid.toBare) w₁ w₂ :=
    hidle.log.mono fun _ he => (he.spares (z := none)).clear (by simp) _
  have hlatest₂ : latest u w₂.log = none := (Mute.of_idle (z := none) hidle).latest_eq.trans hlatest
  refine ⟨?_, fun _ _ => hlatest₂, ?_⟩
  · intro b hb hx hmem
    rw [hq.clients] at hb
    rw [hq.backends] at hmem
    have hslots : (w₂.user u).slots = (w₁.user u).slots := (congrArg User.slots (hq.user u) :)
    rw [hslots, hclear.lastBackend_eq fun _ he => he.backend]
    exact hplaced b hb hx hmem
  · intro b hb hx hmem hready
    have hdata := hlink.linked b hb hx u hmem
    rw [hq.clients] at hb
    rw [hq.backends] at hmem
    rw [hq.data] at hdata
    rw [hidle.ready] at hready
    obtain ⟨hslots, hbackend⟩ := hplaced b hb hx hmem
    obtain ⟨l, l', heq, hl, hl'⟩ := hlogin b hb hdata hslots hready
    have hnone : ∀ k : List Effect, (∀ e ∈ k, e.Plain) → lastBackend u k = none := by
      intro k hk
      refine List.findSome?_eq_none_iff.mpr fun e he => ?_
      exact (((hk e he).spares (z := none)).clear (u := u) (by simp) Jid.empty).backend
    have hjid : (w₂.user u).jid = (w₁.user u).jid := hq.jid u
    have hinfo : (w₂.user u).info = (w₁.user u).info := (congrArg User.info (hq.user u) :)
    refine ⟨l, l' ++ w₁.log, by rw [heq, hjid, hinfo], hnone l hl, ?_, ?_⟩
    · unfold lastBackend at hbackend ⊢
      rw [List.findSome?_append, hbackend]
      have hl'' := hnone l' hl'
      unfold lastBackend at hl''
      rw [hl'', Option.none_or]
    · intro p hp
      rw [hlatest₂] at hp
      cases hp

/-! ## Giving the user a backend -/

/-- The search for a backend is successful. -/
def Finds (acceptUsers longRun : Bool) (w : World) : Prop :=
  loginPostponed w = false ∧ findFree acceptUsers longRun w ≠ none

instance (acceptUsers longRun : Bool) (w : World) : Decidable (Finds acceptUsers longRun w) :=
  inferInstanceAs (Decidable (_ ∧ _))

/-- There is a backend for the user once he has left the one he is on. -/
def FreeFor (u : UserId) (w : World) : Prop := Finds true false (handleUserDestroyed u w)

instance (u : UserId) (w : World) : Decidable (FreeFor u w) := inferInstanceAs (Decidable (Finds ..))

theorem FreeFor.congr {w' : World} (h : FreeFor u w') (hcfg : w'.cfg = w.cfg)
    (hnow : w'.now = w.now) (hlast : w'.lastLogin = w.lastLogin) (hclients : w'.clients = w.clients)
    (hdata : (w'.user u).data = (w.user u).data)
    (hback : ∀ b, { w'.backends b with pongReceived := 0 } =
      { w.backends b with pongReceived := 0 }) : FreeFor u w := by
  have hd := handleUserDestroyed_spec u w
  have hd' := handleUserDestroyed_spec u w'
  have hcfg' : (handleUserDestroyed u w').cfg = (handleUserDestroyed u w).cfg := by
    rw [hd'.cfg, hd.cfg, hcfg]
  have hpost : loginPostponed (handleUserDestroyed u w') = loginPostponed (handleUserDestroyed u w) :=
    loginPostponed_congr hcfg' (by rw [hd'.now, hd.now, hnow])
      (by rw [hd'.lastLogin, hd.lastLogin, hlast])
  have hfind : findFree true false (handleUserDestroyed u w') =
      findFree true false (handleUserDestroyed u w) := by
    refine findFree_congr (by rw [hd'.clients, hd.clients, hclients]) hcfg' fun b => ?_
    have hb := hback b
    rw [hd'.backends, hd.backends, hdata, hcfg]
    split
    · simp only [Backend.mk.injEq, true_and] at hb
      obtain ⟨husers, hconn, hres, haccept, hlong, hdie, hid⟩ := hb
      simp only [Backend.without, husers, hconn, hres, haccept, hlong, hdie, hid]
    · exact hb
  unfold FreeFor Finds at h ⊢
  rwa [hpost, hfind] at h

theorem getFreeClient_of_not_finds {acceptUsers longRun : Bool} (h : ¬ Finds acceptUsers longRun w)
    (check : Bool) : (getFreeClient acceptUsers longRun check w).1 = none := by
  rcases getFreeClient_cases acceptUsers longRun check w with
    ⟨-, heq⟩ | ⟨hpost, w₁, -, ⟨c, hfind, -⟩ | ⟨-, heq⟩⟩
  · rw [heq]
  · exact absurd ⟨hpost, hfind ▸ Option.some_ne_none c⟩ h
  · rw [heq]

/-- Without a free backend the user waits. -/
theorem handleUserCreated_of_not_finds (h : ¬ Finds true false w) :
    ∃ w₁, Searched w w₁ ∧
      handleUserCreated u w = { w₁ with waitingUsers := w₁.waitingUsers ++ [u] } := by
  have hsearch := searched_getFreeClient true false false w
  have hnone := getFreeClient_of_not_finds h false
  unfold handleUserCreated
  generalize getFreeClient true false false w = r at hsearch hnone
  obtain ⟨found, w₁⟩ := r
  cases hnone
  exact ⟨w₁, hsearch, rfl⟩

/-- Without a free long-running backend nobody is moved. -/
theorem moveToLongRunBackend_of_not_finds (h : ¬ Finds false true w) :
    moveToLongRunBackend u w = (true, w) ∨
      (∃ w₁, Searched w w₁ ∧ moveToLongRunBackend u w = (false, w₁)) ∨
      moveToLongRunBackend u w = (true, { w with fault := true }) := by
  have hsearch := searched_getFreeClient false true false w
  have hnone := getFreeClient_of_not_finds h false
  unfold moveToLongRunBackend
  split
  · exact .inl rfl
  · split
    · exact .inr (.inr rfl)
    · split
      · exact .inl rfl
      · generalize getFreeClient false true false w = r at hsearch hnone
        obtain ⟨found, w₁⟩ := r
        cases hnone
        exact .inr (.inl ⟨w₁, hsearch, rfl⟩)

/-- A user whom no backend lists. -/
theorem Handing.of_unlisted (hun : ∀ b ∈ w.clients, some b ≠ x → u ∉ (w.backends b).users)
    (hsilent : w.Managed u → (w.user u).readyForConnect = false → latest u w.log = none) :
    Handing x u w :=
  ⟨fun b hb hx hmem => absurd hmem (hun b hb hx), hsilent,
    fun b hb hx hmem => absurd hmem (hun b hb hx)⟩

/-- A user that is created, or created again, and then logs in if he is ready. -/
theorem handing_created (hlatest : latest u w.log = none)
    (hun : ∀ b ∈ w.clients, some b ≠ x → u ∉ (w.backends b).users)
    (hlink : Link x none w₂) (hidle : Idle (handleUserCreated u w) w₂)
    (hlogin : ∀ b ∈ (handleUserCreated u w).clients,
      ((handleUserCreated u w).user u).data = some b →
      0 < ((handleUserCreated u w).user u).slots →
      ((handleUserCreated u w).user u).readyForConnect = true →
      LogsIn u b (handleUserCreated u w) w₂) : Handing x u w₂ := by
  refine handing_login hlink hidle ((mute_created u w).latest_eq.trans hlatest) ?_ hlogin
  intro b hb hx hmem
  obtain ⟨w₁, hs, ⟨-, heq⟩ | ⟨c, -, -, heq⟩⟩ := handleUserCreated_cases u w
  · rw [heq] at hb hmem
    rw [← hs.clients] at hun
    have hmem₁ : u ∈ (w.backends b).users := by
      rw [← hs.usersOf]
      exact hmem
    exact absurd hmem₁ (hun b hb hx)
  · rw [heq] at hb hmem ⊢
    rw [← hs.clients] at hun
    rcases mem_attach hmem with hold | ⟨rfl, -⟩
    · rw [hs.usersOf] at hold
      exact absurd hold (hun b hb hx)
    · refine ⟨by simp [connectSlots, modUser], ?_⟩
      show lastBackend u (attach .created u b w₁).log = some b
      rw [attach_log]
      simp [lastBackend, Effect.backendOf]

/-- A user who is taken back logs in at his new backend, if there is one. -/
theorem handing_reconnect (hlink : Link x none w) (h : Handing x u w) (hm : w.Managed u)
    (hlatest : FreeFor u w → latest u w.log = none) : Handing x u (User.reconnect u w) := by
  have hlink₂ := hlink.reconnect hm
  have hmute := mute_destroyed u
    (w.modUser u fun y => { y with reconnectCounter := y.reconnectCounter + 1 })
  have hd := handleUserDestroyed_spec u
    (w.modUser u fun y => { y with reconnectCounter := y.reconnectCounter + 1 })
  obtain ⟨-, hun⟩ := (hlink.of_same (sameLinks_count (u := u))).weaken.destroyed hd
  by_cases hfree : FreeFor u
    (w.modUser u fun y => { y with reconnectCounter := y.reconnectCounter + 1 })
  · have hnone := hlatest (hfree.congr rfl rfl rfl rfl (by simp [modUser]) fun _ => rfl)
    simp only [User.reconnect] at hlink₂ ⊢
    refine handing_created (hmute.latest_eq.trans hnone) hun.not_listed hlink₂
      (idle_onReadyToConnect u _) ?_
    intro b hb hdata hslots _
    exact logsIn_onReadyToConnect hdata hb hslots
  · have hreconnect := mute_reconnect u w
    obtain ⟨w₁, hs, heq⟩ := handleUserCreated_of_not_finds (u := u) hfree
    have hq := (idle_onReadyToConnect u (handleUserCreated u (handleUserDestroyed u
      (w.modUser u fun y => { y with reconnectCounter := y.reconnectCounter + 1 })))).quiet
    refine .of_unlisted (fun b hb hx hmem => ?_) fun hmanaged hready => ?_
    · simp only [User.reconnect] at hb hmem
      rw [hq.clients, heq] at hb
      rw [hq.backends, heq] at hmem
      have hold : u ∈ (w₁.backends b).users := hmem
      rw [hs.usersOf] at hold
      exact hun.not_listed b (hs.clients ▸ hb) hx hold
    · rw [hreconnect.ready] at hready
      rw [hreconnect.latest_eq]
      exact h.silent hm hready

theorem handing_serve (hlink : Link none none w) {rest : List UserId}
    (hwait : w.waitingUsers = u :: rest) (hlatest : latest u w.log = none) :
    Handing none u (serve u rest w) := by
  obtain ⟨-, hun, -⟩ := hlink.dequeue hwait
  refine handing_created (w := { w with waitingUsers := rest }) hlatest hun.not_listed
    (hlink.serve hwait) (idle_serveLogin u _) ?_
  intro b hb hdata _ hready
  unfold serve
  rw [if_pos hready]
  exact logsIn_handleUserReadyToConnect hdata hb

theorem handing_addUser (hlink : Link none none w) (haware : Aware w) {j : Jid} (info : UserInfo)
    (hnone : w.users j.toBare = none) :
    Handing none w.nextUser (UserManager.addUser j info w) := by
  obtain ⟨hlink₁, hun, hm⟩ := link_withUser hlink info hnone
  have hlatest : latest w.nextUser (withUser j info w).log = none := by
    refine List.findSome?_eq_none_iff.mpr fun e he => ?_
    cases e with
    | presenceChanged v p =>
      have hne : v ≠ w.nextUser := Nat.ne_of_lt (haware.known v p he)
      simp [Effect.presenceOf, hne]
    | _ => rfl
  rw [addUser_eq]
  refine handing_created hlatest hun.not_listed (hlink₁.created hun hm) (.refl _) ?_
  intro b _ _ _ hready
  rw [(mute_created _ _).ready] at hready
  simp [withUser] at hready

/-- A user that is moved logs in at his new backend. -/
theorem handing_move (hlink : Link none none w) (h : Handing none u w) (hc : b ∈ w.clients)
    (hmem : u ∈ (w.backends b).users) (hlatest : Finds false true w → latest u w.log = none) :
    Handing none u (moveToLongRunBackend u w).2 := by
  have hsearched : ∀ w₁, Searched w w₁ → Handing none u w₁ := fun w₁ hs =>
    h.others (z := none) (by simp) (.of_searched hs) (.of_searched hs)
  have hfault : Handing none u { w with fault := true } :=
    h.others (z := none) (by simp) (.of_fields rfl (fun _ => rfl) (fun _ => rfl) rfl rfl)
      (.of_user rfl rfl (.of_eq rfl))
  by_cases hfinds : Finds false true w
  case neg =>
    rcases moveToLongRunBackend_of_not_finds (u := u) hfinds with heq | ⟨w₁, hs, heq⟩ | heq
    · rw [heq]
      exact h
    · rw [heq]
      exact hsearched w₁ hs
    · rw [heq]
      exact hfault
  have hlink₂ := hlink.move (hlink.not_waiting b hc (by simp) u hmem)
    (hlink.listed_managed b hc (by simp) u hmem (by simp))
  have hslots := (h.placed b hc (by simp) hmem).1
  rcases moveToLongRunBackend_cases u w with heq | ⟨w₁, hs, heq⟩ | heq |
    ⟨w₁, old, c, hs, hdata, -, -, hfree, -, heq⟩
  · rw [heq]
    exact h
  · rw [heq]
    exact hsearched w₁ hs
  · rw [heq]
    exact hfault
  · rw [heq] at hlink₂ ⊢
    have hsame := hs.sameLinks.trans (sameLinks_ignore (u := u))
    have hdata₁ := (hsame.data u).trans hdata
    have hwait₁ : u ∉ w₁.waitingUsers := by
      rw [hs.waitingUsers]
      exact hlink.not_waiting b hc (by simp) u hmem
    obtain ⟨-, hun⟩ := (hlink.of_same hsame).removeFrom hdata₁ hwait₁
    generalize hw₂ : removeFrom u old
      (w₁.modUser u fun y => { y with ignoreDisconnect := true }) = w₂ at hlink₂ hun
    have hmove : Mute (some u) w (attach .moved u c w₂) := by
      subst hw₂
      have hflag : Mute (some u) w₁ (w₁.modUser u fun y => { y with ignoreDisconnect := true }) :=
        Mute.modUser fun _ => ⟨rfl, rfl⟩
      exact (((Mute.of_searched hs).trans hflag).trans .modBackend).trans (.attach .moved c)
    have hslots₂ : ((attach .moved u c w₂).user u).slots = (w.user u).slots := by
      subst hw₂
      rw [← hs.user]
      simp [attach, modBackend, setData, emit, modUser, removeFrom]
    refine handing_login hlink₂ (idle_handleUserReadyToConnect u _)
      (hmove.latest_eq.trans (hlatest hfinds)) ?_ ?_
    · intro d hd hx hmem'
      rcases mem_attach hmem' with hold | ⟨rfl, -⟩
      · exact absurd hold (hun.not_listed d hd hx)
      · refine ⟨by rw [hslots₂]; exact hslots, ?_⟩
        rw [attach_log]
        simp [lastBackend, Effect.backendOf]
    · intro d hd hdata' _ _
      exact logsIn_handleUserReadyToConnect hdata' hd

end Login

end Spectrum
