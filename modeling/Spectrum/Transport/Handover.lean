import Spectrum.Transport.Status

/-!
# The order of readiness, presences and backends

A user becomes ready, changes his presence and gets a backend in any order. If he has a backend
when he becomes ready, `onReadyToConnect` and every later `onPresenceChanged` reach it. While
he waits, the signals are not connected: `connectWaitingUsers` makes up for the LOGIN of a
ready user but not for the presence that was announced in the meantime, and the same holds
when a user is reconnected or moved. The hand-over is complete in the runs where a user gets
a backend without having been created just now only if nothing has been announced for him
(`Replays`).
-/

namespace Spectrum

open World NetworkPluginServer

/-! ## Presences -/

section Chat

variable {u v : UserId} {b : BackendId} {p : Presence} {w w' : World}

theorem onPresenceChanged_of_none (hshow : p.getShow = .none) :
    User.onPresenceChanged u p w = w.emit (.presenceChanged u p) := by
  have hid : handleUserPresenceChanged u p = id := by
    funext w₁
    simp [handleUserPresenceChanged, hshow]
  unfold User.onPresenceChanged
  rw [hid, Function.iterate_id, id]

/-- The status of a presence with a show is sent to the backend of the user. -/
theorem onPresenceChanged_log (hshow : p.getShow ≠ .none) (hdata : (w.user u).data = some b)
    (hb : b ∈ w.clients) : (User.onPresenceChanged u p w).log =
      List.replicate (w.user u).slots
        (.send b (.statusChanged (w.user u).jid.toBare (statusOf p) p.status)) ++
        .presenceChanged u p :: w.log := by
  have hloop : ∀ n (w₁ : World), w₁.user = w.user → w₁.clients = w.clients →
      ((handleUserPresenceChanged u p)^[n] w₁).log = List.replicate n
        (.send b (.statusChanged (w.user u).jid.toBare (statusOf p) p.status)) ++ w₁.log := by
    intro n
    induction n with
    | zero => exact fun _ _ _ => rfl
    | succ n ih =>
      intro w₁ huser hclients
      have hone : handleUserPresenceChanged u p w₁ = w₁.emit
          (.send b (.statusChanged (w.user u).jid.toBare (statusOf p) p.status)) := by
        unfold handleUserPresenceChanged sendToBackendOf send
        rw [if_neg hshow, huser, hdata]
        dsimp only
        rw [hclients, if_pos hb]
      have hrest := ih (w₁.emit (.send b (.statusChanged (w.user u).jid.toBare (statusOf p)
        p.status))) huser hclients
      rw [Function.iterate_succ_apply, hone, hrest, List.replicate_succ']
      simp [emit]
  exact hloop _ _ rfl rfl

/-- A ready user announces a presence with a show. -/
theorem HandedOver.announce (h : HandedOver w u b) (hshow : p.getShow ≠ .none)
    (hdata : (w.user u).data = some b) (hb : b ∈ w.clients) (hslots : 0 < (w.user u).slots) :
    HandedOver (User.onPresenceChanged u p w) u b := by
  obtain ⟨l₁, l₂, heq, hnone, hsome, -⟩ := h
  have huser : (User.onPresenceChanged u p w).user = w.user :=
    (congrArg World.user (onPresenceChanged_rest u p w) :)
  have hlog := onPresenceChanged_log hshow hdata hb
  obtain ⟨n, hn⟩ := Nat.exists_eq_succ_of_ne_zero (Nat.ne_of_gt hslots)
  rw [hn] at hlog
  generalize he : Effect.send b (.statusChanged (w.user u).jid.toBare (statusOf p) p.status) = e
    at hlog
  have hlatest : latest u (User.onPresenceChanged u p w).log = some p := by
    have hsent : (List.replicate (n + 1) e).findSome? (Effect.presenceOf u) = none := by
      subst he
      simp [Effect.presenceOf]
    unfold latest
    rw [hlog, List.findSome?_append, hsent, Option.none_or]
    simp [Effect.presenceOf, hshow]
  refine ⟨List.replicate (n + 1) e ++ .presenceChanged u p :: l₁, l₂, ?_, ?_, hsome, ?_⟩
  · rw [hlog, heq, huser]
    simp
  · subst he
    unfold lastBackend at hnone ⊢
    rw [List.findSome?_append, List.findSome?_cons]
    simpa [Effect.backendOf] using hnone
  · intro q hq
    rw [hlatest] at hq
    cases hq
    subst he
    rw [huser]
    simp [lastStatus, List.replicate_succ, Effect.statusFor]

theorem jid_ne_of_managed {x : Option BackendId} (hlink : Link x none w) (hu : w.Managed u)
    (hv : w.Managed v) (hne : v ≠ u) : (w.user v).jid.toBare ≠ (w.user u).jid.toBare := by
  rw [hlink.toBare_jid hu, hlink.toBare_jid hv]
  intro heq
  unfold Managed at hu hv
  rw [heq, hu] at hv
  exact hne (Option.some.inj hv).symm

/-- The presence of somebody else. -/
theorem Handing.presence_of_ne (hlink : Link none none w) (h : Handing none u w)
    (hv : w.Managed v) (hne : v ≠ u) : Handing none u (User.onPresenceChanged v p w) := by
  have hq := quiet_onPresenceChanged v p w
  have huser : (User.onPresenceChanged v p w).user = w.user :=
    (congrArg World.user (onPresenceChanged_rest v p w) :)
  by_cases hu : w.Managed u
  · have hjid := jid_ne_of_managed hlink hu hv hne
    refine h.frame hq.clients (fun b hb => by rwa [hq.backends] at hb) hq.sameLinks.managed.mp
      (by rw [huser]) ((onPresenceChanged_logs v p w).mono ?_)
    rintro e (rfl | ⟨b, rfl⟩)
    · exact ⟨by simp [Effect.presenceOf, hne], fun _ => rfl, rfl⟩
    · exact ⟨rfl, fun c => by simp [Effect.statusFor, hjid], rfl⟩
  · exact .of_not_managed (hlink.of_same hq.sameLinks) fun hm => hu (hq.sameLinks.managed.mp hm)

/-- The presence of the user himself. -/
theorem Handing.presence_self (hlink : Link none none w) (h : Handing none u w)
    (hready : (w.user u).readyForConnect = true) :
    Handing none u (User.onPresenceChanged u p w) := by
  by_cases hshow : p.getShow = .none
  · rw [onPresenceChanged_of_none hshow]
    refine h.frame rfl (fun _ h => h) id rfl (.emit ?_)
    exact ⟨by simp [Effect.presenceOf, hshow], fun _ => rfl, rfl⟩
  · have hq := quiet_onPresenceChanged u p w
    have huser : (User.onPresenceChanged u p w).user = w.user :=
      (congrArg World.user (onPresenceChanged_rest u p w) :)
    have hbackend : lastBackend u (User.onPresenceChanged u p w).log = lastBackend u w.log := by
      refine (onPresenceChanged_logs u p w).lastBackend_eq ?_
      rintro e (rfl | ⟨b, rfl⟩)
      · rfl
      · rfl
    refine ⟨?_, ?_, ?_⟩
    · intro b hb hx hmem
      rw [hq.clients] at hb
      rw [hq.backends] at hmem
      rw [huser, hbackend]
      exact h.placed b hb hx hmem
    · intro _ hr
      rw [huser, hready] at hr
      cases hr
    · intro b hb hx hmem _
      rw [hq.clients] at hb
      rw [hq.backends] at hmem
      exact (h.handed b hb hx hmem hready).announce hshow (hlink.linked b hb hx u hmem) hb
        (h.placed b hb hx hmem).1

/-- The user becomes ready. -/
theorem Handing.ready_self (hlink : Link none none w) (h : Handing none u w) (hm : w.Managed u)
    (hready : (w.user u).readyForConnect = false) : Handing none u (User.setReady u w) := by
  have hidle : Idle (w.modUser u fun y => { y with readyForConnect := true })
      (User.setReady u w) := idle_onReadyToConnect u _
  refine handing_login (hlink.of_same (quiet_setReady u w).sameLinks) hidle
    (h.silent hm hready) ?_ fun b hb hdata hslots _ => logsIn_onReadyToConnect hdata hb hslots
  intro b hb hx hmem
  obtain ⟨hslots, hbackend⟩ := h.placed b hb hx hmem
  exact ⟨by simpa [modUser] using hslots, hbackend⟩

/-- A change of one user that leaves the hand-over of everybody alone. -/
theorem Handing.modUser {x : Option BackendId} (h : Handing x u w) {f : User → User}
    (hf : v = u → ∀ y, (f y).card = y.card) : Handing x u (w.modUser v f) := by
  have hcard : ((w.modUser v f).user u).card = (w.user u).card := by
    by_cases huv : u = v
    · subst huv
      simpa [World.modUser] using hf rfl (w.user u)
    · simp [World.modUser, Function.update_of_ne huv]
  have hmanaged : (w.modUser v f).Managed u → w.Managed u := by
    have huser : ((w.modUser v f).user u).jid = (w.user u).jid := congrArg (fun c => c.1) hcard
    unfold Managed
    rw [huser]
    exact id
  exact h.frame rfl (fun _ h => h) hmanaged hcard (.of_eq rfl)

theorem Handing.chat {S : UserId → Prop} (hlink : Link none none w)
    (hS : ∀ v, S v → w.Managed v) (h : Handing none u w) (hc : Chat S w w') :
    Handing none u w' := by
  induction hc with
  | idle hi => exact h.idle hi
  | timer _ => exact h.modUser fun _ _ => rfl
  | @ready w v hv hready =>
    by_cases hne : v = u
    · subst hne
      exact h.ready_self hlink (hS v hv) hready
    · have hmark : Handing none u (w.modUser v fun y => { y with readyForConnect := true }) :=
        h.modUser fun heq => absurd heq hne
      exact hmark.idle (idle_onReadyToConnect v _)
  | @presence w v hv hready p =>
    by_cases hne : v = u
    · subst hne
      exact h.presence_self hlink hready
    · exact h.presence_of_ne hlink (hS v hv) hne
  | trans hc _ ih ih' =>
    have hs := hc.quiet.sameLinks
    exact ih' (hlink.of_same hs) (fun v hv => hs.managed.mpr (hS v hv)) (ih hlink hS h)

theorem Handing.passwordValid {x : Option BackendId} (h : Handing x u w) (j : Jid) :
    Handing x u (UserRegistry.onPasswordValid j w) := by
  have hq := quiet_onPasswordValid w j
  refine h.frame hq.clients (fun b hb => by rwa [hq.backends] at hb) hq.sameLinks.managed.mp
    (by rw [onPasswordValid_user]) ((onPasswordValid_logs w j).mono ?_)
  rintro e (hplain | ⟨entry, -, rfl⟩)
  · exact (hplain.spares (z := none)).clear (by simp) _
  · exact ⟨rfl, fun _ => rfl, rfl⟩

theorem Handing.removeUser {x : Option BackendId} (hlink : Link x none w) (h : Handing x u w)
    (hv : w.Managed v) : Handing x u (UserManager.removeUser v w) := by
  by_cases hne : v = u
  · subst hne
    exact .of_not_managed (hlink.removeUser hv) (removeUser_not_managed hlink hv)
  · exact h.others (by simpa using Ne.symm hne) (others_removeUser hlink hv) (mute_removeUser v w)

theorem Handing.addUser (hlink : Link none none w) (haware : Aware w) (h : Handing none u w)
    {j : Jid} (info : UserInfo) (hnone : w.users j.toBare = none) :
    Handing none u (UserManager.addUser j info w) := by
  by_cases hne : u = w.nextUser
  · subst hne
    exact handing_addUser hlink haware info hnone
  · have hu : some u ≠ some w.nextUser := by simpa using hne
    have hnew : Handing none u (withUser j info w) := by
      refine h.frame rfl (fun _ h => h) ((Others.withUser hlink hnone).managed u hu).mp ?_
        (.of_eq rfl)
      simp [withUser, Function.update_of_ne hne]
    rw [addUser_eq]
    exact hnew.others hu (others_created _ _) (mute_created _ _)

theorem Handing.talk (hlink : Link none none w) (haware : Aware w) (h : Handing none u w)
    {enters : Prop} (ht : Talk enters w w') : Handing none u w' := by
  induction ht with
  | chat hc => exact h.chat hlink (fun v hv => haware.reached hlink hv) hc
  | aside ha => exact h.aside ha.toApart
  | enter _ ha => exact h.aside ha
  | approve j _ _ _ => exact h.passwordValid j
  | create j info hnone _ => exact h.addUser hlink haware info hnone
  | remove hv => exact h.removeUser hlink (hlink.managed_of_users hv)
  | trans ht _ ih ih' =>
    exact ih' (hlink.front ht.front) (haware.talk hlink ht) (ih hlink haware h)

end Chat

/-! ## Disconnections -/

/-- If the user is disconnected with this error, taken back and given a backend, then nothing has been
announced for him yet. -/
def Spared (u : UserId) (e : ConnectionError) (w : World) : Prop :=
  w.Managed u → (w.user u).ignoreDisconnect = false → User.reconnects (w.user u) e = true →
    FreeFor u w → latest u w.log = none

/-- The same for the loop of `handleSessionFinished`, when the turn of the user comes. -/
def DropsSpared (u : UserId) : List UserId → World → Prop
  | [], _ => True
  | v :: us, w =>
    (v = u → Spared u .otherError (w.setData u none)) ∧ DropsSpared u us (dropUser w v)

/-- The end of a backend. -/
def FinishSpared (u : UserId) (c : BackendId) (w : World) : Prop :=
  DropsSpared u (w.backends c).users (noteCrash c (markDying c w))

/-- The backends that one sweep ends, each when its turn comes. -/
def SweepSpared (u : UserId) : List BackendId → World → Prop
  | [], _ => True
  | c :: cs, w => FinishSpared u c w ∧ SweepSpared u cs (handleSessionFinished c w)

section Disconnect

variable {x : Option BackendId} {z : Option UserId} {u v : UserId} {e : ConnectionError}
  {w w' : World}

/-- What the search does not look at. -/
theorem Spared.congr (h : Spared u e w) (hcore : w'.core = w.core) (huser : w'.user = w.user)
    (hlatest : latest u w'.log = latest u w.log) : Spared u e w' := by
  intro hm hignore hrec hfree
  rw [hlatest]
  rw [huser] at hignore hrec
  unfold Managed at hm
  rw [huser, show w'.users = w.users from congrArg Core.users hcore] at hm
  have hback : w'.backends = w.backends := congrArg Core.backends hcore
  refine h hm hignore hrec (hfree.congr (congrArg Core.cfg hcore) (congrArg Core.now hcore)
    (congrArg Core.lastLogin hcore) (congrArg Core.clients hcore) (by rw [huser]) fun b => ?_)
  rw [hback]

theorem Handing.disconnected_self (hlink : Link x none w) (h : Handing x u w) (hm : w.Managed u)
    (hs : Spared u e w) (error : String) :
    Handing x u (User.handleDisconnected u error e w) := by
  have hq : Quiet (fun _ => True) w (w.emit (.disconnected u)) := .emit trivial
  have hmute : Mute none w (w.emit (.disconnected u)) := .emit trivial
  have hemit := h.others (z := none) (by simp) (.of_quiet hq) hmute
  rcases handleDisconnected_cases u error e w with ⟨-, heq⟩ | ⟨hignore, hrec, heq⟩ |
    ⟨hignore, hrec, -⟩
  · rw [heq]
    exact hemit
  · rw [heq]
    refine handing_reconnect (hlink.of_same hq.sameLinks) hemit (hq.sameLinks.managed.mpr hm) ?_
    intro hfree
    exact hmute.latest_eq.trans
      (hs hm hignore hrec (hfree.congr rfl rfl rfl rfl rfl fun _ => rfl))
  · exact .of_not_managed (hlink.disconnected hm error e)
      (disconnected_not_managed hlink hm hignore hrec error)

/-- One round of the loop of `handleSessionFinished`. -/
theorem Handing.dropUser (hlink : Link x none w) (h : Handing x u w) (hv : Pending x v w)
    (hs : v = u → Spared u .otherError (w.setData u none)) : Handing x u (dropUser w v) := by
  by_cases hne : u = v
  · subst hne
    have hdata : Handing x u (w.setData u none) := h.modUser fun _ _ => rfl
    exact hdata.disconnected_self (hlink.setData hv.unplaced none) (hv.setData none).managed
      (hs rfl) _
  · exact h.others (by simpa using hne) (others_dropUser hlink hv) (mute_dropUser v w)

theorem Handing.mark (h : Handing none u w) (c : BackendId) :
    Handing (some c) u (markDying c w) := by
  have hmark : Handing none u (markDying c w) := by
    refine h.others (z := none) (by simp)
      (.of_fields rfl (fun _ => rfl) (markDying_users c) rfl rfl) (.of_user rfl rfl (.emit ?_))
    trivial
  exact ⟨fun b hb _ => hmark.placed b hb (by simp), hmark.silent,
    fun b hb _ => hmark.handed b hb (by simp)⟩

theorem Handing.drop {c : BackendId} (h : Handing (some c) u w) :
    Handing none u { w.modBackend c (fun b => { b with connection := false }) with
      clients := w.clients.filter fun b => b ≠ c } := by
  have hold : ∀ b ∈ w.clients.filter (fun b => b ≠ c), b ∈ w.clients ∧ some b ≠ some c ∧
      (w.modBackend c (fun b => { b with connection := false })).backends b = w.backends b := by
    intro b hb
    have hb' : b ∈ w.clients ∧ b ≠ c := by simpa using hb
    exact ⟨hb'.1, by simpa using hb'.2, by simp [modBackend, Function.update_of_ne hb'.2]⟩
  refine ⟨?_, h.silent, ?_⟩
  · intro b hb _ hmem
    obtain ⟨hclient, hx, heq⟩ := hold b hb
    rw [heq] at hmem
    exact h.placed b hclient hx hmem
  · intro b hb _ hmem hready
    obtain ⟨hclient, hx, heq⟩ := hold b hb
    rw [heq] at hmem
    exact h.handed b hclient hx hmem hready

theorem handing_finished (hlink : Link none none w) (h : Handing none u w) (c : BackendId)
    (hs : FinishSpared u c w) : Handing none u (handleSessionFinished c w) := by
  by_cases hc : c ∈ w.clients
  · have hidle₁ := idle_noteCrash c (markDying c w)
    obtain ⟨-, hloop, -⟩ := dropUsers_induction
      (I := fun us w => Handing (some c) u w ∧ DropsSpared u us w)
      (fun v us w _ hlink hv _ hd => ⟨hd.1.dropUser hlink hv hd.2.1, hd.2.2⟩)
      (hlink.users_nodup c hc (by simp)) ((hlink.markDying c).of_same hidle₁.sameLinks)
      (fun v hv => (pending_markDying hlink hc v hv).of_same hidle₁.sameLinks)
      ⟨(h.mark c).idle hidle₁, hs⟩
    have hexit := idle_send ((w.backends c).users.foldl NetworkPluginServer.dropUser
      (noteCrash c (markDying c w))) c (m := .exit) trivial
    rw [handleSessionFinished_eq hc]
    exact (hloop.idle hexit).drop
  · unfold handleSessionFinished
    rw [if_pos hc]
    exact h.others (z := none) (by simp) (.of_fields rfl (fun _ => rfl) (fun _ => rfl) rfl rfl)
      (.of_user rfl rfl (.of_eq rfl))

theorem handing_finishAll (hlink : Link none none w) (h : Handing none u w) (bs : List BackendId)
    (hs : SweepSpared u bs w) :
    Handing none u (bs.foldl (fun w b => handleSessionFinished b w) w) := by
  induction bs generalizing w with
  | nil => exact h
  | cons c bs ih => exact ih (hlink.finished c) (handing_finished hlink h c hs.1) hs.2

end Disconnect

/-! ## The ping sweep and the queue -/

/-- Of the users who are moved, as long as there are free backends, nothing has been announced for this
one. -/
def MovesSpared (u : UserId) : List UserId → World → Prop
  | [], _ => True
  | v :: us, w => (v = u → Finds false true w → latest u w.log = none) ∧
    ((moveToLongRunBackend v w).1 = true → MovesSpared u us (moveToLongRunBackend v w).2)

/-- The same for the users who are taken from the queue. -/
def QueueSpared (u : UserId) : Nat → World → Prop
  | 0, _ => True
  | n + 1, w => ∀ v ∈ w.waitingUsers.head?, Finds true false w →
    (v = u → latest u w.log = none) ∧
      QueueSpared u n (serve v w.waitingUsers.tail (getFreeClient true false true w).2)

/-- The whole of `connectWaitingUsers`. -/
def WaitersSpared (u : UserId) (w : World) : Prop :=
  QueueSpared u w.waitingUsers.length (w.emit .connectWaitingUsers)

section Backends

variable {u v : UserId} {w : World}

/-- A user that is moved is still listed by some backend. -/
theorem move_listed (u : UserId) (h : ∃ b ∈ w.clients, v ∈ (w.backends b).users) :
    ∃ b ∈ (moveToLongRunBackend u w).2.clients,
      v ∈ ((moveToLongRunBackend u w).2.backends b).users := by
  have ho := others_move u w
  obtain ⟨b, hb, hmem⟩ := h
  by_cases hne : v = u
  · subst hne
    rcases moveToLongRunBackend_cases v w with heq | ⟨w₁, hs, heq⟩ | heq |
      ⟨w₁, old, c, hs, -, -, -, hc, -, heq⟩
    · rw [heq]
      exact ⟨b, hb, hmem⟩
    · rw [heq]
      refine ⟨b, by rw [hs.clients]; exact hb, ?_⟩
      rw [hs.usersOf]
      exact hmem
    · rw [heq]
      exact ⟨b, hb, hmem⟩
    · rw [heq] at ho ⊢
      refine ⟨c, by rw [ho.clients]; exact hc, ?_⟩
      rw [(idle_handleUserReadyToConnect v _).quiet.backends, attach_usersOf, if_pos rfl]
      exact List.mem_append_right _ List.mem_cons_self
  · refine ⟨b, by rw [ho.clients]; exact hb, ?_⟩
    rw [ho.listed v (by simpa using hne)]
    exact hmem

theorem Handing.moveUsers (hlink : Link none none w) (h : Handing none u w) {us : List UserId}
    (hus : ∀ v ∈ us, ∃ b ∈ w.clients, v ∈ (w.backends b).users) (hs : MovesSpared u us w) :
    Handing none u (moveUsers us w) := by
  induction us generalizing w with
  | nil => exact h
  | cons v us ih =>
    obtain ⟨hself, hrest⟩ := hs
    obtain ⟨b, hb, hmem⟩ := hus v List.mem_cons_self
    have hlink₁ := hlink.move (hlink.not_waiting b hb (by simp) v hmem)
      (hlink.listed_managed b hb (by simp) v hmem (by simp))
    have hhanding : Handing none u (moveToLongRunBackend v w).2 := by
      by_cases hne : u = v
      · subst hne
        exact handing_move hlink h hb hmem (hself rfl)
      · exact h.others (by simpa using hne) (others_move v w) (mute_move v w)
    have hus₁ : ∀ v' ∈ us, ∃ b ∈ (moveToLongRunBackend v w).2.clients,
        v' ∈ ((moveToLongRunBackend v w).2.backends b).users :=
      fun v' hv' => move_listed v (hus v' (List.mem_cons_of_mem v hv'))
    unfold NetworkPluginServer.moveUsers
    generalize moveToLongRunBackend v w = r at hlink₁ hhanding hus₁ hrest
    obtain ⟨ok, w₁⟩ := r
    cases ok with
    | false => exact hhanding
    | true => exact ih hlink₁ hhanding hus₁ (hrest rfl)

theorem Handing.moveIdleUsers (hlink : Link none none w) (h : Handing none u w)
    (hs : w.cfg.idleReconnectTime ≠ 0 → MovesSpared u (usersToMove w) w) :
    Handing none u (moveIdleUsers w) := by
  unfold NetworkPluginServer.moveIdleUsers
  split
  · exact h
  · rename_i htime
    exact h.moveUsers hlink (fun v hv => mem_usersToMove hv) (hs htime)

theorem Handing.sweep (hlink : Link none none w) (h : Handing none u w)
    (hs : SweepSpared u (checkBackends w.clients { w with startingBackend := false }).1
      (checkBackends w.clients { w with startingBackend := false }).2) :
    Handing none u (sweep w) := by
  have ho : Others none w { w with startingBackend := false } :=
    .of_fields rfl (fun _ => rfl) (fun _ => rfl) rfl rfl
  have hm : Mute none w { w with startingBackend := false } := .of_user rfl rfl (.of_eq rfl)
  have hping := pinged_checkBackends w.clients { w with startingBackend := false }
  have hlink₀ : Link none none { w with startingBackend := false } :=
    hlink.of_same (.of_links rfl)
  exact handing_finishAll (hlink₀.checkBackends w.clients)
    (h.others (by simp) (ho.trans (.of_pinged hping)) (hm.trans (.of_pinged hping))) _ hs

theorem Handing.drain (hlink : Link none none w) (h : Handing none u w) {n : Nat}
    (hs : QueueSpared u n w) : Handing none u (drain n w) := by
  induction n generalizing w with
  | zero => exact h
  | succ n ih =>
    unfold NetworkPluginServer.drain
    split
    · exact h
    · rename_i v rest hwait
      have hturn := hs v (by rw [hwait]; rfl)
      have hsearch := searched_getFreeClient true false true w
      have hlink₁ := hlink.of_same hsearch.sameLinks
      have h₁ := h.others (z := none) (by simp) (.of_searched hsearch) (.of_searched hsearch)
      by_cases hfinds : Finds true false w
      · obtain ⟨hself, hrest⟩ := hturn hfinds
        rw [show w.waitingUsers.tail = rest by rw [hwait]; rfl] at hrest
        generalize getFreeClient true false true w = r at hsearch hlink₁ h₁ hrest
        obtain ⟨found, w₁⟩ := r
        cases found with
        | none => exact h₁
        | some c =>
          have hwait₁ : w₁.waitingUsers = v :: rest := hsearch.waitingUsers.trans hwait
          refine ih (hlink₁.serve hwait₁) ?_ hrest
          by_cases hne : u = v
          · subst hne
            have hm₁ : Mute none w w₁ := .of_searched hsearch
            exact handing_serve hlink₁ hwait₁ (hm₁.latest_eq.trans (hself rfl))
          · exact h₁.others (by simpa using hne) (others_serve hwait₁) (mute_serve v w₁ rest)
      · have hnone := getFreeClient_of_not_finds hfinds true
        generalize getFreeClient true false true w = r at hnone h₁
        obtain ⟨found, w₁⟩ := r
        cases hnone
        exact h₁

theorem Handing.connectWaitingUsers (hlink : Link none none w) (h : Handing none u w)
    (hs : WaitersSpared u w) : Handing none u (connectWaitingUsers w) := by
  have hq : Quiet (fun _ => True) w (w.emit .connectWaitingUsers) := .emit trivial
  have hm : Mute none w (w.emit .connectWaitingUsers) := .emit trivial
  exact (h.others (z := none) (by simp) (.of_quiet hq) hm).drain (hlink.of_same hq.sameLinks) hs

/-- The state in which the first PONG of a backend serves the queue. -/
def firstPong (b : BackendId) (w : World) : World :=
  startComponent ((w.emit (.pong b)).modBackend b fun c => { c with willDie := false })

theorem waitingUsers_firstPong (b : BackendId) (w : World) :
    (firstPong b w).waitingUsers = w.waitingUsers := by
  unfold firstPong
  rw [(quiet_startComponent _).waitingUsers]
  rfl

/-- Nobody is given a backend from an empty queue. -/
theorem waitersSpared_of_empty (h : w.waitingUsers = []) : WaitersSpared u w := by
  simp [WaitersSpared, QueueSpared, h]

theorem Handing.pong (hlink : Link none none w) (h : Handing none u w) (b : BackendId)
    (hs : (w.backends b).pongReceived = -1 → WaitersSpared u (firstPong b w)) :
    Handing none u (handlePongReceived b w) := by
  have hq : Quiet (fun _ => True) w (w.emit (.pong b)) := .emit trivial
  have hm : Mute none w (w.emit (.pong b)) := .emit trivial
  have hemit : Handing none u (w.emit (.pong b)) := h.others (by simp) (.of_quiet hq) hm
  simp only [handlePongReceived]
  split
  · rename_i hone
    have hlink₁ : Link none none ((w.emit (.pong b)).modBackend b fun c =>
      { c with willDie := false }) := (hlink.of_same hq.sameLinks).modBackend b fun _ => rfl
    have hready : Handing none u ((w.emit (.pong b)).modBackend b fun c =>
        { c with willDie := false }) :=
      hemit.others (z := none) (by simp) (.modBackend fun _ => rfl) .modBackend
    have hstart : Handing none u (firstPong b w) :=
      hready.others (z := none) (by simp) (.of_quiet (quiet_startComponent _)) .startComponent
    have hserved := hstart.connectWaitingUsers hlink₁.startComponent (hs hone)
    exact hserved.others (z := none) (by simp) (.modBackend fun _ => rfl) .modBackend
  · exact hemit.others (z := none) (by simp) (.modBackend fun _ => rfl) .modBackend

theorem Handing.connected (hlink : Link none none w) (h : Handing none u w) (j : Jid) :
    Handing none u (handleConnectedPayload j w) := by
  unfold handleConnectedPayload
  split
  · exact h
  · rename_i v hv
    have hmark : SameLinks w (markConnected v w) := sameLinks_modUser (fun _ => rfl) (fun _ => rfl)
    have hhanding : Handing none u (markConnected v w) := h.modUser fun _ _ => rfl
    have hchat : Chat w.Managed (markConnected v w) (User.setConnected v w) :=
      chat_setConnected (hlink.managed_of_users hv) fun k v hv => hlink.managed_of_users hv
    exact (hhanding.chat (hlink.of_same hmark) (fun v hv => hmark.managed.mpr hv)
      hchat).passwordValid j

end Backends

/-! ## Every run -/

/-- Once the user has a backend and is ready, the backend has taken him over. -/
def HandsOver (w : World) (u : UserId) : Prop :=
  ∀ b ∈ w.clients, u ∈ (w.backends b).users → (w.user u).readyForConnect = true → HandedOver w u b

/-- A step that gives the user a backend from the queue, after a disconnection or by a move is
taken only while no presence with a show has been announced for him. -/
def Replays (u : UserId) (w : World) : Event → Prop
  | .loginDelay => WaitersSpared u { w with loginTimer := false }
  | .received b .pong => (w.backends b).pongReceived = -1 → WaitersSpared u (firstPong b w)
  | .received _ (.disconnected j error _) => w.users j = some u → Spared u error w
  | .backendLost b => FinishSpared u b w
  | .pingTimeout =>
    (w.cfg.idleReconnectTime ≠ 0 → MovesSpared u (usersToMove w) w) ∧
    let w := moveIdleUsers w
    let r := checkBackends w.clients { w with startingBackend := false }
    SweepSpared u r.1 r.2
  | _ => True

section Run

variable {u : UserId} {w : World}

/-- A new backend lists nobody. -/
theorem Handing.joined (h : Handing none u w) : Handing none u (handleNewClientConnection w) := by
  have hj := joined_newBackend w
  generalize handleNewClientConnection w = w' at hj
  have hm : Mute none w w' :=
    .of_user hj.user hj.nextUser (hj.log.mono fun _ he => Effect.Plain.spares he)
  have hclear : Logs (Effect.Clear u (w.user u).jid.toBare) w w' :=
    hm.log.mono fun _ he => he.clear (by simp) _
  have hold : ∀ b ∈ w'.clients, u ∈ (w'.backends b).users →
      b ∈ w.clients ∧ u ∈ (w.backends b).users := by
    intro b hb hmem
    have hne : b ≠ w.nextBackend := by
      rintro rfl
      rw [hj.users_new] at hmem
      cases hmem
    rw [hj.clients] at hb
    rw [hj.old b hne] at hmem
    exact ⟨(List.mem_cons.mp hb).resolve_left hne, hmem⟩
  refine ⟨?_, ?_, ?_⟩
  · intro b hb hx hmem
    obtain ⟨hb₀, hmem₀⟩ := hold b hb hmem
    rw [hj.user, hclear.lastBackend_eq fun _ he => he.backend]
    exact h.placed b hb₀ hx hmem₀
  · intro hmanaged hready
    rw [hm.managed hj.users] at hmanaged
    rw [hj.user] at hready
    rw [hm.latest_eq]
    exact h.silent hmanaged hready
  · intro b hb hx hmem hready
    obtain ⟨hb₀, hmem₀⟩ := hold b hb hmem
    rw [hj.user] at hready
    exact (h.handed b hb₀ hx hmem₀ hready).clear (by rw [hj.user]) (by rw [hj.user]) hclear

theorem Handing.disconnectedPayload (hlink : Link none none w) (h : Handing none u w) (j : Jid)
    (error : ConnectionError) (message : String)
    (hs : w.users j = some u → Spared u error w) :
    Handing none u (handleDisconnectedPayload j error message w) := by
  have haside := aside_onPasswordInvalid w j message
  have hlink₁ := hlink.of_same haside.quiet.sameLinks
  have h₁ := h.aside haside.toApart
  simp only [handleDisconnectedPayload]
  split
  · exact h₁
  · rename_i v hv
    have hmanaged := hlink₁.managed_of_users hv
    rw [haside.quiet.users] at hv
    by_cases hne : u = v
    · subst hne
      have hspared := (hs hv).congr haside.core haside.user
        (Mute.of_aside (z := none) haside.toApart).latest_eq
      exact h₁.disconnected_self hlink₁ hmanaged hspared message
    · exact h₁.others (by simpa using hne) (others_disconnected hlink₁ hmanaged message error)
        (mute_disconnected v _ message error)

theorem Handing.message (hlink : Link none none w) (h : Handing none u w) {b : BackendId}
    {m : FromBackend} (hr : Replays u w (.received b m)) :
    Handing none u (handleMessage b m w) := by
  have hlink₁ := hlink.noteData b
  have ho : Others none w (noteData b w) := .noteData b
  have hm : Mute none w (noteData b w) := .noteData b
  have h₁ := h.others (by simp) ho hm
  cases m with
  | connected j _ => exact h₁.connected hlink₁ j
  | disconnected j error message =>
    refine h₁.disconnectedPayload hlink₁ j error message ?_
    intro hu
    obtain ⟨v, hv⟩ := noteData_eq b w
    rw [hv] at hu ⊢
    intro hmanaged hignore hrec hfree
    refine hr hu hmanaged hignore hrec (hfree.congr rfl rfl rfl rfl rfl fun c => ?_)
    by_cases hc : c = b
    · subst hc
      simp [modBackend]
    · simp [modBackend, Function.update_of_ne hc]
  | pong =>
    refine h₁.pong hlink₁ b fun hone => ?_
    -- data of a backend that has never answered is not noted
    have hsame : noteData b w = w := by
      unfold noteData at hone ⊢
      split
      · rename_i hzero
        simp [hzero, modBackend] at hone
      · rfl
    rw [hsame] at hone ⊢
    exact hr hone
  | stats res id =>
    simp only [handleMessage, handleStatsPayload]
    exact h₁.others (z := none) (by simp) (.modBackend fun _ => rfl) .modBackend
  | other => exact h₁

theorem Handing.run (hlink : Link none none w) (haware : Aware w) (h : Handing none u w)
    {e : Event} (henabled : e.enabled w = true) (hr : Replays u w e) :
    Handing none u (e.run w) := by
  have hfront : e.isFront = true → Handing none u (e.run w) := by
    intro hfront
    refine h.talk hlink haware (talk_run hfront ?_)
    rintro v rfl
    exact .inr henabled
  cases e with
  | clock now =>
    exact h.others (z := none) (by simp) (.of_fields rfl (fun _ => rfl) (fun _ => rfl) rfl rfl)
      (.of_user rfl rfl (.of_eq rfl))
  | backendConnected => exact h.joined
  | backendLost b => exact handing_finished hlink h b hr
  | received b m => exact h.message hlink hr
  | pingTimeout => exact (h.moveIdleUsers hlink hr.1).sweep hlink.moveIdleUsers hr.2
  | loginDelay =>
    have hstop : Handing none u { w with loginTimer := false } :=
      h.others (z := none) (by simp) (.of_fields rfl (fun _ => rfl) (fun _ => rfl) rfl rfl)
        (.of_user rfl rfl (.of_eq rfl))
    have hlink₁ : Link none none { w with loginTimer := false } :=
      hlink.of_same (.of_links rfl)
    exact hstop.connectWaitingUsers hlink₁ hr
  | collect =>
    simp only [Event.run, collectBackend]
    split
    · exact h
    · exact h.others (z := none) (by simp) (.modBackend fun _ => rfl) .modBackend
  | activity v =>
    simp only [Event.run]
    exact h.modUser fun _ _ => rfl
  | _ => exact hfront rfl

/-- In every run in which a user is given a backend from the queue, after a disconnection or by
a move only before a presence was announced for him, the backend of a ready user knows him and
the status of his latest presence. -/
theorem handsOver_of_replays {tr : List (World × Event)} (h : machine.Run tr w)
    (hr : Lib.Machine.Meets (Replays u) tr) : HandsOver w u := by
  have hinv : Link none none w ∧ Aware w ∧ Handing none u w := by
    refine h.invariant_of_steps (I := fun w => Link none none w ∧ Aware w ∧ Handing none u w)
      ?_ ?_ hr
    · rintro s ⟨cfg, now, storage, rfl⟩
      have hlink := link_start cfg now storage
      refine ⟨hlink, aware_start cfg now storage, .of_not_managed hlink ?_⟩
      intro hm
      cases hm
    · rintro s e s' he hs ⟨hlink, haware, hhanding⟩
      obtain ⟨henabled, -, rfl⟩ := step_eq_some hs
      exact ⟨hlink.run e, haware.run hlink henabled, hhanding.run hlink haware henabled he⟩
  intro b hb hmem hready
  exact hinv.2.2.handed b hb (by simp) hmem hready

end Run

/-- A user who finds a backend at once, and goes away after he was handed over. -/
theorem handsOver_alice :
    ∃ tr w p, machine.Run tr w ∧ Lib.Machine.Meets (Replays 0) tr ∧ 0 ∈ w.clients ∧
      0 ∈ (w.backends 0).users ∧ (w.user 0).readyForConnect = true ∧
      latest 0 w.log = some p ∧ p.getShow = .away ∧ HandsOver w 0 := by
  have hexec : ∃ w, (machine.restrict fun w _ => w.waitingUsers = []).exec
      (World.start Sample.cfg 0 none)
      [.backendConnected, .received 0 .pong, .presence (Sample.available "alice"),
        .connectingTimeout 0,
        .presence { Sample.available "alice" with showPayload := some .away }] = some w ∧
      (0 ∈ w.clients ∧ 0 ∈ (w.backends 0).users ∧ (w.user 0).readyForConnect = true) ∧
      ∃ p, latest 0 w.log = some p ∧ p.getShow = .away :=
    ⟨_, by rfl, ⟨by decide, by decide, by rfl⟩, _, by rfl, by rfl⟩
  obtain ⟨w, hw, ⟨hb, hmem, hready⟩, p, hp, hshow⟩ := hexec
  obtain ⟨tr, h, hevents⟩ :=
    Lib.Machine.exists_run_of_exec (M := machine.restrict fun w _ => w.waitingUsers = [])
      (init_start Sample.cfg 0 none) hw
  obtain ⟨hrun, hempty⟩ := h.of_restrict
  have hmeets : Lib.Machine.Meets (Replays 0) tr := by
    rintro ⟨w₁, e⟩ hstep
    have he : e ∈ tr.map Prod.snd := List.mem_map_of_mem (f := Prod.snd) hstep
    have hwaiting : w₁.waitingUsers = [] := hempty _ hstep
    rw [hevents] at he
    simp only [List.reverse_cons, List.reverse_nil, List.nil_append, List.cons_append,
      List.mem_cons, List.not_mem_nil, or_false] at he
    rcases he with rfl | rfl | rfl | rfl | rfl
    · trivial
    · trivial
    · trivial
    · exact fun _ => waitersSpared_of_empty (by rw [waitingUsers_firstPong]; exact hwaiting)
    · trivial
  exact ⟨tr, w, p, hrun, hmeets, hb, hmem, hready, hp, hshow, handsOver_of_replays hrun hmeets⟩

/-- A user becomes available while he waits for a backend: the one he is given is sent his
LOGIN, and no status. -/
theorem not_handsOver_of_queue :
    ¬ ∀ (tr : List (World × Event)) (w : World) (u : UserId), machine.Run tr w → HandsOver w u := by
  intro hall
  have hexec : ∃ w, machine.exec (World.start Sample.cfg 0 none)
      [.presence (Sample.available "alice"), .connectingTimeout 0, .backendConnected,
        .received 0 .pong] = some w ∧
      (0 ∈ w.clients ∧ 0 ∈ (w.backends 0).users ∧ (w.user 0).readyForConnect = true) ∧
      (∃ p, latest 0 w.log = some p) ∧
      lastStatus 0 (w.user 0).jid.toBare w.log = none :=
    ⟨_, by rfl, ⟨by decide, by decide, by rfl⟩, ⟨_, by rfl⟩, by rfl⟩
  obtain ⟨w, hw, ⟨hb, hmem, hready⟩, ⟨p, hp⟩, hnone⟩ := hexec
  obtain ⟨tr, hrun, -⟩ := Lib.Machine.exists_run_of_exec (init_start Sample.cfg 0 none) hw
  obtain ⟨l₁, l₂, hlog, -, -, hstatus⟩ := hall tr w 0 hrun 0 hb hmem hready
  rw [hlog, lastStatus_of_append (hstatus p hp)] at hnone
  cases hnone

end Spectrum
