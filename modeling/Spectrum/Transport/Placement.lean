import Mathlib.Data.List.Nodup
import Spectrum.Transport.UserFrame

/-!
# No user is orphaned

Every user of `UserManager` is in the list of one backend or waits for one. `Link` says that
he is not in two places; what is added here is that he is in some place. The one way out is a
move to a long-running backend: it sets `ignoreDisconnect` until the new backend has
connected the user, and if that backend ends before, `User::handleDisconnected` does nothing
and the user is left without a place. The property holds in the runs where no backend ends
with such a user (`Unignored`).
-/

namespace Spectrum

open World NetworkPluginServer

/-- The user is listed by exactly one backend and does not wait, or he is listed by none and
waits exactly once. -/
def HasPlace (w : World) (u : UserId) : Prop :=
  ((∃ b ∈ w.clients, u ∈ (w.backends b).users ∧
      ∀ c ∈ w.clients, u ∈ (w.backends c).users → c = b) ∧ u ∉ w.waitingUsers) ∨
    ((∀ b ∈ w.clients, u ∉ (w.backends b).users) ∧ w.waitingUsers.count u = 1)

/-- The user is listed by a backend other than `x`, or waits. -/
def Housed (x : Option BackendId) (w : World) (u : UserId) : Prop :=
  (∃ b ∈ w.clients, some b ≠ x ∧ u ∈ (w.backends b).users) ∨ u ∈ w.waitingUsers

/-- No backend ends while one of its users ignores disconnections: neither one that is lost
nor one that has not answered when the sweep starts after the idle users were moved. -/
def Unignored (w : World) : Event → Prop
  | .backendLost c => ∀ u ∈ (w.backends c).users, (w.user u).ignoreDisconnect = false
  | .pingTimeout => ∀ b ∈ (moveIdleUsers w).clients,
      ((moveIdleUsers w).backends b).pongReceived = 0 →
      ∀ u ∈ ((moveIdleUsers w).backends b).users,
        ((moveIdleUsers w).user u).ignoreDisconnect = false
  | _ => True

instance (w : World) (e : Event) : Decidable (Unignored w e) :=
  match e with
  | .backendLost c => inferInstanceAs (Decidable (∀ u ∈ (w.backends c).users,
      (w.user u).ignoreDisconnect = false))
  | .pingTimeout => inferInstanceAs (Decidable (∀ b ∈ (moveIdleUsers w).clients,
      ((moveIdleUsers w).backends b).pongReceived = 0 →
      ∀ u ∈ ((moveIdleUsers w).backends b).users,
        ((moveIdleUsers w).user u).ignoreDisconnect = false))
  | .clock _ | .backendConnected | .received .. | .loginDelay | .collect | .presence _
  | .caps .. | .connectingTimeout _ | .activity _ | .removeTick | .unregister _ | .registryTick
  | .openSession _ | .streamStart .. | .element .. | .closeSession _ => isTrue trivial

theorem housed_local : Local Housed where
  same := by
    rintro x w w' v hs (⟨b, hb, hx, hmem⟩ | hwait)
    · refine .inl ⟨b, ?_, hx, ?_⟩
      · rw [hs.clients]
        exact hb
      · rw [hs.usersOf]
        exact hmem
    · right
      rw [hs.waitingUsers]
      exact hwait
  others := by
    rintro x z w w' v ho hv (⟨b, hb, hx, hmem⟩ | hwait)
    · refine .inl ⟨b, ?_, hx, (ho.listed v hv b).mpr hmem⟩
      rw [ho.clients]
      exact hb
    · exact .inr ((ho.waiting v hv).mpr hwait)
  seated := by
    rintro x w u ⟨d, hd, hx, -, hmem⟩
    exact .inl ⟨d, hd, hx, hmem⟩
  queued := by
    intro x w u h
    exact .inr h.1
  joined := by
    rintro w w' v hlink hj (⟨b, hb, hx, hmem⟩ | hwait)
    · have hne : b ≠ w.nextBackend := Nat.ne_of_lt (hlink.fresh b hb)
      refine .inl ⟨b, ?_, hx, ?_⟩
      · rw [hj.clients]
        exact List.mem_cons_of_mem _ hb
      · rw [hj.old b hne]
        exact hmem
    · right
      rw [hj.waitingUsers]
      exact hwait
  marked := by
    rintro c w v hnot (⟨b, hb, -, hmem⟩ | hwait)
    · refine .inl ⟨b, hb, ?_, hmem⟩
      intro heq
      cases heq
      exact hnot hmem
    · exact .inr hwait
  dropped := by
    rintro c w v (⟨b, hb, hne, hmem⟩ | hwait)
    · have hbc : b ≠ c := by simpa using hne
      refine .inl ⟨b, ?_, by simp, ?_⟩
      · simpa using ⟨hb, hbc⟩
      · simpa [modBackend, Function.update_of_ne hbc] using hmem
    · exact .inr hwait

/-! ## The flag during a sweep -/

/-- Nobody started or stopped to ignore disconnections. -/
def SameFlags (w w' : World) : Prop :=
  ∀ v, (w'.user v).ignoreDisconnect = (w.user v).ignoreDisconnect

section Flags

variable {w w' w₁ : World} {u : UserId}

theorem SameFlags.trans (h : SameFlags w w₁) (h' : SameFlags w₁ w') : SameFlags w w' :=
  fun v => (h' v).trans (h v)

theorem SameFlags.of_idle (h : Idle w w') : SameFlags w w' :=
  fun v => (congrArg User.ignoreDisconnect (h.quiet.user v) :)

theorem SameFlags.modUser {f : User → User}
    (hf : ∀ y, (f y).ignoreDisconnect = y.ignoreDisconnect) : SameFlags w (w.modUser u f) := by
  intro v
  by_cases hv : v = u
  · subst hv
    simp [World.modUser, hf]
  · simp [World.modUser, Function.update_of_ne hv]

theorem sameFlags_destroyed (u : UserId) (w : World) : SameFlags w (handleUserDestroyed u w) := by
  intro v
  rw [(handleUserDestroyed_spec u w).user]
  by_cases hv : v = u
  · subst hv
    simp
  · rw [Function.update_of_ne hv]

theorem sameFlags_created (u : UserId) (w : World) : SameFlags w (handleUserCreated u w) := by
  obtain ⟨w₁, hs, ⟨-, heq⟩ | ⟨c, -, -, heq⟩⟩ := handleUserCreated_cases u w
  · rw [heq]
    intro v
    show (w₁.user v).ignoreDisconnect = (w.user v).ignoreDisconnect
    rw [hs.user]
  · rw [heq]
    have hsearch : SameFlags w w₁ := fun v => by rw [hs.user]
    have hattach : SameFlags w₁ (attach .created u c w₁) :=
      SameFlags.modUser (f := fun x => { x with data := some c }) fun _ => rfl
    exact (hsearch.trans hattach).trans (SameFlags.modUser fun _ => rfl)

theorem sameFlags_reconnect (u : UserId) (w : World) : SameFlags w (User.reconnect u w) := by
  simp only [User.reconnect]
  have hcount : SameFlags w
      (w.modUser u fun y => { y with reconnectCounter := y.reconnectCounter + 1 }) :=
    SameFlags.modUser fun _ => rfl
  exact ((hcount.trans (sameFlags_destroyed u _)).trans (sameFlags_created u _)).trans
    (.of_idle (idle_onReadyToConnect u _))

theorem sameFlags_giveUp (u : UserId) (error : String) (w : World) :
    SameFlags w (User.giveUp u error w) := by
  have hreport := SameFlags.of_idle (idle_reportError u error w)
  simp only [User.giveUp]
  split
  · exact hreport
  · obtain ⟨w₁, hq, hq'⟩ := removeUser_steps (User.reportError u error w) u
    have herase : SameFlags (User.reportError u error w) w₁ := fun v => SameFlags.of_idle hq v
    exact ((hreport.trans herase).trans (sameFlags_destroyed u w₁)).trans (.of_idle hq')

theorem sameFlags_disconnected (u : UserId) (error : String) (e : ConnectionError) (w : World) :
    SameFlags w (User.handleDisconnected u error e w) := by
  rcases handleDisconnected_cases u error e w with ⟨-, heq⟩ | ⟨-, -, heq⟩ | ⟨-, -, heq⟩
  · rw [heq]
    exact fun _ => rfl
  · rw [heq]
    exact sameFlags_reconnect u (w.emit (.disconnected u))
  · rw [heq]
    exact sameFlags_giveUp u error (w.emit (.disconnected u))

theorem sameFlags_dropUser (w : World) (u : UserId) : SameFlags w (dropUser w u) := by
  have hdata : SameFlags w (w.setData u none) := SameFlags.modUser fun _ => rfl
  exact hdata.trans (sameFlags_disconnected u _ _ _)

theorem sameFlags_finished (c : BackendId) (w : World) :
    SameFlags w (handleSessionFinished c w) := by
  have hloop : ∀ (us : List UserId) (w : World), SameFlags w (us.foldl dropUser w) := by
    intro us
    induction us with
    | nil => exact fun w v => rfl
    | cons u us ih => exact fun w => (sameFlags_dropUser w u).trans (ih _)
  by_cases hc : c ∈ w.clients
  · obtain ⟨w₁, w₂, hq₁, hq₂, heq⟩ := handleSessionFinished_steps hc
    have hmark : SameFlags w w₁ := fun v => SameFlags.of_idle hq₁ v
    have hall := (hmark.trans (hloop _ w₁)).trans (.of_idle hq₂)
    rw [heq]
    exact hall
  · unfold handleSessionFinished
    rw [if_pos hc]
    exact fun _ => rfl

end Flags

section Listed

variable {x : Option BackendId} {w : World} {u v : UserId} {b : BackendId}

/-- Only a user who does not ignore his disconnection gets into another list. -/
theorem mem_dropUser (h : Link x none w) (hu : Pending x u w)
    (hv : v ∈ ((dropUser w u).backends b).users) :
    v ∈ (w.backends b).users ∨ (w.user v).ignoreDisconnect = false := by
  by_cases hvu : v = u
  · subst hvu
    cases hignore : (w.user v).ignoreDisconnect with
    | false => exact .inr rfl
    | true =>
      left
      have htrue : ((w.setData v none).user v).ignoreDisconnect = true := by
        simpa [setData, modUser] using hignore
      simp only [dropUser, User.handleDisconnected, emit, htrue, ↓reduceIte] at hv
      exact hv
  · exact .inl (((others_dropUser h hu).listed v (by simpa using hvu) b).mp hv)

theorem mem_dropUsers {us : List UserId} (hnodup : us.Nodup) (h : Link x none w)
    (hpending : ∀ v ∈ us, Pending x v w)
    (hv : v ∈ ((us.foldl dropUser w).backends b).users) :
    v ∈ (w.backends b).users ∨ (w.user v).ignoreDisconnect = false := by
  have hstep : ∀ (u : UserId) (us : List UserId) (w' : World), u ∉ us → Link x none w' →
      Pending x u w' → (∀ v ∈ us, Pending x v w') →
      (SameFlags w w' ∧ ∀ v ∈ (w'.backends b).users,
        v ∈ (w.backends b).users ∨ (w.user v).ignoreDisconnect = false) →
      SameFlags w (dropUser w' u) ∧ ∀ v ∈ ((dropUser w' u).backends b).users,
        v ∈ (w.backends b).users ∨ (w.user v).ignoreDisconnect = false := by
    rintro u us w' - hlink hu - ⟨hflags, hold⟩
    refine ⟨hflags.trans (sameFlags_dropUser w' u), ?_⟩
    intro v hv
    rcases mem_dropUser hlink hu hv with hmem | hfalse
    · exact hold v hmem
    · right
      rw [← hflags v]
      exact hfalse
  obtain ⟨-, -, hall⟩ := dropUsers_induction (I := fun _ w' => SameFlags w w' ∧
    ∀ v ∈ (w'.backends b).users, v ∈ (w.backends b).users ∨ (w.user v).ignoreDisconnect = false)
    hstep hnodup h hpending ⟨fun _ => rfl, fun _ => .inl⟩
  exact hall v hv

theorem mem_finished (h : Link none none w) {c : BackendId}
    (hv : v ∈ ((handleSessionFinished c w).backends b).users) :
    v ∈ (w.backends b).users ∨ (w.user v).ignoreDisconnect = false := by
  by_cases hc : c ∈ w.clients
  · obtain ⟨w₁, w₂, hq₁, hq₂, heq⟩ := handleSessionFinished_steps hc
    have husers : ((handleSessionFinished c w).backends b).users = (w₂.backends b).users := by
      rw [heq]
      by_cases hb : b = c
      · subst hb
        simp [modBackend]
      · simp [modBackend, Function.update_of_ne hb]
    rw [husers, hq₂.quiet.backends] at hv
    have hflag : (w₁.user v).ignoreDisconnect = (w.user v).ignoreDisconnect :=
      SameFlags.of_idle hq₁ v
    rcases mem_dropUsers (h.users_nodup c hc (by simp)) ((h.markDying c).of_same hq₁.sameLinks)
      (fun v hv => (pending_markDying h hc v hv).of_same hq₁.sameLinks) hv with hold | hfalse
    · rw [hq₁.quiet.backends, markDying_users] at hold
      exact .inl hold
    · rw [hflag] at hfalse
      exact .inr hfalse
  · unfold handleSessionFinished at hv
    rw [if_pos hc] at hv
    exact .inl hv

/-! ## Events -/

theorem housed_finished (hlink : Link none none w) (h : Everyone Housed w) {c : BackendId}
    (hignore : ∀ u ∈ (w.backends c).users, (w.user u).ignoreDisconnect = false) :
    Everyone Housed (handleSessionFinished c w) := by
  refine h.finished housed_local hlink c ?_
  intro v hv htrue
  rw [hignore v hv] at htrue
  cases htrue

theorem housed_finishAll (bs : List BackendId) (hlink : Link none none w) (h : Everyone Housed w)
    (hignore : ∀ b ∈ bs, ∀ u ∈ (w.backends b).users, (w.user u).ignoreDisconnect = false) :
    Everyone Housed (bs.foldl (fun w b => handleSessionFinished b w) w) := by
  induction bs generalizing w with
  | nil => exact h
  | cons c bs ih =>
    have hfirst := hignore c List.mem_cons_self
    apply ih (hlink.finished c) (housed_finished hlink h hfirst)
    intro b hb u hu
    rw [sameFlags_finished c w u]
    rcases mem_finished hlink hu with hold | hfalse
    · exact hignore b (List.mem_cons_of_mem c hb) u hold
    · exact hfalse

theorem housed_sweep (hlink : Link none none w) (h : Everyone Housed w)
    (hignore : ∀ b ∈ w.clients, (w.backends b).pongReceived = 0 →
      ∀ u ∈ (w.backends b).users, (w.user u).ignoreDisconnect = false) :
    Everyone Housed (sweep w) := by
  have hlink₀ : Link none none { w with startingBackend := false } :=
    hlink.of_same (.of_links rfl)
  have h₀ : Everyone Housed { w with startingBackend := false } :=
    h.frame housed_local (.of_fields rfl (fun _ => rfl) (fun _ => rfl) rfl rfl)
  have hping := pinged_checkBackends w.clients { w with startingBackend := false }
  refine housed_finishAll _ (hlink₀.checkBackends w.clients)
    (h₀.frame housed_local (.of_pinged hping)) ?_
  intro b hb u hu
  rw [hping.usersOf] at hu
  rw [hping.user]
  rw [checkBackends_fst hlink.nodup] at hb
  obtain ⟨c, hc, hbc⟩ := List.mem_flatMap.mp hb
  unfold expired at hbc
  rcases List.mem_append.mp hbc with hlate | hidle
  · split at hlate
    · rename_i hzero
      rw [List.mem_singleton] at hlate
      subst hlate
      exact hignore b hc hzero u hu
    · cases hlate
  · split at hidle
    · rename_i hempty
      rw [List.mem_singleton] at hidle
      subst hidle
      rw [hempty] at hu
      cases hu
    · cases hidle

theorem housed_run (hlink : Link none none w) (h : Everyone Housed w) {e : Event}
    (he : Unignored w e) : Everyone Housed (e.run w) := by
  by_cases hbenign : e.benign = true
  · exact h.run housed_local hlink hbenign
  · cases e with
    | backendLost b => exact housed_finished hlink h he
    | pingTimeout => exact housed_sweep hlink.moveIdleUsers (h.moveIdleUsers housed_local) he
    | received b m =>
      cases m with
      | disconnected j error message =>
        have hq := (aside_onPasswordInvalid (noteData b w) j message).quiet
        have hlink₁ := (hlink.noteData b).of_same hq.sameLinks
        have h₁ := (h.noteData housed_local b).quiet housed_local hq
        simp only [Event.run, handleMessage, handleDisconnectedPayload]
        generalize UserRegistry.onPasswordInvalid j message (noteData b w) = w₁ at hlink₁ h₁
        split
        · exact h₁
        · rename_i u hu
          have hm := hlink₁.managed_of_users hu
          refine h₁.others housed_local (others_disconnected hlink₁ hm message error) fun hm' => ?_
          rcases disconnected_outcome hlink₁ hm message error hm' with
            ⟨-, heq⟩ | ⟨-, -, hqueued | hseated⟩
          · rw [heq]
            exact h₁ u hm
          · exact .inr hqueued.1
          · exact housed_local.seated hseated
      | _ => exact absurd rfl hbenign
    | _ => exact absurd rfl hbenign

/-! ## Every run -/

theorem housed_of_run {tr : List (World × Event)} (h : machine.Run tr w)
    (hr : Lib.Machine.Meets Unignored tr) : Link none none w ∧ Everyone Housed w := by
  refine h.invariant_of_steps (I := fun w => Link none none w ∧ Everyone Housed w) ?_ ?_ hr
  · rintro s ⟨cfg, now, storage, rfl⟩
    refine ⟨link_start cfg now storage, ?_⟩
    intro v hv
    cases hv
  · rintro s e s' he hs ⟨hlink, hhoused⟩
    obtain ⟨-, -, rfl⟩ := step_eq_some hs
    exact ⟨hlink.run e, housed_run hlink hhoused he⟩

/-- In every run in which no backend ends with a user that ignores disconnections, every user
has exactly one place. -/
theorem hasPlace_of_unignored {tr : List (World × Event)} (h : machine.Run tr w)
    (hr : Lib.Machine.Meets Unignored tr) : ∀ u, w.Managed u → HasPlace w u := by
  obtain ⟨hlink, hhoused⟩ := housed_of_run h hr
  intro u hm
  rcases hhoused u hm with ⟨b, hb, -, hmem⟩ | hwait
  · refine .inl ⟨⟨b, hb, hmem, ?_⟩, hlink.not_waiting b hb (by simp) u hmem⟩
    intro c hc hmem'
    have hdata := hlink.linked b hb (by simp) u hmem
    have hdata' := hlink.linked c hc (by simp) u hmem'
    rw [hdata] at hdata'
    exact (Option.some.inj hdata').symm
  · refine .inr ⟨?_, List.count_eq_one_of_mem hlink.waiting_nodup hwait⟩
    intro b hb hmem
    exact hlink.not_waiting b hb (by simp) u hmem hwait

namespace Sample

/-- A gateway that moves users after one second without activity. -/
def movingCfg : Config := { cfg with idleReconnectTime := 1 }

/-- Alice is on backend 0 and idle, and a long-running backend is ready. -/
def movingEvents : List Event :=
  [.presence (available "alice"), .backendConnected, .received 0 .pong, .clock 5, .pingTimeout,
    .backendConnected, .received 1 .pong, .received 0 .pong]

end Sample

/-- A user that is moved and connected by his new backend before that backend is lost. -/
theorem hasPlace_alice :
    ∃ tr w, machine.Run tr w ∧ Lib.Machine.Meets Unignored tr ∧
      (w.clients = [] ∧ w.Managed 0) ∧ ∀ u, w.Managed u → HasPlace w u := by
  have hexec : ∃ w, (machine.restrict Unignored).exec (World.start Sample.movingCfg 0 none)
      (Sample.movingEvents ++ [.pingTimeout, .received 1 (.connected (Sample.jid "alice") ""),
        .backendLost 1]) = some w ∧ w.clients = [] ∧ w.Managed 0 :=
    ⟨_, by rfl, by rfl, by rfl⟩
  obtain ⟨w, hw, hstate⟩ := hexec
  obtain ⟨tr, hrun, hmeets⟩ :=
    Lib.Machine.exists_run_of_restrict (init_start Sample.movingCfg 0 none) hw
  exact ⟨tr, w, hrun, hmeets, hstate, hasPlace_of_unignored hrun hmeets⟩

/-- A long-running backend that is lost right after a move orphans the moved user. -/
theorem not_hasPlace_of_move : ¬ ∀ (tr : List (World × Event)) (w : World), machine.Run tr w →
    ∀ u, w.Managed u → HasPlace w u := by
  intro hall
  have hexec : ∃ w, machine.exec (World.start Sample.movingCfg 0 none)
      (Sample.movingEvents ++ [.pingTimeout, .backendLost 1]) = some w ∧ w.Managed 0 ∧
      w.clients = [] ∧ w.waitingUsers = [] := ⟨_, by rfl, by rfl, by rfl, by rfl⟩
  obtain ⟨w, hw, hm, hclients, hwait⟩ := hexec
  obtain ⟨tr, hrun, -⟩ := Lib.Machine.exists_run_of_exec (init_start Sample.movingCfg 0 none) hw
  rcases hall tr w hrun 0 hm with ⟨⟨b, hb, -⟩, -⟩ | ⟨-, hcount⟩
  · rw [hclients] at hb
    cases hb
  · rw [hwait] at hcount
    cases hcount

end Listed

end Spectrum
