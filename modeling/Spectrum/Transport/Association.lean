import Mathlib.Data.List.Nodup
import Spectrum.Transport.UserFrame

/-!
# The two ends of an association

A user and his backend know each other twice: `getData` of the user and the list of the
backend. `Link` says that a listed user points back. The other direction is lost at one
place: `User::handleDisconnected` logs the user out and creates him again, and if the search
then finds no backend he waits with a pointer to the backend he has left. The property holds
in the runs where such a reconnect finds a backend at once (`Resettles`).
-/

namespace Spectrum

open World NetworkPluginServer

/-- Both ends of every association agree. -/
def Associated (w : World) : Prop :=
  (∀ u b, w.Managed u → (w.user u).data = some b →
    b ∈ w.clients ∧ (w.backends b).users.count u = 1 ∧
      ∀ c ∈ w.clients, c ≠ b → u ∉ (w.backends c).users) ∧
  ∀ b ∈ w.clients, ∀ u ∈ (w.backends b).users, w.Managed u ∧ (w.user u).data = some b

/-- The backend a user points to lists him and is not `x`. -/
def Tied (x : Option BackendId) (w : World) (u : UserId) : Prop :=
  ∀ b, (w.user u).data = some b → b ∈ w.clients ∧ some b ≠ x ∧ u ∈ (w.backends b).users

/-- A user who is disconnected by his backend and reconnected automatically is given a
backend at once, where his own counts without him. -/
def Resettles (w : World) : Event → Prop
  | .received _ (.disconnected j error _) => ∀ u ∈ w.users j, ∀ c ∈ (w.user u).data,
      (w.user u).ignoreDisconnect = false → User.reconnects (w.user u) error = true →
      loginPostponed w = false ∧
        (findFree true false (w.modBackend c (Backend.without u w.cfg.usersPerBackend))).isSome
  | _ => True

instance (w : World) (e : Event) : Decidable (Resettles w e) :=
  match e with
  | .received _ (.disconnected j error _) => inferInstanceAs (Decidable (∀ u ∈ w.users j,
      ∀ c ∈ (w.user u).data, (w.user u).ignoreDisconnect = false →
      User.reconnects (w.user u) error = true → loginPostponed w = false ∧
        (findFree true false (w.modBackend c (Backend.without u w.cfg.usersPerBackend))).isSome))
  | .received _ (.connected ..) | .received _ .pong | .received _ (.stats ..)
  | .received _ .other | .clock _ | .backendConnected | .backendLost _ | .pingTimeout
  | .loginDelay | .collect | .presence _ | .caps .. | .connectingTimeout _ | .activity _
  | .removeTick | .unregister _ | .registryTick | .openSession _ | .streamStart ..
  | .element .. | .closeSession _ => isTrue trivial

/-! ## Pointers and lists -/

theorem tied_local : Local Tied where
  same := by
    intro x w w' v hs h b hb
    rw [hs.data] at hb
    rw [hs.clients, hs.usersOf]
    exact h b hb
  others := by
    intro x z w w' v ho hv h b hb
    rw [ho.data hv] at hb
    rw [ho.clients, ho.listed v hv]
    exact h b hb
  seated := by
    rintro x w u ⟨d, hd, hx, hdata, hmem⟩ b hb
    rw [hdata] at hb
    cases hb
    exact ⟨hd, hx, hmem⟩
  queued := by
    intro x w u h b hb
    rw [h.2] at hb
    cases hb
  joined := by
    intro w w' v hlink hj h b hb
    rw [hj.user] at hb
    obtain ⟨hmem, hx, hlisted⟩ := h b hb
    have hne : b ≠ w.nextBackend := Nat.ne_of_lt (hlink.fresh b hmem)
    rw [hj.clients, hj.old b hne]
    exact ⟨List.mem_cons_of_mem _ hmem, hx, hlisted⟩
  marked := by
    intro c w v hnot h b hb
    obtain ⟨hmem, -, hlisted⟩ := h b hb
    refine ⟨hmem, ?_, hlisted⟩
    intro heq
    cases heq
    exact hnot hlisted
  dropped := by
    intro c w v h b hb
    obtain ⟨hmem, hne, hlisted⟩ := h b hb
    have hbc : b ≠ c := by simpa using hne
    refine ⟨?_, by simp, ?_⟩
    · simpa using ⟨hmem, hbc⟩
    · simpa [modBackend, Function.update_of_ne hbc] using hlisted

section Tied

variable {w : World} {u : UserId}

/-- After the logout of a reconnect, the search sees the backend of the user without him. -/
theorem findFree_destroyed {w' : World} {c : BackendId} (hdata : (w.user u).data = some c)
    (hd : Destroyed u w w') : findFree true false w' =
      findFree true false (w.modBackend c (Backend.without u w.cfg.usersPerBackend)) := by
  refine findFree_congr hd.clients hd.cfg fun b => ?_
  rw [hd.backends b, hdata]
  by_cases hb : b = c
  · subst hb
    simp [modBackend]
  · rw [if_neg (by simpa using Ne.symm hb)]
    simp [modBackend, Function.update_of_ne hb]

theorem reconnect_seated {c : BackendId} (hdata : (w.user u).data = some c)
    (hpost : loginPostponed w = false)
    (hfind : (findFree true false
      (w.modBackend c (Backend.without u w.cfg.usersPerBackend))).isSome) :
    Seated none u (User.reconnect u w) := by
  simp only [User.reconnect]
  have hd := handleUserDestroyed_spec u
    (w.modUser u fun y => { y with reconnectCounter := y.reconnectCounter + 1 })
  have hdata₁ : ((w.modUser u fun y =>
      { y with reconnectCounter := y.reconnectCounter + 1 }).user u).data = some c := by
    rw [sameLinks_count.data]
    exact hdata
  obtain ⟨d, hfound⟩ := Option.isSome_iff_exists.mp hfind
  have hfind₁ := (findFree_destroyed hdata₁ hd).trans hfound
  have hpost₁ : loginPostponed (handleUserDestroyed u
      (w.modUser u fun y => { y with reconnectCounter := y.reconnectCounter + 1 })) = false := by
    rw [loginPostponed_congr hd.cfg hd.now hd.lastLogin]
    exact hpost
  exact (created_seated hpost₁ hfind₁).of_same (idle_onReadyToConnect u _).sameLinks

/-- A disconnection keeps the user tied if he has no backend or is resettled at once. -/
theorem tied_disconnected (hlink : Link none none w) (hm : w.Managed u) (error : String)
    (e : ConnectionError) (h : Tied none w u)
    (hsettle : ∀ c ∈ (w.user u).data, (w.user u).ignoreDisconnect = false →
      User.reconnects (w.user u) e = true → loginPostponed w = false ∧
        (findFree true false (w.modBackend c (Backend.without u w.cfg.usersPerBackend))).isSome)
    (hm' : (User.handleDisconnected u error e w).Managed u) :
    Tied none (User.handleDisconnected u error e w) u := by
  rcases disconnected_outcome hlink hm error e hm' with ⟨-, heq⟩ | ⟨hignore, hrec, hplaced⟩
  · rw [heq]
    exact h
  · cases hdata : (w.user u).data with
    | none =>
      rw [hdata] at hplaced
      rcases hplaced with hqueued | hseated
      · exact tied_local.queued hqueued
      · exact tied_local.seated hseated
    | some c =>
      obtain ⟨hpost, hfind⟩ := hsettle c hdata hignore hrec
      have heq : User.handleDisconnected u error e w =
          User.reconnect u (w.emit (.disconnected u)) := by
        rcases handleDisconnected_cases u error e w with ⟨htrue, -⟩ | ⟨-, -, heq⟩ | ⟨-, hfalse, -⟩
        · rw [hignore] at htrue
          cases htrue
        · exact heq
        · rw [hrec] at hfalse
          cases hfalse
      rw [heq]
      exact tied_local.seated (reconnect_seated (w := w.emit (.disconnected u)) hdata hpost hfind)

theorem tied_finished (hlink : Link none none w) (h : Everyone Tied w) (c : BackendId) :
    Everyone Tied (handleSessionFinished c w) := by
  refine h.finished tied_local hlink c ?_
  intro v _ _ w₁ hdata b hb
  rw [hdata] at hb
  cases hb

theorem tied_sweep (hlink : Link none none w) (h : Everyone Tied w) : Everyone Tied (sweep w) := by
  have hlink₀ : Link none none { w with startingBackend := false } :=
    hlink.of_same (.of_links rfl)
  have h₀ : Everyone Tied { w with startingBackend := false } :=
    h.frame tied_local (.of_fields rfl (fun _ => rfl) (fun _ => rfl) rfl rfl)
  have hlink₁ := hlink₀.checkBackends w.clients
  have h₁ := h₀.frame tied_local (.of_pinged (pinged_checkBackends w.clients _))
  unfold sweep
  generalize checkBackends w.clients { w with startingBackend := false } = r at hlink₁ h₁
  obtain ⟨bs, w₁⟩ := r
  dsimp only at hlink₁ h₁ ⊢
  induction bs generalizing w₁ with
  | nil => exact h₁
  | cons b bs ih => exact ih _ (hlink₁.finished b) (tied_finished hlink₁ h₁ b)

/-- The condition of the step carries over to the state in which the disconnection runs. -/
theorem resettles_payload {b : BackendId} {j : Jid} {error : ConnectionError} {message : String}
    {w₁ : World} (hw₁ : w₁ = UserRegistry.onPasswordInvalid j message (noteData b w))
    (he : Resettles w (.received b (.disconnected j error message))) (hu : w₁.users j = some u) :
    ∀ c ∈ (w₁.user u).data, (w₁.user u).ignoreDisconnect = false →
      User.reconnects (w₁.user u) error = true → loginPostponed w₁ = false ∧
        (findFree true false
          (w₁.modBackend c (Backend.without u w₁.cfg.usersPerBackend))).isSome := by
  have hq := (aside_onPasswordInvalid (noteData b w) j message).quiet
  rw [← hw₁] at hq
  obtain ⟨v, hnote⟩ := noteData_eq b w
  rw [hnote] at hq
  have hcore : (w₁.user u).core = (w.user u).core := hq.user u
  have hcfg : w₁.cfg = w.cfg := hq.cfg
  have husers : w₁.users = w.users := hq.users
  have hpost : loginPostponed w₁ = loginPostponed w :=
    loginPostponed_congr hcfg (congrArg Core.now hq.core) (congrArg Core.lastLogin hq.core)
  have hback : ∀ d, { w₁.backends d with pongReceived := 0 } =
      { w.backends d with pongReceived := 0 } := by
    intro d
    rw [hq.backends]
    by_cases hd : d = b
    · subst hd
      simp [modBackend]
    · simp [modBackend, Function.update_of_ne hd]
  intro c hc hignore hrec
  rw [husers] at hu
  have hdata : (w₁.user u).data = (w.user u).data := (congrArg User.data hcore :)
  have hignore₁ : (w₁.user u).ignoreDisconnect = (w.user u).ignoreDisconnect :=
    (congrArg User.ignoreDisconnect hcore :)
  have hrec₁ : User.reconnects (w₁.user u) error = User.reconnects (w.user u) error :=
    (congrArg (fun y => User.reconnects y error) hcore :)
  rw [hdata] at hc
  rw [hignore₁] at hignore
  rw [hrec₁] at hrec
  obtain ⟨hfree, hfind⟩ := he u hu c hc hignore hrec
  rw [hpost, hcfg]
  refine ⟨hfree, ?_⟩
  have hsame : findFree true false (w₁.modBackend c (Backend.without u w.cfg.usersPerBackend)) =
      findFree true false (w.modBackend c (Backend.without u w.cfg.usersPerBackend)) := by
    refine findFree_congr hq.clients hcfg fun d => ?_
    have hd := hback d
    by_cases hdc : d = c
    · subst hdc
      simp only [Backend.mk.injEq, true_and] at hd
      obtain ⟨hd₁, hd₂, hd₃, hd₄, hd₅, hd₆, hd₇⟩ := hd
      simp [modBackend, Backend.without, hd₁, hd₂, hd₃, hd₄, hd₅, hd₆, hd₇]
    · simpa [modBackend, Function.update_of_ne hdc] using hd
  rw [hsame]
  exact hfind

theorem tied_run (hlink : Link none none w) (h : Everyone Tied w) {e : Event}
    (he : Resettles w e) : Everyone Tied (e.run w) := by
  by_cases hbenign : e.benign = true
  · exact h.run tied_local hlink hbenign
  · cases e with
    | backendLost b => exact tied_finished hlink h b
    | pingTimeout => exact tied_sweep hlink.moveIdleUsers (h.moveIdleUsers tied_local)
    | received b m =>
      cases m with
      | disconnected j error message =>
        have hq := (aside_onPasswordInvalid (noteData b w) j message).quiet
        have hlink₁ := (hlink.noteData b).of_same hq.sameLinks
        have h₁ := (h.noteData tied_local b).quiet tied_local hq
        simp only [Event.run, handleMessage, handleDisconnectedPayload]
        generalize hw₁ : UserRegistry.onPasswordInvalid j message (noteData b w) = w₁
          at hq hlink₁ h₁
        split
        · exact h₁
        · rename_i u hu
          have hm := hlink₁.managed_of_users hu
          refine h₁.others tied_local (others_disconnected hlink₁ hm message error) ?_
          exact tied_disconnected hlink₁ hm message error (h₁ u hm)
            (resettles_payload hw₁.symm he hu)
      | _ => exact absurd rfl hbenign
    | _ => exact absurd rfl hbenign

/-! ## Every run -/

theorem tied_of_run {tr : List (World × Event)} (h : machine.Run tr w)
    (hr : Lib.Machine.Meets Resettles tr) : Link none none w ∧ Everyone Tied w := by
  refine h.invariant_of_steps (I := fun w => Link none none w ∧ Everyone Tied w) ?_ ?_ hr
  · rintro s ⟨cfg, now, storage, rfl⟩
    refine ⟨link_start cfg now storage, ?_⟩
    intro v _ b hb
    cases hb
  · rintro s e s' he hs ⟨hlink, htied⟩
    obtain ⟨-, -, rfl⟩ := step_eq_some hs
    exact ⟨hlink.run e, tied_run hlink htied he⟩

/-- In every run whose reconnects all find a backend at once, users and backends agree about
their association. -/
theorem associated_of_resettles {tr : List (World × Event)} (h : machine.Run tr w)
    (hr : Lib.Machine.Meets Resettles tr) : Associated w := by
  obtain ⟨hlink, htied⟩ := tied_of_run h hr
  refine ⟨?_, ?_⟩
  · intro u b hm hdata
    obtain ⟨hb, -, hmem⟩ := htied u hm b hdata
    refine ⟨hb, List.count_eq_one_of_mem (hlink.users_nodup b hb (by simp)) hmem, ?_⟩
    intro c hc hne hmem'
    have hdata' := hlink.linked c hc (by simp) u hmem'
    rw [hdata] at hdata'
    exact hne (Option.some.inj hdata').symm
  · intro b hb u hmem
    exact ⟨hlink.listed_managed b hb (by simp) u hmem (by simp),
      hlink.linked b hb (by simp) u hmem⟩

/-- A user that is disconnected by his backend and taken back by it. -/
theorem associated_alice :
    ∃ tr w, machine.Run tr w ∧ Lib.Machine.Meets Resettles tr ∧
      ((w.user 0).data = some 0 ∧ (w.user 0).reconnectCounter = 1) ∧ Associated w := by
  have hexec : ∃ w, (machine.restrict Resettles).exec (World.start Sample.cfg 0 none)
      [.presence (Sample.available "alice"), .backendConnected, .received 0 .pong,
        .received 0 (.disconnected (Sample.jid "alice") .networkError "")] = some w ∧
      (w.user 0).data = some 0 ∧ (w.user 0).reconnectCounter = 1 := ⟨_, by rfl, by rfl, by rfl⟩
  obtain ⟨w, hw, hdata⟩ := hexec
  obtain ⟨tr, hrun, hmeets⟩ :=
    Lib.Machine.exists_run_of_restrict (init_start Sample.cfg 0 none) hw
  exact ⟨tr, w, hrun, hmeets, hdata, associated_of_resettles hrun hmeets⟩

/-- With one user per backend, a reconnect leaves the user waiting for a new backend with a
pointer to the old one. -/
theorem not_associated_of_disconnected :
    ¬ ∀ (tr : List (World × Event)) (w : World), machine.Run tr w → Associated w := by
  intro hall
  have hexec : ∃ w, machine.exec
      (World.start { Sample.cfg with usersPerBackend := 1 } 0 none)
      [.presence (Sample.available "alice"), .backendConnected, .received 0 .pong,
        .received 0 (.disconnected (Sample.jid "alice") .networkError "")] = some w ∧
      w.users (w.user 0).jid = some 0 ∧ (w.user 0).data = some 0 ∧ (w.backends 0).users = [] :=
    ⟨_, by rfl, by rfl, by rfl, by rfl⟩
  obtain ⟨w, hw, hm, hdata, husers⟩ := hexec
  obtain ⟨tr, hrun, -⟩ := Lib.Machine.exists_run_of_exec
    (init_start { Sample.cfg with usersPerBackend := 1 } 0 none) hw
  obtain ⟨-, hcount, -⟩ := (hall tr w hrun).1 0 0 hm hdata
  rw [husers] at hcount
  cases hcount

end Tied

end Spectrum
