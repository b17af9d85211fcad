import Mathlib.Data.List.Nodup
import Spectrum.Transport.UserFrame

/-!
# The ping sweep

`pingTimeout` puts backends on a list and then finishes the listed ones. A backend is listed
for an unanswered PING and, independently, for having no users, so it can be on the list
twice; the second `handleSessionFinished` then runs on a freed backend. This is the only way
in which the sweep can go wrong: finishing a backend of `m_clients` disconnects its users and
touches no freed backend (`Dropped`).
-/

namespace Spectrum

open World NetworkPluginServer

/-! ## The calls of `User::handleDisconnected` -/

def Effect.disconnectedUser : Effect → Option UserId
  | .disconnected u => some u
  | _ => none

/-- The users that were disconnected so far, newest first. -/
def World.dropped (w : World) : List UserId := w.log.filterMap Effect.disconnectedUser

section Spec

variable {P : Effect → Prop} {w w' w₁ : World} {u : UserId}

theorem Logs.dropped (h : Logs P w w') (hP : ∀ e, P e → e.disconnectedUser = none) :
    w'.dropped = w.dropped := by
  obtain ⟨l, hl, hall⟩ := h
  have hnil : l.filterMap Effect.disconnectedUser = [] :=
    List.filterMap_eq_nil_iff.mpr fun e he => hP e (hall e he)
  unfold World.dropped
  rw [hl, List.filterMap_append, hnil, List.nil_append]

theorem Effect.Plain.not_disconnected (e : Effect) (h : e.Plain) : e.disconnectedUser = none := by
  cases e <;> first | rfl | cases h

/-! ## What one disconnection does to the backends -/

/-- A disconnection with an automatic reconnect. -/
def resumes (w : World) (u : UserId) : Bool :=
  !(w.user u).ignoreDisconnect && User.reconnects (w.user u) .otherError

/-- The backend `d` has taken the user `u`; it may have been closed as the last place was
given away. -/
def Takes (u : UserId) (d : BackendId) (w w' : World) : Prop :=
  ∃ a, (a = (w.backends d).acceptUsers ∨
      w.cfg.usersPerBackend ≤ ((w.backends d).users.length : Int) + 1) ∧
    w'.backends = Function.update w.backends d
      { w.backends d with users := (w.backends d).users ++ [u], acceptUsers := a }

/-- The result of a search for the user `u`: none, or an effective one that sets the login
time and gives him the first free backend, if there is one. -/
inductive Search (u : UserId) (w w' : World) : Prop
  | skipped (hback : w'.backends = w.backends) (hlast : w'.lastLogin = w.lastLogin)
  | failed (hpost : loginPostponed w = false) (hlast : w'.lastLogin = w.now)
      (hback : w'.backends = w.backends)
  | found (d : BackendId) (hpost : loginPostponed w = false) (hlast : w'.lastLogin = w.now)
      (hfind : findFree true false w = some d) (hback : Takes u d w w')

/-- The backends in `m_clients`, the clock and the configuration are the same, and no freed
object was used. -/
structure Steady (w w' : World) : Prop where
  cfg : w'.cfg = w.cfg
  now : w'.now = w.now
  clients : w'.clients = w.clients
  fault : w'.fault = w.fault

theorem Steady.refl (w : World) : Steady w w := ⟨rfl, rfl, rfl, rfl⟩

theorem Steady.emit {e : Effect} : Steady w (w.emit e) := ⟨rfl, rfl, rfl, rfl⟩

theorem Steady.modUser {f : User → User} : Steady w (w.modUser u f) := ⟨rfl, rfl, rfl, rfl⟩

theorem Steady.trans (h : Steady w w₁) (h' : Steady w₁ w') : Steady w w' :=
  ⟨h'.cfg.trans h.cfg, h'.now.trans h.now, h'.clients.trans h.clients, h'.fault.trans h.fault⟩

theorem Steady.of_quiet (h : Quiet P w w') (hfault : w'.fault = w.fault) : Steady w w' :=
  ⟨h.cfg, congrArg Core.now h.core, h.clients, hfault⟩

theorem closeIfFull_eq (d : BackendId) (w : World) :
    ∃ a, (a = (w.backends d).acceptUsers ∨
        w.cfg.usersPerBackend ≤ ((w.backends d).users.length : Int) + 1) ∧
      closeIfFull false d w = w.modBackend d fun b => { b with acceptUsers := a } := by
  unfold closeIfFull
  split
  · rename_i hfull
    simp only [Bool.and_eq_true, decide_eq_true_eq] at hfull
    exact ⟨false, .inr hfull.2, rfl⟩
  · refine ⟨(w.backends d).acceptUsers, .inl rfl, ?_⟩
    simp [modBackend]

theorem spawn_keeps (longRun : Bool) (w : World) : (spawn longRun w).backends = w.backends ∧
    (spawn longRun w).lastLogin = w.lastLogin ∧ (spawn longRun w).dropped = w.dropped := by
  unfold spawn
  split
  · exact ⟨rfl, rfl, rfl⟩
  · exact ⟨rfl, rfl, rfl⟩

/-- After `handleUserCreated` the handlers of the user are connected as often as before, or
he has a backend of `m_clients`. -/
theorem created_spec (u : UserId) (w : World) :
    Steady w (handleUserCreated u w) ∧ Search u w (handleUserCreated u w) ∧
      (handleUserCreated u w).dropped = w.dropped ∧
      (((handleUserCreated u w).user u).slots = (w.user u).slots ∨
        ∃ d ∈ w.clients, ((handleUserCreated u w).user u).data = some d) := by
  rcases getFreeClient_cases true false false w with
    ⟨-, heq⟩ | ⟨hpost, w₁, hw₁, ⟨d, hfind, heq⟩ | ⟨-, heq⟩⟩
  · have hcreated : handleUserCreated u w =
        { w with loginTimer := true, waitingUsers := w.waitingUsers ++ [u] } := by
      unfold handleUserCreated
      rw [heq]
    rw [hcreated]
    exact ⟨⟨rfl, rfl, rfl, rfl⟩, .skipped rfl rfl, rfl, .inl rfl⟩
  · have hcreated : handleUserCreated u w =
        connectSlots u (attach .created u d (closeIfFull false d w₁)) := by
      unfold handleUserCreated
      rw [heq]
      rfl
    have hmem := (findFree_eq_some hfind).1
    obtain ⟨a, ha, hclose⟩ := closeIfFull_eq d w₁
    rw [hcreated, hclose]
    subst hw₁
    refine ⟨⟨rfl, rfl, rfl, rfl⟩, .found d hpost rfl hfind ⟨a, ha, ?_⟩, rfl, .inr ⟨d, hmem, ?_⟩⟩
    · simp [connectSlots, attach, modBackend, modUser, setData, emit]
    · simp [connectSlots, attach, modBackend, modUser, setData, emit]
  · have hcreated : handleUserCreated u w =
        { spawn false w₁ with waitingUsers := (spawn false w₁).waitingUsers ++ [u] } := by
      unfold handleUserCreated
      rw [heq]
    have hs := searched_spawn false w₁
    obtain ⟨hback, hlast, hdropped⟩ := spawn_keeps false w₁
    rw [hcreated]
    subst hw₁
    exact ⟨⟨hs.cfg, hs.now, hs.clients, hs.fault⟩, .failed hpost hlast hback, hdropped,
      .inl (congrArg (fun f => (f u).slots) hs.user)⟩

/-- The login of a user whose backend is in `m_clients` touches no freed backend. -/
theorem steady_handleUserReadyToConnect (u : UserId) {d : BackendId} (hd : d ∈ w.clients)
    (hdata : (w.user u).data = some d) : Steady w (handleUserReadyToConnect u w) ∧
      ((handleUserReadyToConnect u w).user u).data = some d := by
  have hsend : ∀ (m : ToBackend) (w : World), d ∈ w.clients → (w.user u).data = some d →
      sendToBackendOf u m w = w.emit (.send d m) := by
    intro m w hd hdata
    unfold sendToBackendOf send
    rw [hdata]
    simp [hd]
  simp only [handleUserReadyToConnect]
  rw [hsend _ w hd hdata]
  split
  · rw [hsend _ (w.emit _) hd hdata]
    exact ⟨⟨rfl, rfl, rfl, rfl⟩, hdata⟩
  · exact ⟨⟨rfl, rfl, rfl, rfl⟩, hdata⟩

theorem steady_onReadyToConnect (u : UserId)
    (h : (w.user u).slots = 0 ∨ ∃ d ∈ w.clients, (w.user u).data = some d) :
    Steady w (User.onReadyToConnect u w) := by
  unfold User.onReadyToConnect
  rcases h with hslots | ⟨d, hd, hdata⟩
  · rw [hslots]
    exact .refl w
  · generalize (w.user u).slots = n
    induction n generalizing w with
    | zero => exact .refl w
    | succ n ih =>
      obtain ⟨hsteady, hdata'⟩ := steady_handleUserReadyToConnect u hd hdata
      refine hsteady.trans (ih ?_ hdata')
      rw [hsteady.clients]
      exact hd

/-! ## Disconnecting a user of a finished backend -/

/-- The disconnection of a user of a finished backend. -/
structure Dropped (u : UserId) (w w' : World) : Prop where
  steady : Steady w w'
  dropped : w'.dropped = u :: w.dropped
  search : Search u w w'
  resumes : w'.backends ≠ w.backends ∨ w'.lastLogin ≠ w.lastLogin → resumes w u = true

theorem destroyed_of_none (hdata : (w.user u).data = none) : handleUserDestroyed u w =
    modUser u (fun x => { x with slots := 0 })
      { w with waitingUsers := w.waitingUsers.filter fun v => v ≠ u } := by
  have hdata' : ((modUser u (fun x => { x with slots := 0 })
      { w with waitingUsers := w.waitingUsers.filter fun v => v ≠ u }).user u).data = none := by
    simpa [modUser] using hdata
  simp only [handleUserDestroyed]
  rw [hdata']

theorem finishSession_fault (j : Jid) (w : World) : (finishSession j w).fault = w.fault := by
  have hfold : ∀ (ss : List SessionId) (w : World),
      (ss.foldl (fun w s => finish s w) w).fault = w.fault := by
    intro ss
    induction ss with
    | nil => exact fun _ => rfl
    | cons s ss ih => exact fun w => ih (finish s w)
  exact hfold _ _

/-- A step that disconnects nobody and leaves the backends alone. -/
structure Neutral (w w' : World) : Prop where
  steady : Steady w w'
  backends : w'.backends = w.backends
  lastLogin : w'.lastLogin = w.lastLogin
  dropped : w'.dropped = w.dropped

theorem Neutral.trans (h : Neutral w w₁) (h' : Neutral w₁ w') : Neutral w w' :=
  ⟨h.steady.trans h'.steady, h'.backends.trans h.backends, h'.lastLogin.trans h.lastLogin,
    h'.dropped.trans h.dropped⟩

theorem Neutral.of_idle (h : Idle w w') (hfault : w'.fault = w.fault) : Neutral w w' :=
  ⟨.of_quiet h.quiet hfault, h.quiet.backends, congrArg Core.lastLogin h.core,
    h.log.dropped Effect.Plain.not_disconnected⟩

theorem neutral_destroyed (hdata : (w.user u).data = none) :
    Neutral w (handleUserDestroyed u w) := by
  rw [destroyed_of_none hdata]
  exact ⟨⟨rfl, rfl, rfl, rfl⟩, rfl, rfl, rfl⟩

theorem neutral_deleteUser (u : UserId) (w : World) : Neutral w (UserManager.deleteUser u w) := by
  refine .of_idle (idle_deleteUser w u) ?_
  simp only [UserManager.deleteUser]
  split
  · exact finishSession_fault _ w
  · rfl

theorem neutral_disconnectUser {j : Jid} (hnone : w.users j.toBare = none) :
    Neutral w (UserManager.disconnectUser j w) := by
  refine .of_idle (idle_disconnectUser_of_none w hnone) ?_
  unfold UserManager.disconnectUser
  rw [presenceReceived_of_none w rfl hnone]

theorem neutral_removeUser (hdata : (w.user u).data = none) :
    Neutral w (UserManager.removeUser u w) := by
  have herase : Neutral w { w with users := Function.update w.users (w.user u).jid.toBare none } :=
    ⟨⟨rfl, rfl, rfl, rfl⟩, rfl, rfl, rfl⟩
  have hnone :
      ({ w with users := Function.update w.users (w.user u).jid.toBare none } : World).users
        (w.user u).jid.toBare = none := Function.update_self _ _ _
  have hrest : ∀ w₁ w₂ : World, Neutral w w₁ → Neutral w₁ w₂ → (w₂.user u).data = none →
      Neutral w (UserManager.deleteUser u (handleUserDestroyed u w₂)) :=
    fun _ _ h₁ h₂ hdata₂ =>
      (h₁.trans h₂).trans ((neutral_destroyed hdata₂).trans (neutral_deleteUser u _))
  simp only [UserManager.removeUser]
  split
  · refine hrest _ _ herase (neutral_disconnectUser hnone) ?_
    rw [(idle_disconnectUser_of_none _ hnone).quiet.data]
    exact hdata
  · exact hrest _ _ herase (.of_idle (idle_oracle _ _) rfl) hdata

theorem neutral_giveUp (error : String) (hdata : (w.user u).data = none) :
    Neutral w (User.giveUp u error w) := by
  have hreport : Neutral w (User.reportError u error w) := by
    refine .of_idle (idle_reportError u error w) ?_
    simp only [User.reportError]
    split
    · exact finishSession_fault _ _
    · rfl
  simp only [User.giveUp]
  split
  · exact hreport
  · refine hreport.trans (neutral_removeUser ?_)
    rw [(idle_reportError u error w).quiet.data]
    exact hdata

theorem Search.congr {w₂ : World} (hsteady : Steady w w₁) (hback : w₁.backends = w.backends)
    (hlast : w₁.lastLogin = w.lastLogin) (h : Search u w₁ w') (hback' : w₂.backends = w'.backends)
    (hlast' : w₂.lastLogin = w'.lastLogin) : Search u w w₂ := by
  have hpost := loginPostponed_congr hsteady.cfg hsteady.now hlast
  have hfind : findFree true false w₁ = findFree true false w :=
    findFree_congr hsteady.clients hsteady.cfg fun b => by rw [hback]
  cases h with
  | skipped hb hl => exact .skipped ((hback'.trans hb).trans hback) ((hlast'.trans hl).trans hlast)
  | failed hp hl hb =>
    rw [hpost] at hp
    exact .failed hp ((hlast'.trans hl).trans hsteady.now) ((hback'.trans hb).trans hback)
  | found d hp hl hf hb =>
    rw [hpost] at hp
    rw [hfind] at hf
    refine .found d hp ((hlast'.trans hl).trans hsteady.now) hf ?_
    obtain ⟨a, ha, heq⟩ := hb
    rw [hback, hsteady.cfg] at ha
    rw [hback] at heq
    exact ⟨a, ha, hback'.trans heq⟩

/-- A disconnection without a reconnect. -/
theorem Dropped.of_neutral (h : Neutral (w.emit (.disconnected u)) w') : Dropped u w w' where
  steady := Steady.emit.trans h.steady
  dropped := h.dropped
  search := .skipped h.backends h.lastLogin
  resumes := by
    rintro (hne | hne)
    · exact absurd h.backends hne
    · exact absurd h.lastLogin hne

theorem dropped_reconnect (hdata : (w.user u).data = none) (hresumes : resumes w u = true) :
    Dropped u w (User.reconnect u (w.emit (.disconnected u))) := by
  have hcount : Neutral (w.emit (.disconnected u)) ((w.emit (.disconnected u)).modUser u fun y =>
      { y with reconnectCounter := y.reconnectCounter + 1 }) := ⟨.modUser, rfl, rfl, rfl⟩
  have hdata₁ : (((w.emit (.disconnected u)).modUser u fun y =>
      { y with reconnectCounter := y.reconnectCounter + 1 }).user u).data = none := by
    rw [sameLinks_count.data]
    exact hdata
  simp only [User.reconnect]
  generalize ((w.emit (.disconnected u)).modUser u fun y =>
    { y with reconnectCounter := y.reconnectCounter + 1 }) = w₁ at hcount hdata₁
  have hdestroyed := hcount.trans (neutral_destroyed hdata₁)
  have hslots : ((handleUserDestroyed u w₁).user u).slots = 0 := by
    rw [destroyed_of_none hdata₁]
    simp [modUser]
  obtain ⟨hsteady, hsearch, hdropped, hready⟩ := created_spec u (handleUserDestroyed u w₁)
  have hlogin := steady_onReadyToConnect (w := handleUserCreated u (handleUserDestroyed u w₁)) u (by
    rcases hready with hsame | ⟨d, hd, hdata'⟩
    · exact .inl (hsame.trans hslots)
    · exact .inr ⟨d, by rw [hsteady.clients]; exact hd, hdata'⟩)
  have hq := idle_onReadyToConnect u (handleUserCreated u (handleUserDestroyed u w₁))
  refine ⟨(Steady.emit.trans hdestroyed.steady).trans (hsteady.trans hlogin), ?_, ?_,
    fun _ => hresumes⟩
  · rw [hq.log.dropped Effect.Plain.not_disconnected, hdropped, hdestroyed.dropped]
    rfl
  · exact hsearch.congr (Steady.emit.trans hdestroyed.steady) hdestroyed.backends
      hdestroyed.lastLogin hq.quiet.backends (congrArg Core.lastLogin hq.core)

/-- One round of the loop of `handleSessionFinished`. -/
theorem dropped_dropUser (w : World) (u : UserId) : Dropped u w (dropUser w u) := by
  have hdata : ((w.setData u none).user u).data = none := by simp [setData, modUser]
  have hdrop : Dropped u (w.setData u none) (dropUser w u) := by
    rcases handleDisconnected_cases u "Internal Server Error, please reconnect." .otherError
      (w.setData u none) with ⟨-, heq⟩ | ⟨hignore, hrec, heq⟩ | ⟨-, -, heq⟩
    · unfold dropUser
      rw [heq]
      exact .of_neutral ⟨.refl _, rfl, rfl, rfl⟩
    · unfold dropUser
      rw [heq]
      refine dropped_reconnect hdata ?_
      unfold resumes
      rw [hignore, hrec]
      rfl
    · unfold dropUser
      rw [heq]
      exact .of_neutral (neutral_giveUp _ hdata)
  have hresumes : resumes (w.setData u none) u = resumes w u := by
    simp [resumes, setData, modUser, User.reconnects]
  have hset : Steady w (w.setData u none) := Steady.modUser
  refine ⟨hset.trans hdrop.steady, hdrop.dropped, hdrop.search.congr hset rfl rfl rfl rfl, ?_⟩
  intro hne
  rw [← hresumes]
  exact hdrop.resumes hne

/-! ## Finishing backends -/

theorem dropUsers_spec (us : List UserId) (w : World) : Steady w (us.foldl dropUser w) ∧
    (us.foldl dropUser w).dropped = us.reverse ++ w.dropped := by
  induction us generalizing w with
  | nil => exact ⟨.refl w, rfl⟩
  | cons u us ih =>
    have hdrop := dropped_dropUser w u
    obtain ⟨hsteady, hdropped⟩ := ih (dropUser w u)
    refine ⟨hdrop.steady.trans hsteady, ?_⟩
    rw [List.foldl_cons, hdropped, hdrop.dropped]
    simp

/-- Finishing a backend of `m_clients` is safe: it disconnects the users of the backend and
removes it. -/
theorem finished_spec {c : BackendId} (hc : c ∈ w.clients) :
    (handleSessionFinished c w).fault = w.fault ∧
      (handleSessionFinished c w).clients = w.clients.filter (fun b => b ≠ c) ∧
      (handleSessionFinished c w).dropped = (w.backends c).users.reverse ++ w.dropped := by
  unfold handleSessionFinished
  rw [if_neg (not_not.mpr hc)]
  dsimp only
  have husers : (((w.emit (.sessionFinished c)).modBackend c fun b =>
      { b with willDie := true }).backends c).users = (w.backends c).users :=
    markDying_users (w := w) c c
  rw [husers]
  have hmark : ∀ w₁ : World, w₁.fault = w.fault → w₁.clients = w.clients →
      w₁.dropped = w.dropped →
      (send c .exit ((w.backends c).users.foldl dropUser w₁)).fault = w.fault ∧
      (send c .exit ((w.backends c).users.foldl dropUser w₁)).clients = w.clients ∧
      (send c .exit ((w.backends c).users.foldl dropUser w₁)).dropped =
        (w.backends c).users.reverse ++ w.dropped := by
    intro w₁ hfault hclients hdropped
    obtain ⟨hsteady, hlog⟩ := dropUsers_spec (w.backends c).users w₁
    have hmem : c ∈ ((w.backends c).users.foldl dropUser w₁).clients := by
      rw [hsteady.clients, hclients]
      exact hc
    unfold send
    rw [if_pos hmem]
    rw [← hdropped]
    exact ⟨hsteady.fault.trans hfault, hsteady.clients.trans hclients, hlog⟩
  split
  · obtain ⟨hfault, hclients, hdropped⟩ := hmark (markDying c w) rfl rfl rfl
    exact ⟨hfault, congrArg _ hclients, hdropped⟩
  · obtain ⟨hfault, hclients, hdropped⟩ := hmark
      { markDying c w with
        crashedBackends := w.crashedBackends ++ [((markDying c w).backends c).id] } rfl rfl rfl
    exact ⟨hfault, congrArg _ hclients, hdropped⟩

theorem finishAll_fault {bs : List BackendId} (hnodup : bs.Nodup) (hmem : ∀ b ∈ bs, b ∈ w.clients) :
    (bs.foldl (fun w b => handleSessionFinished b w) w).fault = w.fault := by
  induction bs generalizing w with
  | nil => rfl
  | cons c bs ih =>
    obtain ⟨hnot, hrest⟩ := List.nodup_cons.mp hnodup
    obtain ⟨hfault, hclients, -⟩ := finished_spec (hmem c List.mem_cons_self)
    rw [List.foldl_cons, ih hrest]
    · exact hfault
    · intro b hb
      have hne : b ≠ c := by
        rintro rfl
        exact hnot hb
      rw [hclients]
      simpa using ⟨hmem b (List.mem_cons_of_mem c hb), hne⟩

/-! ## The removal list -/

/-- The arguments of the calls of `handleSessionFinished` in a sweep, in order. -/
def toRemove (w : World) : List BackendId :=
  (checkBackends w.clients { w with startingBackend := false }).1

theorem sweep_eq (w : World) : sweep w = (toRemove w).foldl (fun w b => handleSessionFinished b w)
    (checkBackends w.clients { w with startingBackend := false }).2 := rfl

theorem toRemove_eq (hnodup : w.clients.Nodup) : toRemove w = w.clients.flatMap (expired w) :=
  checkBackends_fst hnodup _

theorem mem_expired {b c : BackendId} (h : c ∈ expired w b) : c = b := by
  unfold expired at h
  rcases List.mem_append.mp h with h | h
  · split at h
    · exact List.mem_singleton.mp h
    · cases h
  · split at h
    · exact List.mem_singleton.mp h
    · cases h

theorem expired_nodup {b : BackendId} :
    (expired w b).Nodup ↔ ((w.backends b).pongReceived = 0 → (w.backends b).users ≠ []) := by
  unfold expired
  by_cases hlate : (w.backends b).pongReceived = 0 <;>
    by_cases hidle : (w.backends b).users = [] <;> simp [hlate, hidle]

theorem toRemove_nodup (hnodup : w.clients.Nodup) : (toRemove w).Nodup ↔
    ∀ b ∈ w.clients, (w.backends b).pongReceived = 0 → (w.backends b).users ≠ [] := by
  rw [toRemove_eq hnodup, List.nodup_flatMap]
  constructor
  · rintro ⟨hall, -⟩ b hb
    exact expired_nodup.mp (hall b hb)
  · intro hall
    refine ⟨fun b hb => expired_nodup.mpr (hall b hb), ?_⟩
    refine hnodup.imp ?_
    intro b c hne x hx hx'
    exact hne ((mem_expired hx).symm.trans (mem_expired hx'))

theorem mem_toRemove (hnodup : w.clients.Nodup) {b : BackendId} (hb : b ∈ toRemove w) :
    b ∈ w.clients := by
  rw [toRemove_eq hnodup] at hb
  obtain ⟨c, hc, hbc⟩ := List.mem_flatMap.mp hb
  rw [mem_expired hbc]
  exact hc

/-- The calls of one `pingTimeout` are for different backends, and unless the moves of idle
users did, it uses no freed backend. -/
structure SweepSafe (w : World) : Prop where
  once : (toRemove (moveIdleUsers w)).Nodup
  sound : (moveIdleUsers w).fault = false → (NetworkPluginServer.pingTimeout w).fault = false

theorem checkBackends_fault {bs : List BackendId} (hmem : ∀ b ∈ bs, b ∈ w.clients) :
    (checkBackends bs w).2.fault = w.fault := by
  induction bs generalizing w with
  | nil => rfl
  | cons b bs ih =>
    have hfault : (sendPing b w).fault = w.fault := by
      unfold sendPing send
      rw [if_pos (hmem b List.mem_cons_self)]
      split
      · rfl
      · rfl
    simp only [checkBackends]
    split
    · exact ih fun c hc => hmem c (List.mem_cons_of_mem b hc)
    · rw [ih, hfault]
      intro c hc
      rw [(pinged_sendPing b w).clients]
      exact hmem c (List.mem_cons_of_mem b hc)

theorem clients_moveIdleUsers_nodup (hnodup : w.clients.Nodup) :
    (moveIdleUsers w).clients.Nodup :=
  hnodup.sublist (flow_moveIdleUsers (X := fun _ => False) w).clients

/-- For every set of backends in any state, a ping timeout finishes each backend at most once
and uses no freed one, exactly if no backend with an unanswered PING is without users when
the PING responses are checked. -/
theorem sweepSafe_iff (hnodup : w.clients.Nodup) : SweepSafe w ↔
    ∀ b ∈ (moveIdleUsers w).clients, ((moveIdleUsers w).backends b).pongReceived = 0 →
      ((moveIdleUsers w).backends b).users ≠ [] := by
  have hnodup' := clients_moveIdleUsers_nodup hnodup
  constructor
  · intro h
    exact (toRemove_nodup hnodup').mp h.once
  · intro hall
    have honce := (toRemove_nodup hnodup').mpr hall
    refine ⟨honce, fun hfault => ?_⟩
    have hping := pinged_checkBackends (moveIdleUsers w).clients
      { moveIdleUsers w with startingBackend := false }
    unfold NetworkPluginServer.pingTimeout
    rw [sweep_eq, finishAll_fault honce]
    · rw [checkBackends_fault]
      · exact hfault
      · exact fun b hb => hb
    · intro b hb
      rw [hping.clients]
      exact mem_toRemove hnodup' hb

end Spec

/-- A run in which a sweep finds an answering backend with its user. -/
theorem sweepSafe_alice :
    ∃ tr w, machine.Run tr w ∧ (w.clients.Nodup ∧ w.clients = [0]) ∧ SweepSafe w := by
  have hexec : ∃ w, machine.exec (World.start Sample.cfg 0 none)
      [.presence (Sample.available "alice"), .backendConnected, .received 0 .pong] = some w ∧
      w.clients = [0] ∧ (∀ b ∈ (moveIdleUsers w).clients,
        ((moveIdleUsers w).backends b).pongReceived = 0 →
          ((moveIdleUsers w).backends b).users ≠ []) := ⟨_, by rfl, by rfl, by decide⟩
  obtain ⟨w, hw, hclients, hall⟩ := hexec
  obtain ⟨tr, hrun, -⟩ := Lib.Machine.exists_run_of_exec (init_start Sample.cfg 0 none) hw
  have hnodup : w.clients.Nodup := by
    rw [hclients]
    decide
  exact ⟨tr, w, hrun, ⟨hnodup, hclients⟩, (sweepSafe_iff hnodup).mpr hall⟩

namespace Sample

/-- The last user leaves a backend after it was pinged. -/
def leavingEvents : List Event :=
  [.presence (available "alice"), .backendConnected, .received 0 .pong, .pingTimeout,
    .presence { available "alice" with type := .unavailable }, .removeTick]

end Sample

/-- A backend that has not answered and has lost its last user is finished twice. -/
theorem not_sweepSafe_of_empty :
    ¬ ∀ (tr : List (World × Event)) (w : World), machine.Run tr w → SweepSafe w := by
  intro hall
  have hexec : ∃ w, machine.exec (World.start Sample.cfg 0 none) Sample.leavingEvents = some w ∧
      w.clients = [0] ∧ (moveIdleUsers w).clients = [0] ∧
      ((moveIdleUsers w).backends 0).pongReceived = 0 ∧
      ((moveIdleUsers w).backends 0).users = [] := ⟨_, by rfl, by rfl, by rfl, by rfl, by rfl⟩
  obtain ⟨w, hw, hclients, hclients', hpong, husers⟩ := hexec
  obtain ⟨tr, hrun, -⟩ := Lib.Machine.exists_run_of_exec (init_start Sample.cfg 0 none) hw
  have hnodup : w.clients.Nodup := by
    rw [hclients]
    decide
  refine (toRemove_nodup (clients_moveIdleUsers_nodup hnodup)).mp (hall tr w hrun).once 0 ?_ hpong
    husers
  rw [hclients']
  exact List.mem_singleton_self 0

end Spectrum
