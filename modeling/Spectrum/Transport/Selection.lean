import Spectrum.Transport.Frontend

/-!
# Searching and assigning

What the search for a free backend can do to the state (`Searched`), and what follows for
the functions that assign a user: `handleUserCreated`, the loop of `connectWaitingUsers` and
`moveToLongRunBackend`. Later proofs use these case lemmas and do not unfold the functions.
-/

namespace Spectrum

open World NetworkPluginServer

/-! ## The search -/

/-- The effects of a search: a backend process is started. -/
def Effect.Spawns : Effect → Prop
  | .exec _ => True
  | _ => False

/-- A search changes the flags of the search and `acceptUsers`, and nothing else. -/
structure Searched (w w' : World) : Prop where
  rest : { w' with
    isNextLongRun := w.isNextLongRun, startingBackend := w.startingBackend,
    lastLogin := w.lastLogin, loginTimer := w.loginTimer, backends := w.backends,
    log := w.log } = w
  backends : ∀ b, ∃ a, w'.backends b = { w.backends b with acceptUsers := a }
  log : Logs Effect.Spawns w w'
  starting : w.startingBackend = true → w'.startingBackend = true
  timer : w.loginTimer = true → w'.loginTimer = true

namespace Searched

variable {w w' : World}

theorem refl (w : World) : Searched w w :=
  ⟨rfl, fun b => ⟨(w.backends b).acceptUsers, rfl⟩, .of_eq rfl, id, id⟩

theorem clients (h : Searched w w') : w'.clients = w.clients := (congrArg World.clients h.rest :)

theorem cfg (h : Searched w w') : w'.cfg = w.cfg := (congrArg World.cfg h.rest :)

theorem now (h : Searched w w') : w'.now = w.now := (congrArg World.now h.rest :)

theorem nextBackend (h : Searched w w') : w'.nextBackend = w.nextBackend :=
  (congrArg World.nextBackend h.rest :)

theorem waitingUsers (h : Searched w w') : w'.waitingUsers = w.waitingUsers :=
  (congrArg World.waitingUsers h.rest :)

theorem users (h : Searched w w') : w'.users = w.users := (congrArg World.users h.rest :)

theorem user (h : Searched w w') : w'.user = w.user := (congrArg World.user h.rest :)

theorem nextUser (h : Searched w w') : w'.nextUser = w.nextUser :=
  (congrArg World.nextUser h.rest :)

theorem fault (h : Searched w w') : w'.fault = w.fault := (congrArg World.fault h.rest :)

theorem usersOf (h : Searched w w') (b : BackendId) :
    (w'.backends b).users = (w.backends b).users := by
  obtain ⟨a, ha⟩ := h.backends b
  rw [ha]

theorem willDie (h : Searched w w') (b : BackendId) :
    (w'.backends b).willDie = (w.backends b).willDie := by
  obtain ⟨a, ha⟩ := h.backends b
  rw [ha]

theorem longRun (h : Searched w w') (b : BackendId) :
    (w'.backends b).longRun = (w.backends b).longRun := by
  obtain ⟨a, ha⟩ := h.backends b
  rw [ha]

theorem pongReceived (h : Searched w w') (b : BackendId) :
    (w'.backends b).pongReceived = (w.backends b).pongReceived := by
  obtain ⟨a, ha⟩ := h.backends b
  rw [ha]

end Searched

theorem isFree_iff {acceptUsers longRun : Bool} {w : World} {b : BackendId} :
    isFree acceptUsers longRun w b = true ↔
      (w.backends b).willDie = false ∧ (w.backends b).acceptUsers = acceptUsers ∧
        ((w.backends b).users.length : Int) < w.cfg.usersPerBackend ∧
        (w.backends b).connection = true ∧ (w.backends b).longRun = longRun := by
  simp [isFree, and_assoc]

theorem findFree_eq_some {acceptUsers longRun : Bool} {w : World} {c : BackendId}
    (h : findFree acceptUsers longRun w = some c) :
    c ∈ w.clients ∧ isFree acceptUsers longRun w c = true :=
  ⟨List.mem_of_find?_eq_some h, List.find?_some h⟩

section Congr

variable {acceptUsers longRun : Bool} {w w' : World}

theorem loginPostponed_congr (hcfg : w'.cfg = w.cfg) (hnow : w'.now = w.now)
    (hlast : w'.lastLogin = w.lastLogin) : loginPostponed w' = loginPostponed w := by
  unfold loginPostponed
  rw [hcfg, hnow, hlast]

/-- The search looks at everything of a backend but its PONGs. -/
theorem isFree_congr {b : BackendId} (hcfg : w'.cfg = w.cfg)
    (hback : { w'.backends b with pongReceived := 0 } =
      { w.backends b with pongReceived := 0 }) :
    isFree acceptUsers longRun w' b = isFree acceptUsers longRun w b := by
  simp only [Backend.mk.injEq, true_and] at hback
  obtain ⟨husers, hconn, -, haccept, hlong, hdie, -⟩ := hback
  simp only [isFree]
  rw [husers, hconn, haccept, hlong, hdie, hcfg]

theorem findFree_congr (hclients : w'.clients = w.clients) (hcfg : w'.cfg = w.cfg)
    (hback : ∀ b, { w'.backends b with pongReceived := 0 } =
      { w.backends b with pongReceived := 0 }) :
    findFree acceptUsers longRun w' = findFree acceptUsers longRun w := by
  have hfree : isFree acceptUsers longRun w' = isFree acceptUsers longRun w := by
    funext b
    exact isFree_congr hcfg (hback b)
  unfold findFree
  rw [hfree, hclients]

end Congr

theorem searched_closeIfFull (check : Bool) (c : BackendId) (w : World) :
    Searched w (closeIfFull check c w) := by
  unfold closeIfFull
  split
  · refine ⟨rfl, ?_, .of_eq rfl, id, id⟩
    intro b
    by_cases hb : b = c
    · subst hb
      exact ⟨false, by simp [modBackend]⟩
    · exact ⟨(w.backends b).acceptUsers, by simp [modBackend, Function.update_of_ne hb]⟩
  · exact .refl w

theorem searched_spawn (longRun : Bool) (w : World) : Searched w (spawn longRun w) := by
  unfold spawn
  split
  · exact .refl w
  · exact ⟨rfl, fun b => ⟨(w.backends b).acceptUsers, rfl⟩, .emit trivial, fun _ => rfl, id⟩

/-- The three results of a search: postponed, found, or spawning. -/
theorem getFreeClient_cases (acceptUsers longRun check : Bool) (w : World) :
    (loginPostponed w = true ∧
      getFreeClient acceptUsers longRun check w = (none, { w with loginTimer := true })) ∨
    (loginPostponed w = false ∧ ∃ w₁, w₁ = (if check then w else { w with lastLogin := w.now }) ∧
      ((∃ c, findFree acceptUsers longRun w = some c ∧
          getFreeClient acceptUsers longRun check w = (some c, closeIfFull check c w₁)) ∨
        (findFree acceptUsers longRun w = none ∧
          getFreeClient acceptUsers longRun check w = (none, spawn longRun w₁)))) := by
  unfold getFreeClient
  cases hpost : loginPostponed w with
  | true => exact .inl ⟨rfl, rfl⟩
  | false =>
    refine .inr ⟨rfl, _, rfl, ?_⟩
    -- the search does not look at the time of the last login
    have hsame : findFree acceptUsers longRun (if check then w else { w with lastLogin := w.now }) =
        findFree acceptUsers longRun w := by
      cases check <;> rfl
    simp only [Bool.false_eq_true, ↓reduceIte]
    rw [hsame]
    cases hfind : findFree acceptUsers longRun w with
    | none => exact .inr ⟨rfl, rfl⟩
    | some c => exact .inl ⟨c, rfl, rfl⟩

theorem searched_lastLogin (w w' : World) (h : Searched { w with lastLogin := w.now } w') :
    Searched w w' where
  rest := by
    have hrest := congrArg (fun w₁ : World => { w₁ with lastLogin := w.lastLogin }) h.rest
    exact hrest
  backends := h.backends
  log := h.log
  starting := h.starting
  timer := h.timer

theorem searched_getFreeClient (acceptUsers longRun check : Bool) (w : World) :
    Searched w (getFreeClient acceptUsers longRun check w).2 := by
  have hstart : ∀ w', Searched (if check then w else { w with lastLogin := w.now }) w' →
      Searched w w' := by
    cases check with
    | true => exact fun _ h => h
    | false => exact fun w' h => searched_lastLogin w w' h
  rcases getFreeClient_cases acceptUsers longRun check w with
    ⟨-, heq⟩ | ⟨-, w₁, rfl, ⟨c, -, heq⟩ | ⟨-, heq⟩⟩
  · rw [heq]
    exact ⟨rfl, fun b => ⟨(w.backends b).acceptUsers, rfl⟩, .of_eq rfl, id, fun _ => rfl⟩
  · rw [heq]
    exact hstart _ (searched_closeIfFull check c _)
  · rw [heq]
    exact hstart _ (searched_spawn longRun _)

theorem getFreeClient_eq_some (acceptUsers longRun check : Bool) (w : World) (c : BackendId)
    (h : (getFreeClient acceptUsers longRun check w).1 = some c) :
    loginPostponed w = false ∧ findFree acceptUsers longRun w = some c := by
  rcases getFreeClient_cases acceptUsers longRun check w with
    ⟨-, heq⟩ | ⟨hpost, w₁, -, ⟨d, hfind, heq⟩ | ⟨-, heq⟩⟩
  · rw [heq] at h
    cases h
  · rw [heq] at h
    cases h
    exact ⟨hpost, hfind⟩
  · rw [heq] at h
    cases h

/-- A search without a result leaves a wake-up behind: the login timer or a spawned backend. -/
theorem getFreeClient_eq_none (acceptUsers longRun check : Bool) (w : World)
    (h : (getFreeClient acceptUsers longRun check w).1 = none) :
    (getFreeClient acceptUsers longRun check w).2.startingBackend = true ∨
      (getFreeClient acceptUsers longRun check w).2.loginTimer = true := by
  rcases getFreeClient_cases acceptUsers longRun check w with
    ⟨-, heq⟩ | ⟨-, w₁, -, ⟨c, -, heq⟩ | ⟨-, heq⟩⟩
  · rw [heq]
    exact .inr rfl
  · rw [heq] at h
    cases h
  · rw [heq]
    left
    simp only [spawn]
    split
    · assumption
    · rfl

theorem getFreeClient_isSome {acceptUsers longRun : Bool} (check : Bool) {w : World}
    {c : BackendId} (hpost : loginPostponed w = false)
    (hfind : findFree acceptUsers longRun w = some c) :
    (getFreeClient acceptUsers longRun check w).1 = some c := by
  rcases getFreeClient_cases acceptUsers longRun check w with
    ⟨hpost', -⟩ | ⟨-, w₁, -, ⟨d, hfind', heq⟩ | ⟨hfind', -⟩⟩
  · rw [hpost] at hpost'
    cases hpost'
  · rw [hfind] at hfind'
    cases hfind'
    rw [heq]
  · rw [hfind] at hfind'
    cases hfind'

/-! ## Assigning a user -/

/-- Connect the handlers of a user once more. -/
def connectSlots (u : UserId) (w : World) : World :=
  w.modUser u fun x => { x with slots := x.slots + 1 }

/-- A created user waits, with a wake-up outstanding, or is attached to a free backend. -/
theorem handleUserCreated_cases (u : UserId) (w : World) :
    ∃ w₁, Searched w w₁ ∧
      ((w₁.startingBackend = true ∨ w₁.loginTimer = true) ∧
          handleUserCreated u w = { w₁ with waitingUsers := w₁.waitingUsers ++ [u] } ∨
        ∃ c ∈ w.clients, isFree true false w c = true ∧
          handleUserCreated u w = connectSlots u (attach .created u c w₁)) := by
  have hsearch := searched_getFreeClient true false false w
  have hnone := getFreeClient_eq_none true false false w
  have hsome := getFreeClient_eq_some true false false w
  unfold handleUserCreated
  generalize getFreeClient true false false w = r at hsearch hnone hsome
  obtain ⟨found, w₁⟩ := r
  refine ⟨w₁, hsearch, ?_⟩
  cases found with
  | none => exact .inl ⟨hnone rfl, rfl⟩
  | some c =>
    obtain ⟨hmem, hfree⟩ := findFree_eq_some (hsome c rfl).2
    exact .inr ⟨c, hmem, hfree, rfl⟩

/-- With a free backend and no login delay, a created user is attached. -/
theorem handleUserCreated_of_free {u : UserId} {w : World} {c : BackendId}
    (hpost : loginPostponed w = false) (hfind : findFree true false w = some c) :
    ∃ w₁, Searched w w₁ ∧ handleUserCreated u w = connectSlots u (attach .created u c w₁) := by
  have hsearch := searched_getFreeClient true false false w
  have hsome := getFreeClient_isSome false hpost hfind
  unfold handleUserCreated
  generalize getFreeClient true false false w = r at hsearch hsome
  obtain ⟨found, w₁⟩ := r
  cases hsome
  exact ⟨w₁, hsearch, rfl⟩

/-- A move leaves the state to the search, fails on a freed backend, or takes the user from
his backend to a free long-running one. -/
theorem moveToLongRunBackend_cases (u : UserId) (w : World) :
    (moveToLongRunBackend u w = (true, w)) ∨
    (∃ w₁, Searched w w₁ ∧ moveToLongRunBackend u w = (false, w₁)) ∨
    (moveToLongRunBackend u w = (true, { w with fault := true })) ∨
    (∃ w₁ old c, Searched w w₁ ∧ (w.user u).data = some old ∧ old ∈ w.clients ∧
      (w.backends old).longRun = false ∧ c ∈ w.clients ∧ isFree false true w c = true ∧
      moveToLongRunBackend u w =
        (true, handleUserReadyToConnect u (attach .moved u c (removeFrom u old
          (w₁.modUser u fun x => { x with ignoreDisconnect := true }))))) := by
  have hsearch := searched_getFreeClient false true false w
  have hsome := getFreeClient_eq_some false true false w
  unfold moveToLongRunBackend
  cases hdata : (w.user u).data with
  | none => exact .inl rfl
  | some old =>
    dsimp only
    split
    · exact .inr (.inr (.inl rfl))
    · rename_i hold
      split
      · exact .inl rfl
      · rename_i hlong
        generalize getFreeClient false true false w = r at hsearch hsome
        obtain ⟨found, w₁⟩ := r
        cases found with
        | none => exact .inr (.inl ⟨w₁, hsearch, rfl⟩)
        | some c =>
          obtain ⟨hmem, hfree⟩ := findFree_eq_some (hsome c rfl).2
          exact .inr (.inr (.inr ⟨w₁, old, c, hsearch, rfl, not_not.mp hold,
            by simpa using hlong, hmem, hfree, rfl⟩))

/-! ## Releasing a user -/

/-- A backend after a user has left it: with one user per backend it dies when empty. -/
def Backend.without (u : UserId) (usersPerBackend : Int) (b : Backend) : Backend :=
  { b with
    users := b.users.filter fun v => v ≠ u
    willDie := b.willDie ||
      decide ((b.users.filter fun v => v ≠ u) = [] ∧ usersPerBackend = 1) }

/-- What `handleUserDestroyed` does: the user leaves the queue and the backend he points to,
and keeps pointing to it. -/
structure Destroyed (u : UserId) (w w' : World) : Prop where
  cfg : w'.cfg = w.cfg
  now : w'.now = w.now
  clients : w'.clients = w.clients
  nextBackend : w'.nextBackend = w.nextBackend
  startingBackend : w'.startingBackend = w.startingBackend
  loginTimer : w'.loginTimer = w.loginTimer
  lastLogin : w'.lastLogin = w.lastLogin
  users : w'.users = w.users
  nextUser : w'.nextUser = w.nextUser
  user : w'.user = Function.update w.user u { w.user u with slots := 0 }
  waitingUsers : w'.waitingUsers = w.waitingUsers.filter fun v => v ≠ u
  backends : ∀ b, w'.backends b =
    if (w.user u).data = some b then (w.backends b).without u w.cfg.usersPerBackend
    else w.backends b
  log : Logs Effect.Plain w w'

namespace Destroyed

variable {u : UserId} {w w' : World}

theorem data (h : Destroyed u w w') (v : UserId) : (w'.user v).data = (w.user v).data := by
  rw [h.user]
  by_cases hv : v = u
  · subst hv
    simp
  · rw [Function.update_of_ne hv]

theorem jid (h : Destroyed u w w') (v : UserId) : (w'.user v).jid = (w.user v).jid := by
  rw [h.user]
  by_cases hv : v = u
  · subst hv
    simp
  · rw [Function.update_of_ne hv]

theorem usersOf (h : Destroyed u w w') (b : BackendId) : (w'.backends b).users =
    if (w.user u).data = some b then (w.backends b).users.filter fun v => v ≠ u
    else (w.backends b).users := by
  rw [h.backends b]
  split
  · rfl
  · rfl

theorem usersOf_subset (h : Destroyed u w w') (b : BackendId) :
    (w'.backends b).users.Sublist (w.backends b).users := by
  rw [h.usersOf b]
  split
  · exact List.filter_sublist
  · exact List.Sublist.refl _

theorem mem_usersOf (h : Destroyed u w w') {b : BackendId} {v : UserId} (hv : v ≠ u) :
    v ∈ (w'.backends b).users ↔ v ∈ (w.backends b).users := by
  rw [h.usersOf b]
  split
  · simp [hv]
  · exact Iff.rfl

theorem willDie (h : Destroyed u w w') {b : BackendId} (hb : (w.backends b).willDie = true) :
    (w'.backends b).willDie = true := by
  rw [h.backends b]
  split
  · simp [Backend.without, hb]
  · exact hb

theorem pongReceived (h : Destroyed u w w') (b : BackendId) :
    (w'.backends b).pongReceived = (w.backends b).pongReceived := by
  rw [h.backends b]
  split
  · rfl
  · rfl

end Destroyed

/-- The part of `handleUserDestroyed` that deals with the backend. -/
def release (u : UserId) (c : BackendId) (m : ToBackend) (w : World) : World :=
  dieIfEmpty c (removeFrom u c (send c m w))

theorem release_rest (u : UserId) (c : BackendId) (m : ToBackend) (w : World) :
    { release u c m w with backends := w.backends, log := w.log, fault := w.fault } = w := by
  unfold release dieIfEmpty removeFrom send
  split <;> split <;> rfl

theorem release_backends (u : UserId) (c : BackendId) (m : ToBackend) (w : World)
    (b : BackendId) : (release u c m w).backends b =
      if c = b then (w.backends b).without u w.cfg.usersPerBackend else w.backends b := by
  have hsend : (send c m w).backends = w.backends := by
    unfold send
    split <;> rfl
  have hcfg : (removeFrom u c (send c m w)).cfg = w.cfg := by
    unfold removeFrom send
    split <;> rfl
  have hremove : (removeFrom u c (send c m w)).backends = Function.update w.backends c
      { w.backends c with users := (w.backends c).users.filter fun v => v ≠ u } := by
    simp [removeFrom, modBackend, hsend]
  unfold release dieIfEmpty
  rw [hremove, hcfg]
  by_cases hb : c = b
  · subst hb
    split
    · rename_i hempty
      simp only [Function.update_self] at hempty
      simp only [modBackend, hremove, Backend.without, hempty, Function.update_self, and_self,
        decide_true, Bool.or_true, ↓reduceIte]
    · rename_i hempty
      simp only [Function.update_self] at hempty
      simp only [hremove, Backend.without, hempty, Function.update_self, decide_false,
        Bool.or_false, ↓reduceIte]
  · rw [if_neg hb]
    split
    · simp [modBackend, hremove, Function.update_of_ne (Ne.symm hb)]
    · simp [hremove, Function.update_of_ne (Ne.symm hb)]

theorem release_log (u : UserId) {c : BackendId} {m : ToBackend} (hm : (Effect.send c m).Plain)
    (w : World) : Logs Effect.Plain w (release u c m w) := by
  apply (idle_send w c hm).log.trans
  unfold release dieIfEmpty
  split
  · exact .of_eq rfl
  · exact .of_eq rfl

theorem handleUserDestroyed_spec (u : UserId) (w : World) :
    Destroyed u w (handleUserDestroyed u w) := by
  simp only [handleUserDestroyed]
  generalize hw₁ : modUser u (fun x => { x with slots := 0 })
    { w with waitingUsers := w.waitingUsers.filter fun v => v ≠ u } = w₁
  have hdata : (w₁.user u).data = (w.user u).data := by
    subst hw₁
    simp [modUser]
  have hlog : Logs Effect.Plain w w₁ := by
    subst hw₁
    exact .of_eq rfl
  cases hd : (w.user u).data with
  | none =>
    rw [hd] at hdata
    rw [hdata]
    subst hw₁
    refine ⟨rfl, rfl, rfl, rfl, rfl, rfl, rfl, rfl, rfl, rfl, rfl, ?_, hlog⟩
    intro b
    rw [if_neg (by simp [hd])]
    rfl
  | some c =>
    rw [hd] at hdata
    rw [hdata]
    have hbackends : w₁.backends = w.backends := by
      subst hw₁
      rfl
    generalize hw₂ : release u c (.logout (w₁.user u).jid.toBare (w₁.user u).info.uin) w₁ = w₂
    have hrest := release_rest u c (.logout (w₁.user u).jid.toBare (w₁.user u).info.uin) w₁
    have hmod := release_backends u c (.logout (w₁.user u).jid.toBare (w₁.user u).info.uin) w₁
    have hlog₂ := release_log u (c := c)
      (m := .logout (w₁.user u).jid.toBare (w₁.user u).info.uin) trivial w₁
    rw [hw₂] at hrest hmod hlog₂
    have hgoal : Destroyed u w w₂ := by
      have hfield : ∀ {α : Type} (f : World → α), f
          { w₂ with backends := w₁.backends, log := w₁.log, fault := w₁.fault } = f w₁ :=
        fun f => congrArg f hrest
      subst hw₁
      refine ⟨hfield World.cfg, hfield World.now, hfield World.clients, hfield World.nextBackend,
        hfield World.startingBackend, hfield World.loginTimer, hfield World.lastLogin,
        hfield World.users, hfield World.nextUser, hfield World.user, hfield World.waitingUsers,
        ?_, hlog.trans hlog₂⟩
      intro b
      rw [hmod b, hbackends, hd]
      simp only [Option.some.injEq]
      rfl
    rw [← hw₂] at hgoal
    exact hgoal

/-! ## Disconnecting a user -/

/-- The three outcomes of `User::handleDisconnected`: ignored, reconnected, or given up. -/
theorem handleDisconnected_cases (u : UserId) (error : String) (e : ConnectionError) (w : World) :
    ((w.user u).ignoreDisconnect = true ∧
      User.handleDisconnected u error e w = w.emit (.disconnected u)) ∨
    ((w.user u).ignoreDisconnect = false ∧ User.reconnects (w.user u) e = true ∧
      User.handleDisconnected u error e w = User.reconnect u (w.emit (.disconnected u))) ∨
    ((w.user u).ignoreDisconnect = false ∧ User.reconnects (w.user u) e = false ∧
      User.handleDisconnected u error e w = User.giveUp u error (w.emit (.disconnected u))) := by
  unfold User.handleDisconnected
  cases hignore : (w.user u).ignoreDisconnect with
  | true => simp [emit, hignore]
  | false =>
    cases hrec : User.reconnects (w.user u) e with
    | true => simp [emit, hignore, hrec]
    | false => simp [emit, hignore, hrec]

theorem idle_reportError (u : UserId) (error : String) (w : World) :
    Idle w (User.reportError u error w) := by
  have hmessage : Idle w (w.emit (.message (w.user u).jid.toBare error)) := .emit trivial
  simp only [User.reportError]
  split
  · exact hmessage.trans (idle_finishSession _ _)
  · exact hmessage

/-! ## The queue -/

/-- The user at the head of the queue gets a backend and is connected if he is ready. -/
def serve (u : UserId) (rest : List UserId) (w : World) : World :=
  let w := handleUserCreated u { w with waitingUsers := rest }
  if (w.user u).readyForConnect then handleUserReadyToConnect u w else w

/-- Induction over the loop of `connectWaitingUsers`: an invariant of the search and of
serving the head of the queue after a successful check is one of the loop. -/
theorem drain_induction {I : World → Prop}
    (hsearch : ∀ w w', Searched w w' → I w → I w')
    (hserve : ∀ w u rest c, w.waitingUsers = u :: rest → loginPostponed w = false →
      findFree true false w = some c → I w → I (serve u rest w))
    (n : Nat) (w : World) (h : I w) : I (drain n w) := by
  induction n generalizing w with
  | zero => exact h
  | succ n ih =>
    unfold drain
    split
    · exact h
    · rename_i u rest hwait
      rcases getFreeClient_cases true false true w with
        ⟨-, heq⟩ | ⟨hpost, w₁, hw₁, ⟨c, hfind, heq⟩ | ⟨-, heq⟩⟩
      · have hs := searched_getFreeClient true false true w
        rw [heq] at hs ⊢
        exact hsearch _ _ hs h
      · rw [heq]
        -- a check never closes a backend
        have hclose : closeIfFull true c w₁ = w := by
          rw [hw₁]
          simp [closeIfFull]
        rw [hclose]
        exact ih _ (hserve w u rest c hwait hpost hfind h)
      · have hs := searched_getFreeClient true false true w
        rw [heq] at hs ⊢
        exact hsearch _ _ hs h

end Spectrum
