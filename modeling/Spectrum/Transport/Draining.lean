import Spectrum.Transport.Waiting

/-!
# The queue under a moving clock

In `World.machine` the clock stands still during an event. The loop of `connectWaitingUsers`
asks for a free backend twice in every round, and each search reads the clock again, so the
two answers may belong to different times. Here every reading of the loop has its own time,
and the clock never goes back.

A search that checks reads the clock once, a search that assigns reads it twice. One round
takes the user at the head of the queue and assigns him, because neither the login delay nor
the free backend can be lost between its two searches (`drainRound_cases`); so the loop ends,
and it leaves behind an empty queue or a state without a backend (`exists_rounds`).
-/

namespace Spectrum

open World NetworkPluginServer

/-! ## The clock -/

/-- The results of the calls of `time(NULL)`, in order. -/
structure Clock where
  read : ℕ → Int
  mono : ∀ i j, i ≤ j → read i ≤ read j

namespace Clock

/-- The clock after `k` readings. -/
def drop (c : Clock) (k : ℕ) : Clock where
  read n := c.read (n + k)
  mono _ _ h := c.mono _ _ (Nat.add_le_add_right h k)

def still (now : Int) : Clock where
  read _ := now
  mono _ _ _ := Int.le_refl now

@[simp] theorem read_still (now : Int) (k : ℕ) : (still now).read k = now := rfl

@[simp] theorem drop_still (now : Int) (k : ℕ) : (still now).drop k = still now := rfl

theorem read_le (c : Clock) {i j : ℕ} (h : i ≤ j) : c.read i ≤ c.read j := c.mono i j h

end Clock

def World.tick (now : Int) (w : World) : World := { w with now := now }

theorem sameLinks_tick (now : Int) (w : World) : SameLinks w (w.tick now) := .of_links rfl

namespace NetworkPluginServer

/-- `getFreeClient` where `time(NULL)` returns `now` first and `now'` at the second call. -/
def getFreeClientAt (now now' : Int) (acceptUsers longRun check : Bool) (w : World) :
    Option BackendId × World :=
  let w := w.tick now
  if loginPostponed w then (none, { w with loginTimer := true })
  else
    let w := if check then w else { w.tick now' with lastLogin := now' }
    match findFree acceptUsers longRun w with
    | some c => (some c, closeIfFull check c w)
    | none => (none, spawn longRun w)

def handleUserCreatedAt (now now' : Int) (u : UserId) (w : World) : World :=
  match getFreeClientAt now now' true false false w with
  | (none, w) => { w with waitingUsers := w.waitingUsers ++ [u] }
  | (some c, w) => (attach .created u c w).modUser u fun x => { x with slots := x.slots + 1 }

/-- The body of the loop after the check. -/
def serveAt (now now' : Int) (u : UserId) (rest : List UserId) (w : World) : World :=
  let w := handleUserCreatedAt now now' u { w with waitingUsers := rest }
  if (w.user u).readyForConnect then handleUserReadyToConnect u w else w

/-- What a round of the loop leads to: the loop is left, or the next round begins. -/
inductive Round
  | left (w : World)
  | next (w : World)

/-- One round of the loop of `connectWaitingUsers`. -/
def drainRound (c : Clock) (w : World) : Round :=
  match w.waitingUsers with
  | [] => .left w
  | u :: rest =>
    match getFreeClientAt (c.read 0) (c.read 0) true false true w with
    | (none, w) => .left w
    | (some _, w) => .next (serveAt (c.read 1) (c.read 2) u rest w)

/-- At most `n` rounds of the loop; `none` if it has not been left by then. -/
def drainAt (c : Clock) : ℕ → World → Option World
  | 0, _ => none
  | n + 1, w =>
    match drainRound c w with
    | .left w => some w
    -- the check has read the clock once, the search that assigned twice
    | .next w => drainAt (c.drop 3) n w

def connectWaitingUsersAt (c : Clock) (w : World) : Option World :=
  drainAt c (w.waitingUsers.length + 1) (w.emit .connectWaitingUsers)

def handlePongReceivedAt (c : Clock) (b : BackendId) (w : World) : Option World :=
  let w := w.emit (.pong b)
  let r :=
    if (w.backends b).pongReceived = -1 then
      connectWaitingUsersAt c (startComponent (w.modBackend b fun x => { x with willDie := false }))
    else some w
  r.map fun w => w.modBackend b fun x => { x with pongReceived := 1 }

end NetworkPluginServer

/-! ## One search -/

section Search

variable {now now' : Int} {w : World} {u : UserId}

/-- A login delay that is over stays over. -/
theorem not_postponed_of_le (hle : now ≤ now') (h : loginPostponed (w.tick now) = false) :
    loginPostponed (w.tick now') = false := by
  simp only [loginPostponed, World.tick, Bool.and_eq_false_imp] at h ⊢
  intro hdelay
  have hover := of_decide_eq_false (h hdelay)
  apply decide_eq_false
  omega

theorem getFreeClientAt_check (acceptUsers longRun : Bool) (w : World) :
    getFreeClientAt now now' acceptUsers longRun true w =
      getFreeClient acceptUsers longRun true (w.tick now) := rfl

/-- A search that assigns is one at its second reading, if it gets that far. -/
theorem getFreeClientAt_assign (acceptUsers longRun : Bool) (hle : now ≤ now')
    (h : loginPostponed (w.tick now) = false) :
    getFreeClientAt now now' acceptUsers longRun false w =
      getFreeClient acceptUsers longRun false (w.tick now') := by
  have h' := not_postponed_of_le hle h
  simp only [getFreeClientAt, getFreeClient, h, h']
  rfl

theorem serveAt_eq {rest : List UserId} (hle : now ≤ now')
    (h : loginPostponed (w.tick now) = false) :
    serveAt now now' u rest w = serve u rest (w.tick now') := by
  have hsearch := getFreeClientAt_assign true false (w := { w with waitingUsers := rest }) hle h
  unfold serveAt serve handleUserCreatedAt handleUserCreated
  rw [hsearch]
  rfl

end Search

/-! ## One round -/

/-- No backend can be had at the time of the state: logins are delayed, or none is free. -/
def NoBackend (w : World) : Prop :=
  loginPostponed w = true ∨ ∀ b ∈ w.clients, isFree true false w b = false

/-- The queue holds nobody twice, and only users that still exist. -/
structure QueueSound (w : World) : Prop where
  nodup : w.waitingUsers.Nodup
  managed : ∀ u ∈ w.waitingUsers, w.Managed u

/-- The user at the head of the queue has left it for a backend that was free. -/
structure Served (u : UserId) (b : BackendId) (w w' : World) : Prop where
  queue : w.waitingUsers = u :: w'.waitingUsers
  client : b ∈ w.clients
  free : isFree true false w b = true
  data : (w'.user u).data = some b
  listed : u ∈ (w'.backends b).users

section OneRound

variable {w w' : World} {u : UserId} {b : BackendId}

theorem Link.emit (h : Link none none w) (e : Effect) : Link none none (w.emit e) :=
  h.of_same (Quiet.sameLinks (P := fun _ => True) (.emit trivial))

theorem Link.queueSound (h : Link none none w) : QueueSound w where
  nodup := h.waiting_nodup
  managed := fun u hu => h.waiting_managed u hu (by simp)

theorem serve_served {rest : List UserId} (hwait : w.waitingUsers = u :: rest)
    (hpost : loginPostponed w = false) (hfind : findFree true false w = some b) :
    Served u b w (serve u rest w) := by
  obtain ⟨hclient, hfree⟩ := findFree_eq_some hfind
  have hqueue : (serve u rest w).waitingUsers = rest := serve_waitingUsers hpost hfind
  have hpost' : loginPostponed { w with waitingUsers := rest } = false := hpost
  have hfind' : findFree true false { w with waitingUsers := rest } = some b := hfind
  obtain ⟨w₁, -, heq⟩ := handleUserCreated_of_free (u := u) hpost' hfind'
  have hidle := (idle_serveLogin u (connectSlots u (attach .created u b w₁))).quiet
  unfold serve at hqueue ⊢
  rw [heq] at hqueue ⊢
  refine ⟨by rw [hqueue]; exact hwait, hclient, hfree, ?_, ?_⟩
  · rw [hidle.data]
    simp [connectSlots, modUser, attach_data]
  · rw [hidle.backends]
    show u ∈ ((attach .created u b w₁).backends b).users
    rw [attach_usersOf]
    simp

theorem NoBackend.spawn (h : NoBackend w) : NoBackend (spawn false w) := by
  unfold NetworkPluginServer.spawn
  split
  · exact h
  · exact h

/-- A round leaves the loop with an empty queue, leaves it because no backend can be had, or
serves the head of the queue at the time of its last reading. -/
theorem drainRound_cases (c : Clock) (w : World) :
    (w.waitingUsers = [] ∧ drainRound c w = .left w) ∨
    (∃ w', Searched (w.tick (c.read 0)) w' ∧ NoBackend w' ∧ drainRound c w = .left w') ∨
    (∃ u rest b, w.waitingUsers = u :: rest ∧ loginPostponed (w.tick (c.read 2)) = false ∧
      findFree true false w = some b ∧
      drainRound c w = .next (serve u rest (w.tick (c.read 2)))) := by
  unfold drainRound
  split
  · rename_i hnil
    exact .inl ⟨hnil, rfl⟩
  · rename_i u rest hcons
    right
    rw [getFreeClientAt_check]
    have hs := searched_getFreeClient true false true (w.tick (c.read 0))
    rcases getFreeClient_cases true false true (w.tick (c.read 0)) with
      ⟨hpost, heq⟩ | ⟨hpost, w₁, hw₁, ⟨b, hfind, heq⟩ | ⟨hfind, heq⟩⟩
    · rw [heq] at hs ⊢
      exact .inl ⟨_, hs, .inl hpost, rfl⟩
    · right
      have hclose : closeIfFull true b w₁ = w.tick (c.read 0) := by
        rw [hw₁]
        simp [closeIfFull]
      rw [heq, hclose]
      have hpost₁ : loginPostponed (w.tick (c.read 1)) = false :=
        not_postponed_of_le (c.read_le (Nat.zero_le 1)) hpost
      have hpost₂ : loginPostponed (w.tick (c.read 2)) = false :=
        not_postponed_of_le (c.read_le (Nat.le_succ 1)) hpost₁
      refine ⟨u, rest, b, hcons, hpost₂, hfind, ?_⟩
      have hserve : serveAt (c.read 1) (c.read 2) u rest (w.tick (c.read 0)) =
          serve u rest (w.tick (c.read 2)) := serveAt_eq (c.read_le (Nat.le_succ 1)) hpost₁
      dsimp only
      rw [hserve]
    · have hnone : NoBackend (w.tick (c.read 0)) := by
        right
        intro b hb
        have hne := List.find?_eq_none.mp hfind b hb
        simpa using hne
      rw [heq] at hs ⊢
      refine .inl ⟨_, hs, ?_, rfl⟩
      rw [hw₁]
      exact hnone.spawn

theorem Link.round (h : Link none none w) {rest : List UserId} (hwait : w.waitingUsers = u :: rest)
    (now : Int) : Link none none (Spectrum.serve u rest (w.tick now)) := by
  have htick : Link none none (w.tick now) := h.of_same (sameLinks_tick now w)
  exact htick.serve hwait

end OneRound

/-! ## The whole loop -/

/-- The loop started in `w` with the clock `c`, round by round: the users it takes, each with
his backend, and the state in which it is left. -/
inductive Rounds : Clock → World → List (UserId × BackendId) → World → Prop
  | left {c : Clock} {w w' : World} (h : drainRound c w = .left w') (hq : QueueSound w)
      (hqueue : w'.waitingUsers = w.waitingUsers)
      (hstop : w'.waitingUsers = [] ∨ NoBackend w') : Rounds c w [] w'
  | next {c : Clock} {w w₁ w' : World} {u : UserId} {b : BackendId}
      {l : List (UserId × BackendId)} (h : drainRound c w = .next w₁) (hq : QueueSound w)
      (ht : Served u b w w₁) (hrest : Rounds (c.drop 3) w₁ l w') : Rounds c w ((u, b) :: l) w'

namespace Rounds

variable {c : Clock} {w w' : World} {l : List (UserId × BackendId)}

/-- The users are taken from the front of the queue, in its order. -/
theorem queue (h : Rounds c w l w') : w.waitingUsers = l.map Prod.fst ++ w'.waitingUsers := by
  induction h with
  | left _ _ hqueue _ => exact hqueue.symm
  | next _ _ ht _ ih =>
    rw [ht.queue, ih]
    rfl

theorem stop (h : Rounds c w l w') : w'.waitingUsers = [] ∨ NoBackend w' := by
  induction h with
  | left _ _ _ hstop => exact hstop
  | next _ _ _ _ ih => exact ih

theorem length_le (h : Rounds c w l w') : l.length ≤ w.waitingUsers.length := by
  rw [h.queue, List.length_append, List.length_map]
  exact Nat.le_add_right _ _

/-- The loop is left after as many rounds as users are taken. -/
theorem drainAt (h : Rounds c w l w') {n : ℕ} (hn : l.length < n) :
    NetworkPluginServer.drainAt c n w = some w' := by
  induction h generalizing n with
  | left h _ _ _ =>
    obtain ⟨n, rfl⟩ := Nat.exists_eq_succ_of_ne_zero (Nat.ne_of_gt hn)
    simp only [NetworkPluginServer.drainAt, h]
  | next h _ _ _ ih =>
    obtain ⟨n, rfl⟩ := Nat.exists_eq_succ_of_ne_zero (Nat.ne_of_gt (Nat.zero_lt_of_lt hn))
    simp only [NetworkPluginServer.drainAt, h]
    apply ih
    rw [List.length_cons] at hn
    omega

end Rounds

section Loop

variable {w : World}

/-- From every linked state the loop comes to an end, under every clock. -/
theorem exists_rounds (c : Clock) (h : Link none none w) :
    ∃ l w', Rounds c w l w' ∧ Link none none w' := by
  -- the queue loses its head in every round
  induction hlen : w.waitingUsers.length using Nat.strong_induction_on generalizing c w with
  | _ n ih =>
    rcases drainRound_cases c w with
      ⟨hnil, heq⟩ | ⟨w', hs, hnone, heq⟩ | ⟨u, rest, b, hcons, hpost, hfind, heq⟩
    · exact ⟨[], w, .left heq h.queueSound rfl (.inl hnil), h⟩
    · have hlink := (h.of_same (sameLinks_tick _ w)).of_same hs.sameLinks
      exact ⟨[], w', .left heq h.queueSound hs.waitingUsers (.inr hnone), hlink⟩
    · have ht := serve_served (w := w.tick (c.read 2)) hcons hpost hfind
      have hserved : Served u b w (serve u rest (w.tick (c.read 2))) :=
        ⟨ht.queue, ht.client, ht.free, ht.data, ht.listed⟩
      have hshort : (serve u rest (w.tick (c.read 2))).waitingUsers.length < n := by
        rw [← hlen, hserved.queue, List.length_cons]
        exact Nat.lt_succ_self _
      obtain ⟨l, w', hrounds, hlink⟩ :=
        ih _ hshort (c.drop 3) (h.round hcons (c.read 2)) rfl
      exact ⟨(u, b) :: l, w', .next heq h.queueSound hserved hrounds, hlink⟩

theorem connectWaitingUsersAt_eq (c : Clock) (h : Link none none w) :
    ∃ w', connectWaitingUsersAt c w = some w' ∧ Link none none w' := by
  obtain ⟨l, w', hrounds, hlink⟩ := exists_rounds c (h.emit .connectWaitingUsers)
  exact ⟨w', hrounds.drainAt (Nat.lt_succ_of_le hrounds.length_le), hlink⟩

end Loop

/-! ## The transport under a moving clock -/

/-- The event does not set the clock back. -/
def Event.forward (w : World) : Event → Bool
  | .clock now => decide (w.now ≤ now)
  | _ => true

/-- An event with the readings of the clock while it is handled. -/
structure Timed where
  event : Event
  clock : Clock

namespace Timed

def forward (w : World) (t : Timed) : Bool :=
  t.event.forward w && decide (w.now ≤ t.clock.read 0)

/-- The events that call `connectWaitingUsers` read the clock in its loop. -/
def run (t : Timed) (w : World) : Option World :=
  match t.event with
  | .loginDelay => connectWaitingUsersAt t.clock { w with loginTimer := false }
  | .received b .pong => handlePongReceivedAt t.clock b (noteData b w)
  | e => some (e.run w)

end Timed

namespace World

def stepAt (w : World) (t : Timed) : Option World :=
  if t.forward w = true ∧ t.event.enabled w = true then (t.run w).filter fun w' => !w'.fault
  else none

/-- All runs of the transport under every clock that never goes back. -/
def ticking : Lib.Machine World Timed where
  init := machine.init
  step := stepAt

end World

section Ticking

variable {w w' : World}

theorem Link.pongAt (h : Link none none w) {c : Clock} {b : BackendId}
    (hw : handlePongReceivedAt c b w = some w') : Link none none w' := by
  have hemit := h.emit (.pong b)
  simp only [handlePongReceivedAt] at hw
  split at hw
  · obtain ⟨w₁, heq, hlink⟩ := connectWaitingUsersAt_eq c
      (hemit.modBackend b (f := fun x => { x with willDie := false }) fun _ => rfl).startComponent
    rw [heq] at hw
    cases hw
    exact hlink.modBackend b fun _ => rfl
  · cases hw
    exact hemit.modBackend b fun _ => rfl

theorem Link.timed (h : Link none none w) {t : Timed} (hw : t.run w = some w') :
    Link none none w' := by
  unfold Timed.run at hw
  split at hw
  · obtain ⟨w₁, heq, hlink⟩ := connectWaitingUsersAt_eq t.clock
      (w := { w with loginTimer := false }) (h.of_same (.of_links rfl))
    rw [heq] at hw
    cases hw
    exact hlink
  · exact (h.noteData _).pongAt hw
  · cases hw
    exact h.run _

theorem stepAt_eq_some {t : Timed} (hs : w.stepAt t = some w') :
    t.forward w = true ∧ t.event.enabled w = true ∧ t.run w = some w' ∧ w'.fault = false := by
  unfold stepAt at hs
  split at hs
  · rename_i hcond
    obtain ⟨hrun, hfault⟩ := Option.filter_eq_some_iff.mp hs
    exact ⟨hcond.1, hcond.2, hrun, by simpa using hfault⟩
  · cases hs

theorem link_of_ticking {tr : List (World × Timed)} (h : ticking.Run tr w) :
    Link none none w := by
  refine h.invariant ?_ ?_
  · rintro s ⟨cfg, now, storage, rfl⟩
    exact link_start cfg now storage
  · intro s t s' hs hlink
    exact hlink.timed (stepAt_eq_some hs).2.2.1

/-! ## The still clock -/

theorem serve_now {u : UserId} {rest : List UserId} {b : BackendId}
    (hpost : loginPostponed w = false) (hfind : findFree true false w = some b) :
    (serve u rest w).now = w.now := by
  have hpost' : loginPostponed { w with waitingUsers := rest } = false := hpost
  have hfind' : findFree true false { w with waitingUsers := rest } = some b := hfind
  obtain ⟨w₁, hs, heq⟩ := handleUserCreated_of_free (u := u) hpost' hfind'
  have hidle := congrArg Core.now
    (idle_serveLogin u (connectSlots u (attach .created u b w₁))).quiet.core
  unfold serve
  rw [heq]
  exact hidle.trans hs.now

/-- Under a clock that stands still the loop is the one of `World.machine`. -/
theorem drainAt_still (n : ℕ) (w : World) (hn : w.waitingUsers.length ≤ n) :
    drainAt (.still w.now) (n + 1) w = some (drain n w) := by
  induction n generalizing w with
  | zero =>
    have hnil := List.length_eq_zero_iff.mp (Nat.le_zero.mp hn)
    simp [drainAt, drainRound, drain, hnil]
  | succ n ih =>
    rw [drainAt, drainRound, drain]
    cases hcons : w.waitingUsers with
    | nil => rfl
    | cons u rest =>
      have hcheck : getFreeClientAt w.now w.now true false true w =
          getFreeClient true false true w := rfl
      simp only [Clock.read_still, Clock.drop_still, hcheck]
      rcases getFreeClient_cases true false true w with
        ⟨-, heq⟩ | ⟨hpost, w₁, hw₁, ⟨b, hfind, heq⟩ | ⟨-, heq⟩⟩
      · simp only [heq]
      · have hclose : closeIfFull true b w₁ = w := by
          rw [hw₁]
          simp [closeIfFull]
        have hlen : (serve u rest w).waitingUsers.length ≤ n := by
          rw [serve_waitingUsers hpost hfind]
          rw [hcons, List.length_cons] at hn
          omega
        have hserve : serveAt w.now w.now u rest w = serve u rest w :=
          serveAt_eq (Int.le_refl _) hpost
        have hrest := ih (serve u rest w) hlen
        rw [serve_now hpost hfind] at hrest
        simp only [heq, hclose, hserve]
        exact hrest
      · simp only [heq]

theorem connectWaitingUsersAt_still (w : World) :
    connectWaitingUsersAt (.still w.now) w = some (connectWaitingUsers w) :=
  drainAt_still w.waitingUsers.length (w.emit .connectWaitingUsers) (Nat.le_refl _)

theorem handlePongReceivedAt_still (b : BackendId) (w : World) :
    handlePongReceivedAt (.still w.now) b w = some (handlePongReceived b w) := by
  simp only [handlePongReceivedAt, handlePongReceived]
  split
  · have hstart : (startComponent ((w.emit (.pong b)).modBackend b
        fun x => { x with willDie := false })).now = w.now :=
      congrArg Core.now (quiet_startComponent _).core
    have hdrain := connectWaitingUsersAt_still (startComponent ((w.emit (.pong b)).modBackend b
      fun x => { x with willDie := false }))
    rw [hstart] at hdrain
    rw [hdrain]
    rfl
  · rfl

theorem Timed.run_still (e : Event) (w : World) :
    (⟨e, .still w.now⟩ : Timed).run w = some (e.run w) := by
  unfold Timed.run
  split
  · rename_i he
    have hloop := connectWaitingUsersAt_still { w with loginTimer := false }
    rw [show e = .loginDelay from he]
    exact hloop
  · rename_i b he
    have hnow : (noteData b w).now = w.now := by
      obtain ⟨v, heq⟩ := noteData_eq b w
      rw [heq]
      rfl
    have hpong := handlePongReceivedAt_still b (noteData b w)
    rw [hnow] at hpong
    rw [show e = .received b .pong from he]
    exact hpong
  · rfl

/-- The runs of `World.machine` that never set the clock back are runs under a clock that
stands still during every event. -/
theorem ticking_of_run {tr : List (World × Event)} (h : machine.Run tr w)
    (hf : Lib.Machine.Meets (fun w e => e.forward w = true) tr) :
    ∃ tr', ticking.Run tr' w := by
  induction h with
  | init h0 => exact ⟨[], .init h0⟩
  | @step tr w w' e _ hs ih =>
    obtain ⟨hforward, hrest⟩ := Lib.Machine.meets_cons.mp hf
    obtain ⟨tr', hrun⟩ := ih hrest
    obtain ⟨henabled, hfault, rfl⟩ := step_eq_some hs
    refine ⟨_, hrun.step (e := ⟨e, .still w.now⟩) ?_⟩
    show w.stepAt ⟨e, .still w.now⟩ = some (e.run w)
    simp [stepAt, Timed.forward, hforward, henabled, Timed.run_still, hfault]

/-- In every reachable state the queue holds nobody twice and nobody who was destroyed, and
`connectWaitingUsers` ends there: it takes users from the front of the queue, gives each of
them a backend in his round, and stops at an empty queue or for want of a backend. -/
theorem connectWaitingUsers_rounds {tr : List (World × Timed)} (h : ticking.Run tr w) (c : Clock) :
    QueueSound w ∧ ∃ l w', Rounds c (w.emit .connectWaitingUsers) l w' ∧
      (∀ n, w.waitingUsers.length < n → drainAt c n (w.emit .connectWaitingUsers) = some w') ∧
      w.waitingUsers = l.map Prod.fst ++ w'.waitingUsers ∧
      (∀ p ∈ l, p.1 ∉ w'.waitingUsers) ∧
      (w'.waitingUsers = [] ∨ NoBackend w') ∧ QueueSound w' := by
  have hlink := link_of_ticking h
  obtain ⟨l, w', hrounds, hlink'⟩ := exists_rounds c (hlink.emit .connectWaitingUsers)
  have hqueue : w.waitingUsers = l.map Prod.fst ++ w'.waitingUsers := hrounds.queue
  refine ⟨hlink.queueSound, l, w', hrounds, ?_, hqueue, ?_, hrounds.stop, hlink'.queueSound⟩
  · intro n hn
    exact hrounds.drainAt (Nat.lt_of_le_of_lt hrounds.length_le hn)
  · intro p hp
    have hnodup := hlink.waiting_nodup
    rw [hqueue] at hnodup
    intro hback
    exact (List.nodup_append.mp hnodup).2.2 p.1 (List.mem_map_of_mem hp) p.1 hback rfl

/-- A clock that runs on by more than the login delay between two readings serves two users
in one loop. -/
theorem connectWaitingUsers_rounds_two : ∃ (tr : List (World × Timed)) (w : World) (c : Clock)
    (l : List (UserId × BackendId)) (w' : World), ticking.Run tr w ∧ w.waitingUsers = [0, 1] ∧
      Rounds c (w.emit .connectWaitingUsers) l w' ∧ w'.waitingUsers = [] := by
  have hexec : ∃ w, (machine.restrict fun w e => e.forward w = true).exec
      (World.start { Sample.cfg with loginDelay := 10 } 100 none)
      [.loginDelay, .presence (Sample.available "alice"), .presence (Sample.available "bob"),
        .backendConnected, .received 0 .pong, .clock 200] = some w ∧
      w.waitingUsers = [0, 1] ∧
      (drainAt ⟨fun k => 200 + 20 * k, fun i j h => by simpa using h⟩ 3
        (w.emit .connectWaitingUsers)).map World.waitingUsers = some [] :=
    ⟨_, by rfl, by rfl, by rfl⟩
  obtain ⟨w, hw, hwait, hdrain⟩ := hexec
  obtain ⟨tr, hrun, hforward⟩ := Lib.Machine.exists_run_of_restrict (init_start _ 100 none) hw
  obtain ⟨tr', hrun'⟩ := ticking_of_run hrun hforward
  obtain ⟨-, l, w', hrounds, hloop, -⟩ := connectWaitingUsers_rounds hrun'
    ⟨fun k => 200 + 20 * k, fun i j h => by simpa using h⟩
  rw [hloop 3 (by rw [hwait]; decide)] at hdrain
  exact ⟨tr', w, _, l, w', hrun', hwait, hrounds, Option.some.inj hdrain⟩

end Ticking

end Spectrum
