import Spectrum.Transport.Calls

/-!
# Automatic reconnects

`User::handleDisconnected` ignores the disconnection, simulates the destruction and resurrection of
the user, or removes him. `callsOf` lists the calls about one user since his last CONNECTED: his
counter says how many of them were answered by a resurrection, so their number is bounded by the
limit.
-/

namespace Spectrum

open World NetworkPluginServer

/-- How many of the calls re-create the assignment of the user. -/
def recreations (cs : List Call) : Int := (cs.countP Call.recreates : Nat)

/-- The calls about the user since his last CONNECTED, newest first. -/
def callsOf (u : UserId) : List (World × Event) → List Call
  | [] => []
  | (w, e) :: tr =>
    if e.connects u w then []
    else ((calls w e).filter fun c => decide (c.user = u)).reverse ++ callsOf u tr

/-! ## Counters -/

/-- Nobody was disconnected, the counters are what they were, and new users start at zero. -/
structure Tallies (w w' : World) : Prop where
  cfg : w'.cfg = w.cfg
  nextUser : w.nextUser ≤ w'.nextUser
  old : ∀ v < w.nextUser, (w'.user v).tally = (w.user v).tally
  new : ∀ v, w.nextUser ≤ v → v < w'.nextUser → (w'.user v).tally = (0, w.cfg.reconnectLimit)
  dropped : w'.dropped = w.dropped

section Tallies

variable {w w₁ w' : World}

theorem Effect.Silent.not_disconnected (e : Effect) (h : e.Silent) : e.disconnectedUser = none := by
  cases e <;> first | rfl | cases h

theorem Effect.Spawns.not_disconnected (e : Effect) (h : e.Spawns) : e.disconnectedUser = none := by
  cases e <;> first | rfl | cases h

theorem Tallies.trans (h : Tallies w w₁) (h' : Tallies w₁ w') : Tallies w w' where
  cfg := h'.cfg.trans h.cfg
  nextUser := h.nextUser.trans h'.nextUser
  old v hv := (h'.old v (hv.trans_le h.nextUser)).trans (h.old v hv)
  new := by
    intro v hle hlt
    by_cases hv : v < w₁.nextUser
    · rw [h'.old v hv]
      exact h.new v hle hv
    · rw [h'.new v (Nat.not_lt.mp hv) hlt, h.cfg]
  dropped := h'.dropped.trans h.dropped

/-- An operation that creates nobody. -/
theorem Tallies.of_tally (hcfg : w'.cfg = w.cfg) (hnext : w'.nextUser = w.nextUser)
    (htally : ∀ v, (w'.user v).tally = (w.user v).tally) (hdropped : w'.dropped = w.dropped) :
    Tallies w w' where
  cfg := hcfg
  nextUser := hnext.ge
  old v _ := htally v
  new _ hle hlt := absurd (hnext ▸ hlt) (Nat.not_lt.mpr hle)
  dropped := hdropped

theorem tallies_withUser (j : Jid) (info : UserInfo) (w : World) :
    Tallies w (withUser j info w) where
  cfg := rfl
  nextUser := Nat.le_succ _
  old v hv := by
    have hne : v ≠ w.nextUser := Nat.ne_of_lt hv
    simp [withUser, Function.update_of_ne hne]
  new v hle hlt := by
    have heq : v = w.nextUser := Nat.le_antisymm (Nat.le_of_lt_succ hlt) hle
    subst heq
    simp [withUser, User.tally]
  dropped := rfl

theorem Proceeds.tallies (h : Proceeds w w') : Tallies w w' := by
  induction h with
  | inert h =>
    exact .of_tally h.cfg h.nextUser h.tally (h.log.dropped Effect.Silent.not_disconnected)
  | search acceptUsers longRun check w =>
    have hs := searched_getFreeClient acceptUsers longRun check w
    exact .of_tally hs.cfg hs.nextUser (fun v => by rw [hs.user])
      (hs.log.dropped Effect.Spawns.not_disconnected)
  | create j info w => exact tallies_withUser j info w
  | trans _ _ ih ih' => exact ih.trans ih'

end Tallies

/-! ## One call -/

section Call

variable {L : Int} {x : Option BackendId} {c : Call}

theorem Call.counted_nextUser (c : Call) : c.counted.nextUser = c.world.nextUser := by
  unfold Call.counted
  split <;> rfl

theorem Call.counted_tally (c : Call) (u : UserId) : (c.counted.user u).tally =
    ((c.world.user u).reconnectCounter + if u = c.user ∧ c.recreates = true then 1 else 0,
      (c.world.user u).reconnectLimit) := by
  unfold Call.counted
  split
  · rename_i hrec
    by_cases hu : u = c.user
    · subst hu
      simp [modUser, emit, User.tally, hrec]
    · simp [modUser, emit, User.tally, hu]
  · rename_i hrec
    simp [emit, User.tally, hrec]

theorem Call.after_dropped (c : Call) : c.after.dropped = c.user :: c.world.dropped := by
  rw [c.proceeds_after.tallies.dropped]
  unfold Call.counted
  split <;> rfl

theorem recreations_cons (c : Call) (cs : List Call) :
    recreations (c :: cs) = recreations cs + if c.recreates = true then 1 else 0 := by
  unfold recreations
  rw [List.countP_cons]
  split <;> simp

/-- The counter of the user says how many of the calls before were answered by a resurrection. -/
structure Counted (L : Int) (c : Call) (earlier : List Call) : Prop where
  tally : (c.world.user c.user).tally = (recreations earlier, L)
  managed : ∃ x, Link x none c.world ∧ c.world.Managed c.user

/-- A list of calls, newest first, whose calls are all counted. -/
def Paced (L : Int) : List Call → Prop
  | [] => True
  | c :: earlier => Counted L c earlier ∧ Paced L earlier

theorem Paced.append {later earlier : List Call} (h : Paced L (later ++ earlier)) :
    Paced L earlier := by
  induction later with
  | nil => exact h
  | cons c later ih => exact ih h.2

theorem Counted.counter {earlier : List Call} (h : Counted L c earlier) :
    (c.world.user c.user).reconnectCounter = recreations earlier ∧
      (c.world.user c.user).reconnectLimit = L :=
  Prod.mk.inj h.tally

theorem Paced.recreations_le (hL : 0 ≤ L) {l : List Call} (h : Paced L l) :
    recreations l ≤ L := by
  induction l with
  | nil => exact hL
  | cons c earlier ih =>
    obtain ⟨hcounted, hearlier⟩ := h
    by_cases hrec : c.recreates = true
    · obtain ⟨hcounter, hlimit⟩ := hcounted.counter
      have hless : (c.world.user c.user).reconnects c.error = true := by
        unfold Call.recreates at hrec
        exact (Bool.and_eq_true_iff.mp hrec).2
      have hroom := of_decide_eq_true (Bool.and_eq_true_iff.mp hless).2
      rw [hcounter, hlimit] at hroom
      rw [recreations_cons, if_pos hrec]
      omega
    · rw [recreations_cons, if_neg hrec, Int.add_zero]
      exact ih hearlier

/-- With the limit reached, a disconnection that is not ignored takes the user out of the map. -/
theorem Counted.removed {earlier : List Call} (h : Counted L c earlier) (hL : 0 ≤ L)
    (hcount : recreations earlier = L) (hignored : c.ignored = false) :
    c.world.Managed c.user ∧ c.after.users (c.world.user c.user).jid = none := by
  obtain ⟨hcounter, hlimit⟩ := h.counter
  obtain ⟨x, hlink, hm⟩ := h.managed
  refine ⟨hm, ?_⟩
  rcases c.after_cases with ⟨htrue, -, -⟩ | ⟨-, hrec, -⟩ | ⟨-, -, heq⟩
  · rw [hignored] at htrue
    cases htrue
  · -- the counter has reached the limit
    have hless := (Bool.and_eq_true_iff.mp hrec).2
    have hroom := of_decide_eq_true (Bool.and_eq_true_iff.mp hless).2
    omega
  · have hemit : SameLinks c.world (c.world.emit (.disconnected c.user)) := .of_links rfl
    have hlink₁ := hlink.of_same hemit
    have hm₁ := hemit.managed.mpr hm
    have hreport :=
      (idle_reportError c.user c.message (c.world.emit (.disconnected c.user))).sameLinks
    rw [heq, giveUp_eq hlink₁ hm₁, removeUser_users, hreport.jid]
    have hjid : ((c.world.emit (.disconnected c.user)).user c.user).jid.toBare =
        (c.world.user c.user).jid := hlink.toBare_jid hm
    rw [hjid, Function.update_self]

/-- The calls are the disconnections that are logged. -/
theorem Calling.dropped {w w' : World} {cs : List Call} (h : Calling w cs w') :
    w'.dropped = (cs.map Call.user).reverse ++ w.dropped := by
  induction h with
  | other hp => exact hp.tallies.dropped
  | @call x c _ _ => exact c.after_dropped
  | trans _ _ ih ih' =>
    rw [ih', ih, List.map_append, List.reverse_append, List.append_assoc]

end Call

/-! ## The calls of a run -/

/-- The calls so far about each user, and the state. -/
structure Recorded (L : Int) (H : UserId → List Call) (w : World) : Prop where
  limit : w.cfg.reconnectLimit = L
  tally : ∀ u < w.nextUser, (w.user u).tally = (recreations (H u), L)
  fresh : ∀ u, w.nextUser ≤ u → H u = []
  paced : ∀ u, Paced L (H u)

/-- More calls are recorded, oldest first. -/
def record (H : UserId → List Call) (cs : List Call) : UserId → List Call := fun u =>
  (cs.filter fun c => decide (c.user = u)).reverse ++ H u

section Record

variable {L : Int} {H : UserId → List Call} {x : Option BackendId} {w w' : World} {c : Call}

theorem record_append (cs cs' : List Call) : record H (cs ++ cs') = record (record H cs) cs' := by
  funext u
  simp [record]

theorem record_singleton (u : UserId) :
    record H [c] u = if u = c.user then c :: H u else H u := by
  by_cases hu : u = c.user
  · simp [record, hu]
  · simp [record, hu, Ne.symm hu]

theorem Recorded.tallies (h : Recorded L H w) (ht : Tallies w w') : Recorded L H w' where
  limit := by rw [ht.cfg, h.limit]
  tally := by
    intro u hu
    by_cases hold : u < w.nextUser
    · rw [ht.old u hold]
      exact h.tally u hold
    · have hle := Nat.not_lt.mp hold
      rw [ht.new u hle hu, h.fresh u hle, h.limit]
      rfl
  fresh u hu := h.fresh u (ht.nextUser.trans hu)
  paced := h.paced

theorem Recorded.call (h : Recorded L H c.world) (hlink : Link x none c.world)
    (hm : c.world.Managed c.user) : Recorded L (record H [c]) c.after := by
  have hlt := hlink.lt_nextUser hm
  have hcounted : Recorded L (record H [c]) c.counted := by
    refine ⟨?_, fun u hu => ?_, fun u hu => ?_, fun u => ?_⟩
    · rw [← h.limit]
      unfold Call.counted
      split <;> rfl
    · rw [c.counted_nextUser] at hu
      obtain ⟨hcounter, hlimit⟩ := Prod.mk.inj (h.tally u hu)
      rw [c.counted_tally, record_singleton, hcounter, hlimit]
      by_cases hcall : u = c.user
      · simp [hcall, recreations_cons]
      · simp [hcall]
    · rw [c.counted_nextUser] at hu
      have hne : u ≠ c.user := by
        rintro rfl
        exact absurd hlt (Nat.not_lt.mpr hu)
      rw [record_singleton, if_neg hne]
      exact h.fresh u hu
    · rw [record_singleton]
      split
      · rename_i hu
        subst hu
        exact ⟨⟨h.tally _ hlt, x, hlink, hm⟩, h.paced _⟩
      · exact h.paced u
  exact hcounted.tallies c.proceeds_after.tallies

/-- The calls of an operation are recorded. -/
theorem Recorded.calling {cs : List Call} (hc : Calling w cs w') (h : Recorded L H w) :
    Recorded L (record H cs) w' := by
  induction hc generalizing H with
  | other hp => exact h.tallies hp.tallies
  | call hlink hm => exact h.call hlink hm
  | trans _ _ ih ih' =>
    rw [record_append]
    exact ih' (ih h)

/-- A CONNECTED starts the record of its user anew. -/
theorem Recorded.connected (h : Recorded L H w) (b : BackendId) (j : Jid) (password : String) :
    Recorded L (fun u => if w.users j = some u then [] else H u)
      (Event.run (.received b (.connected j password)) w) := by
  have hnote := h.tallies (Proceeds.inert (.noteData b w)).tallies
  rcases connected_cases b j password w with ⟨hj, heq⟩ | ⟨v, hj, hq⟩
  · rw [heq]
    simpa only [hj, reduceCtorEq, if_false] using hnote
  · have hmark : Recorded L (fun u => if w.users j = some u then [] else H u)
        (markConnected v (noteData b w)) := by
      refine ⟨hnote.limit, fun u hu => ?_, fun u hu => ?_, fun u => ?_⟩
      · by_cases huv : u = v
        · subst huv
          have hlimit := (Prod.mk.inj (hnote.tally u hu)).2
          simp [markConnected, modUser, User.tally, recreations, hj, hlimit]
        · have hne : w.users j ≠ some u := by
            rw [hj]
            exact fun h => huv (Option.some.inj h).symm
          simp only [markConnected, modUser, Function.update_of_ne huv, if_neg hne]
          exact hnote.tally u hu
      · have hnil := hnote.fresh u hu
        simp [hnil]
      · split
        · trivial
        · exact h.paced u
    exact hmark.tallies (Proceeds.inert (.of_quiet hq fun _ he => he.silent)).tallies

end Record

/-! ## Every run -/

section Run

variable {tr : List (World × Event)} {w : World}

theorem callsOf_cons {e : Event} (hconn : ∀ b j pw, e ≠ .received b (.connected j pw)) :
    (fun u => callsOf u ((w, e) :: tr)) = record (fun u => callsOf u tr) (calls w e) := by
  funext u
  have hnot : e.connects u w = false := by
    unfold Event.connects
    split
    · rename_i b j pw
      exact absurd rfl (hconn b j pw)
    · rfl
  rw [callsOf, hnot]
  rfl

theorem callsOf_connected (b : BackendId) (j : Jid) (password : String) :
    (fun u => callsOf u ((w, .received b (.connected j password)) :: tr)) =
      fun u => if w.users j = some u then [] else callsOf u tr := by
  funext u
  simp [callsOf, Event.connects, calls]

theorem recorded_of_run (h : machine.Run tr w) :
    Recorded w.cfg.reconnectLimit (fun u => callsOf u tr) w := by
  suffices hall : Link none none w ∧ ∃ L, Recorded L (fun u => callsOf u tr) w by
    obtain ⟨-, L, hrec⟩ := hall
    rw [hrec.limit]
    exact hrec
  induction h with
  | init h0 =>
    obtain ⟨cfg, now, storage, rfl⟩ := h0
    refine ⟨link_start cfg now storage, cfg.reconnectLimit, rfl, fun u hu => ?_, fun _ _ => rfl,
      fun _ => trivial⟩
    exact absurd hu (Nat.not_lt_zero u)
  | @step tr w w' e _ hs ih =>
    obtain ⟨hlink, L, hrec⟩ := ih
    obtain ⟨-, -, rfl⟩ := step_eq_some hs
    refine ⟨hlink.run e, L, ?_⟩
    by_cases hconn : ∃ b j pw, e = .received b (.connected j pw)
    · obtain ⟨b, j, pw, rfl⟩ := hconn
      rw [callsOf_connected]
      exact hrec.connected b j pw
    · have hconn' : ∀ b j pw, e ≠ .received b (.connected j pw) :=
        fun b j pw heq => hconn ⟨b, j, pw, heq⟩
      rw [callsOf_cons hconn']
      exact .calling (.run hlink hconn') hrec

/-- No call is missing: the users of the calls of an event are those it disconnects. -/
theorem calls_dropped (h : machine.Run tr w) (e : Event) :
    (e.run w).dropped = ((calls w e).map Call.user).reverse ++ w.dropped := by
  by_cases hconn : ∃ b j pw, e = .received b (.connected j pw)
  · obtain ⟨b, j, pw, rfl⟩ := hconn
    have hnote := (Proceeds.inert (.noteData b w)).tallies.dropped
    rcases connected_cases b j pw w with ⟨-, heq⟩ | ⟨v, -, hq⟩
    · rw [heq]
      exact hnote
    · exact (hq.log.dropped fun e he => Effect.Silent.not_disconnected e he.silent).trans hnote
  · exact (Calling.run (link_of_run h) fun b j pw heq => hconn ⟨b, j, pw, heq⟩).dropped

/-- In every run, a user is re-created at most as often as the limit says since his last
CONNECTED, or his creation; and once he was, a disconnection that is not ignored removes him. -/
theorem reconnects_bounded (h : machine.Run tr w) (hL : 0 ≤ w.cfg.reconnectLimit) (u : UserId) :
    recreations (callsOf u tr) ≤ w.cfg.reconnectLimit ∧
      ∀ later c earlier, callsOf u tr = later ++ c :: earlier →
        recreations earlier = w.cfg.reconnectLimit → c.ignored = false →
        c.world.Managed c.user ∧ c.after.users (c.world.user c.user).jid = none := by
  have hpaced := (recorded_of_run h).paced u
  refine ⟨hpaced.recreations_le hL, fun later c earlier heq hcount hignored => ?_⟩
  rw [heq] at hpaced
  exact hpaced.append.1.removed hL hcount hignored

end Run

/-- A backend that refuses a user twice, with one reconnect allowed. -/
theorem reconnects_bounded_alice : ∃ tr w, machine.Run tr w ∧ w.cfg.reconnectLimit = 1 ∧
    (w.user 0).reconnectCounter = 1 ∧ w.users (Sample.jid "alice") = none ∧
    recreations (callsOf 0 tr) ≤ 1 := by
  have hexec : ∃ w, machine.exec (World.start { Sample.cfg with reconnectLimit := 1 } 0 none)
      [.presence (Sample.available "alice"), .backendConnected, .received 0 .pong,
        .received 0 (.disconnected (Sample.jid "alice") .networkError ""),
        .received 0 (.disconnected (Sample.jid "alice") .networkError "")] = some w ∧
      w.cfg.reconnectLimit = 1 ∧ (w.user 0).reconnectCounter = 1 ∧
      w.users (Sample.jid "alice") = none := ⟨_, by rfl, by rfl, by rfl, by rfl⟩
  obtain ⟨w, hw, hlimit, hcounter, hnone⟩ := hexec
  obtain ⟨tr, hrun, -⟩ := Lib.Machine.exists_run_of_exec (init_start _ 0 none) hw
  have hbound := (reconnects_bounded hrun (by rw [hlimit]; decide) 0).1
  rw [hlimit] at hbound
  exact ⟨tr, w, hrun, hlimit, hcounter, hnone, hbound⟩

end Spectrum
