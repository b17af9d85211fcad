import Mathlib.Data.String.Basic
import Spectrum.Lib.Machine
import Spectrum.Lib.SortedMap

/-!
# Who owns a SlackSession

`m_tempSessions` holds the sessions of users who are not there, a `SlackUser` holds his own one. A
session moves to the user when he is created and back when the legacy network disconnects him; it is
deleted with the user. `reconnectUser` makes a new session and does not look for others.

A user is named by his bare JID as `Swift::JID` prints it. A session is the number of its `new`, and
the sessions of a state are those that were not deleted. Using `NULL` for a session ends a run.
-/

namespace Spectrum.SlackUsers

open Lib

/-- A `SlackSession`: its JID, whether `m_user` is set and `m_disconnected`. -/
structure Session where
  jid : String
  user : Bool := false
  disconnected : Bool := false
  deriving DecidableEq, Repr

/-- `registration.auto_register`, or no need of registration. -/
structure Env where
  autoRegister : Bool := false

/-- The registered users, `m_tempSessions` and the users with their sessions. -/
structure State where
  registered : List String := []
  temp : SortedMap String Nat := {}
  users : SortedMap String Nat := {}
  sessions : SortedMap Nat Session := {}
  next : Nat := 0
  fault : Bool := false

namespace State

variable (s : State)

def modSession (p : Nat) (f : Session → Session) : State :=
  (s.sessions.get p).elim s fun x => { s with sessions := s.sessions.set p (f x) }

def reconnectUser (user : String) : State :=
  if user ∈ s.registered then
    { s with
      temp := s.temp.set user s.next
      sessions := s.sessions.set s.next { jid := user }
      next := s.next + 1 }
  else s

/-- `registerUser` and `reconnectUser` in `handleOAuth2Code`. -/
def register (user : String) : State :=
  ({ s with registered := user :: s.registered } : State).reconnectUser user

/-- The constructor of `SlackUser` and `handleUserCreated`. -/
def createUser (jid : String) : State :=
  match s.temp.get jid with
  | none => { s with fault := true }
  | some p =>
    ({ s with temp := s.temp.erase jid, users := s.users.set jid p } : State).modSession p fun x =>
      { x with user := true, disconnected := false }

/-- The user is stored if he is not registered and need not register himself. -/
def autoRegister (env : Env) (jid : String) : State :=
  if jid ∉ s.registered ∧ env.autoRegister then { s with registered := jid :: s.registered } else s

/-- `handlePresence` for an available presence of a session. `admitted` says whether a registered user
may use the transport: he is a VIP where he has to be, and has not disabled it. -/
def handlePresence (env : Env) (jid : String) (admitted : Bool) : State :=
  match s.users.get jid with
  | some _ => s
  | none =>
    let s := s.autoRegister env jid
    if jid ∈ s.registered ∧ admitted then s.createUser jid else s

/-- `SlackUser::disconnectUser` and the removal of the user, who has no session any more. -/
def disconnectUser (jid : String) (p : Nat) : State :=
  ({ s with temp := s.temp.set jid p, users := s.users.erase jid } : State).modSession p fun x =>
    { x with user := false, disconnected := true }

/-- `handleConnected` when the user reconnects automatically. -/
def reconnectAutomatically (p : Nat) : State := s.modSession p fun x => { x with disconnected := false }

/-- The user is deleted with his session. -/
def removeUser (jid : String) (p : Nat) : State :=
  { s with users := s.users.erase jid, sessions := s.sessions.erase p }

def unregisterUser (jid : String) : State :=
  if jid ∈ s.registered then
    let s := { s with registered := s.registered.filter (· ≠ jid) }
    (s.users.get jid).elim s fun p => s.removeUser jid p
  else s

end State

/-- The reports of the legacy network and the removals are about users who are there. -/
inductive Event
  | reconnectUser (user : String)
  | register (user : String)
  | presence (p : Nat) (admitted : Bool)
  | disconnected (user : String)
  | reconnected (user : String)
  | removeUser (user : String)
  | unregisterUser (user : String)
  deriving DecidableEq, Repr

def step (env : Env) (s : State) (e : Event) : Option State :=
  if s.fault then none
  else
    match e with
    | .reconnectUser user => some (s.reconnectUser user)
    | .register user => some (s.register user)
    | .presence p admitted =>
      (s.sessions.get p).map fun x => s.handlePresence env x.jid admitted
    | .disconnected user => (s.users.get user).map fun p => s.disconnectUser user p
    | .reconnected user => (s.users.get user).map fun p => s.reconnectAutomatically p
    | .removeUser user => (s.users.get user).map fun p => s.removeUser user p
    | .unregisterUser user => some (s.unregisterUser user)

/-- The users that are registered at start-up are any. -/
def machine (env : Env) : Machine State Event where
  init s := s = { registered := s.registered }
  step := step env

/-! ## Ownership -/

inductive Owner
  | temp (user : String)
  | user (jid : String)
  deriving DecidableEq, Repr

namespace State

def Holds (s : State) : Owner → Nat → Prop
  | .temp user, p => s.temp.get user = some p
  | .user jid, p => s.users.get jid = some p

/-- The JID of a session that was not deleted. -/
def jidOf (s : State) (p : Nat) : Option String := (s.sessions.get p).map Session.jid

/-- A session has one owner, a user has one session, and a user was never created without one. -/
structure Sound (s : State) : Prop where
  one : ∀ p, (s.jidOf p).isSome → ∃! o, s.Holds o p
  single : ∀ p q jid, s.jidOf p = some jid → s.jidOf q = some jid → p = q
  found : s.fault = false

/-- The owners hold sessions of their users, and no user is held twice. -/
structure Owned (s : State) : Prop where
  temp : ∀ user p, s.temp.get user = some p → s.jidOf p = some user
  users : ∀ jid p, s.users.get jid = some p → s.jidOf p = some jid
  held : ∀ p jid, s.jidOf p = some jid → s.temp.get jid = some p ∨ s.users.get jid = some p
  apart : ∀ jid p q, s.temp.get jid = some p → s.users.get jid = some q → False
  fresh : ∀ p, s.next ≤ p → s.jidOf p = none
  found : s.fault = false

end State

/-- A user who is registered has no session when one is made for him. -/
def Fits (s : State) : Event → Prop
  | .reconnectUser user => user ∈ s.registered → ∀ e ∈ s.sessions.entries, e.2.jid ≠ user
  | .register user => ∀ e ∈ s.sessions.entries, e.2.jid ≠ user
  | .presence .. | .disconnected _ | .reconnected _ | .removeUser _ | .unregisterUser _ => True

instance (s : State) (e : Event) : Decidable (Fits s e) :=
  match e with
  | .reconnectUser user => inferInstanceAs (Decidable
      (user ∈ s.registered → ∀ e ∈ s.sessions.entries, e.2.jid ≠ user))
  | .register user => inferInstanceAs (Decidable (∀ e ∈ s.sessions.entries, e.2.jid ≠ user))
  | .presence .. | .disconnected _ | .reconnected _ | .removeUser _ | .unregisterUser _ =>
    inferInstanceAs (Decidable True)

section Steps

variable {env : Env} {s s' : State} {e : Event} {user jid : String} {p q : Nat}

theorem State.Owned.sound (h : s.Owned) : s.Sound := by
  constructor
  · intro p hp
    obtain ⟨jid, hjid⟩ := Option.isSome_iff_exists.mp hp
    rcases h.held p jid hjid with hheld | hheld
    · refine ⟨.temp jid, hheld, ?_⟩
      rintro (user | other) hother
      · have hsame := h.temp user p hother
        rw [hjid] at hsame
        rw [Option.some_inj.mp hsame]
      · have hsame := h.users other p hother
        rw [hjid] at hsame
        cases hsame
        exact (h.apart jid p p hheld hother).elim
    · refine ⟨.user jid, hheld, ?_⟩
      rintro (user | other) hother
      · have hsame := h.temp user p hother
        rw [hjid] at hsame
        cases hsame
        exact (h.apart jid p p hother hheld).elim
      · have hsame := h.users other p hother
        rw [hjid] at hsame
        rw [Option.some_inj.mp hsame]
  · intro p q jid hp hq
    rcases h.held p jid hp with hp' | hp' <;> rcases h.held q jid hq with hq' | hq'
    · exact Option.some_inj.mp (hp'.symm.trans hq')
    · exact (h.apart jid p q hp' hq').elim
    · exact (h.apart jid q p hq' hp').elim
    · exact Option.some_inj.mp (hp'.symm.trans hq')
  · exact h.found

/-! ### The sessions -/

/-- A change of a session keeps its user. -/
theorem jidOf_modSession {f : Session → Session} (hf : ∀ x, (f x).jid = x.jid) :
    (s.modSession p f).jidOf q = s.jidOf q := by
  unfold State.modSession State.jidOf
  cases hp : s.sessions.get p with
  | none => rfl
  | some x =>
    simp only [Option.elim_some, SortedMap.get_set]
    split
    · rename_i heq
      rw [heq, hp]
      exact congrArg some (hf x)
    · rfl

theorem owned_modSession {f : Session → Session} (hf : ∀ x, (f x).jid = x.jid) (h : s.Owned) :
    (s.modSession p f).Owned := by
  have hsame : (s.modSession p f).temp = s.temp ∧ (s.modSession p f).users = s.users ∧
      (s.modSession p f).next = s.next ∧ (s.modSession p f).fault = s.fault := by
    unfold State.modSession
    cases s.sessions.get p <;> exact ⟨rfl, rfl, rfl, rfl⟩
  obtain ⟨htemp, husers, hnext, hfault⟩ := hsame
  constructor
  · intro user q hget
    rw [jidOf_modSession hf]
    exact h.temp user q (htemp ▸ hget)
  · intro jid q hget
    rw [jidOf_modSession hf]
    exact h.users jid q (husers ▸ hget)
  · intro q jid hjid
    rw [jidOf_modSession hf] at hjid
    rw [htemp, husers]
    exact h.held q jid hjid
  · intro jid q q' ht hu
    exact h.apart jid q q' (htemp ▸ ht) (husers ▸ hu)
  · intro q hq
    rw [jidOf_modSession hf]
    exact h.fresh q (hnext ▸ hq)
  · exact hfault.trans h.found

theorem jidOf_of_mem {x : Session} (hmem : (p, x) ∈ s.sessions.entries) :
    s.jidOf p = some x.jid := by
  rw [State.jidOf, SortedMap.mem_entries_iff.mp hmem]
  rfl

theorem forall_jid_ne_iff : (∀ e ∈ s.sessions.entries, e.2.jid ≠ user) ↔
    ∀ p, s.jidOf p ≠ some user := by
  constructor
  · intro h p hp
    obtain ⟨x, hx, rfl⟩ := Option.map_eq_some_iff.mp hp
    exact h (p, x) (SortedMap.mem_entries_iff.mpr hx) rfl
  · intro h e hmem heq
    exact h e.1 (heq ▸ jidOf_of_mem hmem)

/-! ### A session moves -/

/-- A user who is created takes the session that was kept for him. -/
theorem State.Owned.take (h : s.Owned) (hget : s.temp.get jid = some p) :
    ({ s with temp := s.temp.erase jid, users := s.users.set jid p } : State).Owned := by
  have hjid := h.temp jid p hget
  constructor
  · intro user q hq
    rw [SortedMap.get_erase] at hq
    split at hq
    · cases hq
    · exact h.temp user q hq
  · intro other q hq
    rw [SortedMap.get_set] at hq
    split at hq
    · rename_i heq
      cases hq
      rw [heq]
      exact hjid
    · exact h.users other q hq
  · intro q other hq
    rw [SortedMap.get_erase, SortedMap.get_set]
    rcases h.held q other hq with hheld | hheld
    · by_cases hother : other = jid
      · rw [hother, hget] at hheld
        rw [if_pos hother, if_pos hother]
        exact Or.inr hheld
      · rw [if_neg hother]
        exact Or.inl hheld
    · have hother : other ≠ jid := by
        rintro rfl
        exact h.apart other p q hget hheld
      rw [if_neg hother, if_neg hother]
      exact Or.inr hheld
  · intro other q q' hq hq'
    rw [SortedMap.get_erase] at hq
    rw [SortedMap.get_set] at hq'
    split at hq
    · cases hq
    · rename_i hother
      rw [if_neg hother] at hq'
      exact h.apart other q q' hq hq'
  · exact h.fresh
  · exact h.found

/-- Owners of both kinds are alike. -/
theorem State.Owned.swap (h : s.Owned) :
    ({ s with temp := s.users, users := s.temp } : State).Owned where
  temp := h.users
  users := h.temp
  held p jid hp := (h.held p jid hp).symm
  apart jid p q hp hq := h.apart jid q p hq hp
  fresh := h.fresh
  found := h.found

/-- The session of a user who is disconnected is kept for him. -/
theorem State.Owned.giveBack (h : s.Owned) (hget : s.users.get jid = some p) :
    ({ s with temp := s.temp.set jid p, users := s.users.erase jid } : State).Owned :=
  (h.swap.take hget).swap

theorem State.Owned.remove (h : s.Owned) (hget : s.users.get jid = some p) :
    (s.removeUser jid p).Owned := by
  have hlive : ∀ q, (s.removeUser jid p).jidOf q = if q = p then none else s.jidOf q := by
    intro q
    unfold State.removeUser State.jidOf
    simp only [SortedMap.get_erase]
    split <;> rfl
  have hjid := h.users jid p hget
  constructor
  · intro user q hq
    have hold := h.temp user q hq
    rw [hlive, if_neg]
    · exact hold
    · rintro rfl
      cases hjid.symm.trans hold
      exact h.apart _ _ _ hq hget
  · intro other q hq
    have hq : (s.users.erase jid).get other = some q := hq
    rw [SortedMap.get_erase] at hq
    split at hq
    · cases hq
    · rename_i hother
      have hold := h.users other q hq
      rw [hlive, if_neg]
      · exact hold
      · rintro rfl
        exact hother (Option.some_inj.mp (hold.symm.trans hjid))
  · intro q other hq
    rw [hlive] at hq
    split at hq
    · cases hq
    · rename_i hne
      refine (h.held q other hq).imp_right fun hheld => ?_
      refine (SortedMap.get_erase_of_ne ?_).trans hheld
      rintro rfl
      exact hne (Option.some_inj.mp (hheld.symm.trans hget))
  · intro other q q' hq hq'
    have hq' : (s.users.erase jid).get other = some q' := hq'
    rw [SortedMap.get_erase] at hq'
    split at hq'
    · cases hq'
    · exact h.apart other q q' hq hq'
  · intro q hq
    rw [hlive]
    split
    · rfl
    · exact h.fresh q hq
  · exact h.found

/-! ### A session is made -/

/-- The new session of a user and the old ones. -/
theorem jidOf_reconnectUser (hmem : user ∈ s.registered) (q : Nat) :
    (s.reconnectUser user).jidOf q = if q = s.next then some user else s.jidOf q := by
  rw [State.reconnectUser, if_pos hmem]
  unfold State.jidOf
  simp only [SortedMap.get_set]
  split <;> rfl

theorem State.Owned.reconnect (h : s.Owned) (hmem : user ∈ s.registered)
    (hnone : ∀ p, s.jidOf p ≠ some user) : (s.reconnectUser user).Owned := by
  have hlive := jidOf_reconnectUser (s := s) hmem
  have htemp : ∀ other, (s.reconnectUser user).temp.get other =
      if other = user then some s.next else s.temp.get other := by
    intro other
    rw [State.reconnectUser, if_pos hmem]
    exact SortedMap.get_set _ _ _ _
  have husers : (s.reconnectUser user).users = s.users := by
    rw [State.reconnectUser, if_pos hmem]
  have hold : ∀ q jid, s.jidOf q = some jid → (s.reconnectUser user).jidOf q = some jid := by
    intro q jid hq
    rw [hlive, if_neg]
    · exact hq
    · rintro rfl
      rw [h.fresh _ le_rfl] at hq
      cases hq
  constructor
  · intro other q hq
    rw [htemp] at hq
    split at hq
    · rename_i heq
      rw [← Option.some_inj.mp hq, heq, hlive, if_pos rfl]
    · exact hold q other (h.temp other q hq)
  · intro other q hq
    exact hold q other (h.users other q (husers ▸ hq))
  · intro q other hq
    rw [hlive] at hq
    rw [htemp, husers]
    split at hq
    · rename_i heq
      rw [heq, if_pos (Option.some_inj.mp hq).symm]
      exact Or.inl rfl
    · have hother : other ≠ user := by
        rintro rfl
        exact hnone q hq
      rw [if_neg hother]
      exact h.held q other hq
  · intro other q q' hq hq'
    rw [htemp] at hq
    rw [husers] at hq'
    split at hq
    · rename_i heq
      exact hnone q' (heq ▸ h.users other q' hq')
    · exact h.apart other q q' hq hq'
  · intro q hq
    have hnext : (s.reconnectUser user).next = s.next + 1 := by
      rw [State.reconnectUser, if_pos hmem]
    rw [hnext] at hq
    rw [hlive, if_neg (by omega)]
    exact h.fresh q (by omega)
  · rw [State.reconnectUser, if_pos hmem]
    exact h.found

/-- A second session of a user is seen at once. -/
theorem jid_ne_of_sound (h : s.Owned) (hmem : user ∈ s.registered)
    (hsound : (s.reconnectUser user).Sound) : ∀ p, s.jidOf p ≠ some user := by
  intro p hp
  have hlt : p ≠ s.next := by
    rintro rfl
    rw [h.fresh _ le_rfl] at hp
    cases hp
  have hlive := jidOf_reconnectUser (s := s) hmem
  refine hlt (hsound.single p s.next user ?_ ?_)
  · rw [hlive, if_neg hlt]
    exact hp
  · rw [hlive, if_pos rfl]

/-! ### The events -/

/-- Which users are registered does not matter for what is owned. -/
theorem owned_registered (h : s.Owned) (registered : List String) :
    ({ s with registered } : State).Owned where
  temp := h.temp
  users := h.users
  held := h.held
  apart := h.apart
  fresh := h.fresh
  found := h.found

theorem owned_createUser (h : s.Owned) (hjid : s.jidOf p = some jid) (hnone : s.users.get jid = none) :
    (s.createUser jid).Owned := by
  have hget : s.temp.get jid = some p := by
    refine (h.held p jid hjid).resolve_right fun hheld => ?_
    rw [hnone] at hheld
    cases hheld
  unfold State.createUser
  simp only [hget]
  exact owned_modSession (fun _ => rfl) (h.take hget)

theorem autoRegister_same (env : Env) (s : State) (jid : String) :
    (∀ p, (s.autoRegister env jid).jidOf p = s.jidOf p) ∧ (s.autoRegister env jid).users = s.users := by
  unfold State.autoRegister
  split
  · exact ⟨fun _ => rfl, rfl⟩
  · exact ⟨fun _ => rfl, rfl⟩

theorem owned_autoRegister (h : s.Owned) (jid : String) : (s.autoRegister env jid).Owned := by
  unfold State.autoRegister
  split
  · exact owned_registered h _
  · exact h

theorem owned_handlePresence (h : s.Owned) (hjid : s.jidOf p = some jid) (admitted : Bool) :
    (s.handlePresence env jid admitted).Owned := by
  unfold State.handlePresence
  cases hget : s.users.get jid with
  | some q => exact h
  | none =>
    have howned : (s.autoRegister env jid).Owned := owned_autoRegister h jid
    obtain ⟨hjidOf, husers⟩ := autoRegister_same env s jid
    dsimp only
    split
    · exact owned_createUser howned ((hjidOf p).trans hjid) (by rw [husers]; exact hget)
    · exact howned

theorem owned_unregisterUser (h : s.Owned) : (s.unregisterUser user).Owned := by
  unfold State.unregisterUser
  simp only
  split
  · cases hget : s.users.get user with
    | none => exact owned_registered h _
    | some p => exact (owned_registered h _).remove hget
  · exact h

/-- A session that is made for a user who has none keeps all owned, another one does not. -/
theorem State.Owned.step (h : s.Owned) (hs : step env s e = some s') :
    (s'.Sound → Fits s e) ∧ (Fits s e → s'.Owned) := by
  simp only [SlackUsers.step, h.found, Bool.false_eq_true, if_false] at hs
  cases e with
  | reconnectUser user =>
    cases hs
    by_cases hmem : user ∈ s.registered
    · rw [Fits, forall_jid_ne_iff]
      exact ⟨fun hsound _ => jid_ne_of_sound h hmem hsound, fun hfits => h.reconnect hmem (hfits hmem)⟩
    · rw [State.reconnectUser, if_neg hmem]
      exact ⟨fun _ hin => absurd hin hmem, fun _ => h⟩
  | register user =>
    cases hs
    rw [Fits, forall_jid_ne_iff]
    have hreg := owned_registered h (user :: s.registered)
    constructor
    · intro hsound
      have hne := jid_ne_of_sound hreg List.mem_cons_self hsound
      exact hne
    · intro hfits
      exact hreg.reconnect List.mem_cons_self hfits
  | presence p admitted =>
    obtain ⟨x, hx, rfl⟩ := Option.map_eq_some_iff.mp hs
    have hjid : s.jidOf p = some x.jid := congrArg (Option.map Session.jid) hx
    exact ⟨fun _ => trivial, fun _ => owned_handlePresence h hjid admitted⟩
  | disconnected user =>
    obtain ⟨p, hget, rfl⟩ := Option.map_eq_some_iff.mp hs
    exact ⟨fun _ => trivial, fun _ => owned_modSession (fun _ => rfl) (h.giveBack hget)⟩
  | reconnected user =>
    obtain ⟨p, -, rfl⟩ := Option.map_eq_some_iff.mp hs
    exact ⟨fun _ => trivial, fun _ => owned_modSession (fun _ => rfl) h⟩
  | removeUser user =>
    obtain ⟨p, hget, rfl⟩ := Option.map_eq_some_iff.mp hs
    exact ⟨fun _ => trivial, fun _ => h.remove hget⟩
  | unregisterUser user =>
    cases hs
    exact ⟨fun _ => trivial, fun _ => owned_unregisterUser h⟩

end Steps

/-- The sessions are owned as they should be in all states of a run exactly when no session is made
for a registered user who has one. -/
theorem sessions_sound_iff_fits (env : Env) {tr : List (State × Event)} {s : State}
    (h : (machine env).Run tr s) : Machine.Always State.Sound tr s ↔ Machine.Meets Fits tr := by
  refine Machine.Run.always_iff (I := State.Owned) (fun s hinit => ?_) (fun s hs => hs.sound)
    (fun s e s' hs howned hfits => (howned.step hs).2 hfits)
    (fun s e s' hs howned hsound => (howned.step hs).1 hsound) h
  rw [hinit]
  constructor
  · intro user p hget
    cases hget
  · intro jid p hget
    cases hget
  · intro p jid hjid
    cases hjid
  · intro jid p q hget
    cases hget
  · intro p _
    rfl
  · rfl

namespace Sample

def registered : State := { registered := ["team"] }

/-- The user comes, is disconnected and comes back. -/
def visit : List Event :=
  [.reconnectUser "team", .presence 0 true, .disconnected "team", .presence 0 true, .removeUser "team",
    .reconnectUser "team"]

/-- A registration of a user who is online. -/
def again : List Event := [.reconnectUser "team", .presence 0 true, .register "team"]

end Sample

theorem sessions_sound_iff_fits_visit : ∃ tr s, (machine {}).Run tr s ∧
    s.sessions.entries = [(1, { jid := "team" })] ∧ Machine.Always State.Sound tr s := by
  have hexec : (((machine {}).restrict Fits).exec Sample.registered Sample.visit).any (fun s =>
      decide (s.sessions.entries = [(1, { jid := "team" })])) = true := by
    decide +kernel
  obtain ⟨s, hs, hsessions⟩ := (Option.any_eq_true _ _).mp hexec
  obtain ⟨tr, hrun, hmeets⟩ := Machine.exists_run_of_restrict rfl hs
  exact ⟨tr, s, hrun, of_decide_eq_true hsessions, (sessions_sound_iff_fits {} hrun).mpr hmeets⟩

/-- The user has two sessions. -/
theorem not_sound_of_again : ∃ tr s, (machine {}).Run tr s ∧ ¬ s.Sound := by
  have hexec : ((machine {}).exec Sample.registered Sample.again).any (fun s => decide (
      s.jidOf 0 = some "team" ∧ s.jidOf 1 = some "team")) = true := by
    decide +kernel
  obtain ⟨s, hs, hjids⟩ := (Option.any_eq_true _ _).mp hexec
  obtain ⟨tr, hrun, -⟩ := Machine.exists_run_of_exec rfl hs
  obtain ⟨hzero, hone⟩ := of_decide_eq_true hjids
  exact ⟨tr, s, hrun, fun hsound => absurd (hsound.single 0 1 "team" hzero hone) (by decide)⟩

end Spectrum.SlackUsers
