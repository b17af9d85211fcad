import Mathlib.Data.String.Basic
import Spectrum.Lib.Machine
import Spectrum.Lib.SortedMap
import Spectrum.Model.Stanza

/-!
# The cached User

`getUser` remembers the last user that it found. A user who is removed leaves `m_users` and the cache
first; then the handlers of two signals run before he is deleted, and the handlers of another one run
while a user is created.

What a function does after a signal is a frame on a stack. While there is a frame the handlers may
call any function of the manager, and the calls in them may do the same. A user is the number of his
`new`. Every answer of `getUser` is recorded.
-/

namespace Spectrum.UserCache

open Lib

/-- The options that are read here, the JID of the component, and `Swift::JID` made from a text. -/
structure Env where
  serverMode : Bool := false
  adminJids : List String := []
  jid : Jid
  jidOf : String → Jid

/-- What is done when the handlers of a signal have run. -/
inductive Frame
  | handlePresence (userkey : String)
  | removeUser (user : Nat)
  | removeAllUsers
  | handleRemoveTimeout (jid : String) (reconnect : Bool)
  deriving DecidableEq, Repr

/-- An answer of `getUser`, with the entry of `m_users` and the users who had been removed. -/
structure Answer where
  barejid : String
  user : Option Nat
  entry : Option Nat
  removed : List Nat
  deriving DecidableEq, Repr

/-- `m_users` and `m_cachedUser`, and the JIDs of the users who are not deleted. -/
structure State where
  users : SortedMap String Nat := {}
  cachedUser : Option Nat := none
  jids : SortedMap Nat Jid := {}
  next : Nat := 0
  removed : List Nat := []
  answers : List Answer := []
  stack : List Frame := []

namespace State

variable (env : Env) (s : State)

/-- `user->getJID().toBare().toString()`. -/
def keyOf (user : Nat) : Option String := (s.jids.get user).map fun jid => jid.toBare.toString

def push (f : Frame) : State := { s with stack := f :: s.stack }

def find (barejid : String) : Option Nat :=
  if ∃ user ∈ s.cachedUser, s.keyOf user = some barejid then s.cachedUser else s.users.get barejid

def getUser (barejid : String) : State :=
  let user := s.find barejid
  { s with
    cachedUser := user.or s.cachedUser
    answers := ⟨barejid, user, s.users.get barejid, s.removed⟩ :: s.answers }

/-- A new user is created and added. -/
def addUser (jid : Jid) : State :=
  { s with
    users := s.users.set jid.toBare.toBare.toString s.next
    jids := s.jids.set s.next jid.toBare
    next := s.next + 1 }

/-- `admitted` says whether the user may use the transport, which the storage and the options decide.
`User::handlePresence` makes its calls after the last `getUser`. -/
def handlePresence (p : Presence) (admitted : Bool) : State :=
  let userkey := p.fromJid.toBare.toString
  let user := s.find userkey
  let s := s.getUser userkey
  match user with
  | some _ => s.getUser userkey
  | none =>
    if env.serverMode = true ∧ userkey ∈ env.adminJids then s
    else if p.type = .unavailable ∨ p.type = .probe then s
    else if admitted then (s.addUser p.fromJid).push (.handlePresence userkey)
    else s

/-- `disconnectUser` simulates an unavailable presence. -/
def disconnectUser (jid : Jid) : State :=
  s.handlePresence env { fromJid := jid, toJid := env.jid, type := .unavailable } false

def connectUser (jid : Jid) (admitted : Bool) : State :=
  if (s.users.get jid.toBare.toString).isSome then s
  else s.handlePresence env { fromJid := jid, toJid := env.jid } admitted

/-- A user who is in `m_users` is removed. -/
def removeUser (user : Nat) : State :=
  match s.jids.get user with
  | none => s
  | some jid =>
    let s := ({ s with
      users := s.users.erase jid.toBare.toString
      cachedUser := if s.cachedUser = some user then none else s.cachedUser
      removed := user :: s.removed } : State).push (.removeUser user)
    if env.serverMode then s.disconnectUser env jid else s

def removeAllUsers : State :=
  match s.users.entries with
  | [] => s
  | (_, user) :: _ => (s.push .removeAllUsers).removeUser env user

/-- `u` is only compared with the user that is found. -/
def handleRemoveTimeout (jid : String) (u : Nat) (reconnect : Bool) : State :=
  let user := s.find jid
  let s := s.getUser jid
  if user = some u then (s.push (.handleRemoveTimeout jid reconnect)).removeUser env u
  else s

/-- The handlers of the last signal have run. -/
def resume (admitted : Bool) : Frame → State
  | .handlePresence userkey => s.getUser userkey
  | .removeUser user => { s with jids := s.jids.erase user }
  | .removeAllUsers => s.removeAllUsers env
  | .handleRemoveTimeout jid reconnect =>
    if reconnect then s.connectUser env (env.jidOf jid) admitted else s

end State

/-- The calls, from outside or from a handler, and the end of the handlers. -/
inductive Event
  | handlePresence (p : Presence) (admitted : Bool)
  | getUser (barejid : String)
  | removeUser (user : Nat)
  | removeAllUsers
  | handleRemoveTimeout (jid : String) (u : Nat) (reconnect : Bool)
  | connectUser (jid : Jid) (admitted : Bool)
  | resume (admitted : Bool)
  deriving DecidableEq, Repr

/-- The callers of `removeUser` have the user from `m_users`. -/
def step (env : Env) (s : State) : Event → Option State
  | .handlePresence p admitted => some (s.handlePresence env p admitted)
  | .getUser barejid => some (s.getUser barejid)
  | .removeUser user =>
    if user ∈ s.users.entries.map Prod.snd then some (s.removeUser env user) else none
  | .removeAllUsers => some (s.removeAllUsers env)
  | .handleRemoveTimeout jid u reconnect => some (s.handleRemoveTimeout env jid u reconnect)
  | .connectUser jid admitted => some (s.connectUser env jid admitted)
  | .resume admitted =>
    match s.stack with
    | [] => none
    | f :: stack => some (({ s with stack } : State).resume env admitted f)

def machine (env : Env) : Machine State Event where
  init s := s = {}
  step := step env

/-! ## Coherence -/

/-- The answer is the entry of `m_users` at that time, and not a user who had been removed. -/
def Answer.Right (a : Answer) : Prop := a.user = a.entry ∧ ∀ user ∈ a.user, user ∉ a.removed

structure State.Coherent (s : State) : Prop where
  cached : ∀ user, s.cachedUser = some user → ∃ key, s.users.get key = some user
  keys : ∀ key user, s.users.get key = some user → s.keyOf user = some key
  answers : ∀ a ∈ s.answers, a.Right

/-- A user who was removed is not in `m_users`, and only such users are deleted. -/
structure State.Inv (s : State) : Prop extends s.Coherent where
  apart : ∀ key user, s.users.get key = some user → user ∉ s.removed
  fresh : ∀ user, user ∈ s.removed → user < s.next
  known : ∀ user jid, s.jids.get user = some jid → user < s.next ∧ jid.toBare = jid
  dying : ∀ user, .removeUser user ∈ s.stack → user ∈ s.removed

section Steps

variable {env : Env} {s s' : State} {user : Nat} {key barejid : String}

/-! ### Lookups -/

/-- The cache does not change what is found. -/
theorem State.Inv.find_eq (h : s.Inv) (barejid : String) : s.find barejid = s.users.get barejid := by
  unfold State.find
  split
  · rename_i hhit
    obtain ⟨user, hcached, hkey⟩ := hhit
    obtain ⟨key, hget⟩ := h.cached user hcached
    rw [h.keys key user hget] at hkey
    rw [← Option.some_inj.mp hkey, hget]
    exact hcached
  · rfl

theorem State.Inv.getUser (h : s.Inv) (barejid : String) : (s.getUser barejid).Inv := by
  have hfind := h.find_eq barejid
  refine ⟨⟨?_, h.keys, ?_⟩, h.apart, h.fresh, h.known, h.dying⟩
  · intro user hcached
    rcases Option.or_eq_some_iff.mp hcached with hfound | ⟨-, hcached⟩
    · exact ⟨barejid, hfind.symm.trans hfound⟩
    · exact h.cached user hcached
  · intro a ha
    rcases List.mem_cons.mp ha with rfl | ha
    · refine ⟨hfind, fun user huser => ?_⟩
      exact h.apart barejid user (hfind.symm.trans huser)
    · exact h.answers a ha

theorem State.Inv.push (h : s.Inv) {f : Frame} (hf : ∀ user, f = .removeUser user → user ∈ s.removed) :
    (s.push f).Inv := by
  refine ⟨⟨h.cached, h.keys, h.answers⟩, h.apart, h.fresh, h.known, fun user huser => ?_⟩
  rcases List.mem_cons.mp huser with heq | huser
  · exact hf user heq.symm
  · exact h.dying user huser

/-! ### Users come and go -/

/-- A new user takes a key that is not in use. -/
theorem State.Inv.addUser (h : s.Inv) {jid : Jid} (hnone : s.users.get jid.toBare.toString = none) :
    (s.addUser jid).Inv := by
  have hkeyOf : ∀ user, (s.addUser jid).keyOf user =
      if user = s.next then some jid.toBare.toString else s.keyOf user := by
    intro user
    unfold State.addUser State.keyOf
    simp only [SortedMap.get_set]
    split <;> rfl
  have hlt : ∀ key user, s.users.get key = some user → user < s.next := by
    intro key user hget
    obtain ⟨jid, hjid, -⟩ := Option.map_eq_some_iff.mp (h.keys key user hget)
    exact (h.known user jid hjid).1
  have hget : ∀ key, (s.addUser jid).users.get key =
      if key = jid.toBare.toString then some s.next else s.users.get key :=
    fun key => SortedMap.get_set _ _ _ _
  constructor
  · constructor
    · intro user hcached
      obtain ⟨key, hold⟩ := h.cached user hcached
      refine ⟨key, ?_⟩
      rw [hget, if_neg]
      · exact hold
      · rintro rfl
        cases hnone.symm.trans hold
    · intro key user hkey
      rw [hget] at hkey
      rw [hkeyOf]
      split at hkey
      · rename_i heq
        rw [if_pos (Option.some_inj.mp hkey).symm, heq]
      · rw [if_neg (Nat.ne_of_lt (hlt key user hkey))]
        exact h.keys key user hkey
    · exact h.answers
  · intro key user hkey hremoved
    rw [hget] at hkey
    split at hkey
    · have hold := h.fresh user hremoved
      rw [← Option.some_inj.mp hkey] at hold
      exact Nat.lt_irrefl _ hold
    · exact h.apart key user hkey hremoved
  · intro user hremoved
    exact Nat.lt_succ_of_lt (h.fresh user hremoved)
  · intro user jid' hjid
    have hjid : (s.jids.set s.next jid.toBare).get user = some jid' := hjid
    rw [SortedMap.get_set] at hjid
    split at hjid
    · rename_i heq
      rw [← Option.some_inj.mp hjid, heq]
      exact ⟨Nat.lt_succ_self _, rfl⟩
    · obtain ⟨hlt, hbare⟩ := h.known user jid' hjid
      exact ⟨Nat.lt_succ_of_lt hlt, hbare⟩
  · exact h.dying

theorem State.Inv.handlePresence (h : s.Inv) (p : Presence) (admitted : Bool) :
    (s.handlePresence env p admitted).Inv := by
  have hlooked := h.getUser p.fromJid.toBare.toString
  unfold State.handlePresence
  simp only
  split
  · exact hlooked.getUser _
  · rename_i hnone
    rw [h.find_eq] at hnone
    split
    · exact hlooked
    · split
      · exact hlooked
      · split
        · exact (hlooked.addUser hnone).push fun user heq => Frame.noConfusion heq
        · exact hlooked

theorem State.Inv.connectUser (h : s.Inv) (jid : Jid) (admitted : Bool) :
    (s.connectUser env jid admitted).Inv := by
  unfold State.connectUser
  split
  · exact h
  · exact h.handlePresence _ _

/-- A user who is removed leaves the map and the cache. -/
theorem State.Inv.erase (h : s.Inv) {jid : Jid} (hjid : s.jids.get user = some jid)
    (hget : s.users.get jid.toBare.toString = some user) : ({ s with
      users := s.users.erase jid.toBare.toString
      cachedUser := if s.cachedUser = some user then none else s.cachedUser
      removed := user :: s.removed } : State).Inv := by
  constructor
  · constructor
    · intro other hcached
      have hcached : (if s.cachedUser = some user then none else s.cachedUser) = some other :=
        hcached
      split at hcached
      · cases hcached
      · rename_i hne
        obtain ⟨key, hold⟩ := h.cached other hcached
        refine ⟨key, (SortedMap.get_erase_of_ne ?_).trans hold⟩
        rintro rfl
        rw [hcached] at hne
        exact hne (hold.symm.trans hget)
    · intro key other hother
      rw [SortedMap.get_erase] at hother
      split at hother
      · cases hother
      · exact h.keys key other hother
    · exact h.answers
  · intro key other hother hremoved
    rw [SortedMap.get_erase] at hother
    split at hother
    · cases hother
    · rename_i hkey
      rcases List.mem_cons.mp hremoved with rfl | hremoved
      · have hsame := h.keys key other hother
        rw [State.keyOf, hjid] at hsame
        exact hkey (Option.some_inj.mp hsame).symm
      · exact h.apart key other hother hremoved
  · intro other hremoved
    rcases List.mem_cons.mp hremoved with rfl | hremoved
    · exact (h.known other jid hjid).1
    · exact h.fresh other hremoved
  · exact h.known
  · intro other hother
    exact List.mem_cons_of_mem _ (h.dying other hother)

theorem State.Inv.removeUser (h : s.Inv) (hget : s.users.get key = some user) :
    (s.removeUser env user).Inv := by
  obtain ⟨jid, hjid, rfl⟩ := Option.map_eq_some_iff.mp (h.keys key user hget)
  have hpushed := (h.erase hjid hget).push (f := .removeUser user) fun other heq => by
    cases heq
    exact List.mem_cons_self
  unfold State.removeUser
  rw [hjid]
  simp only
  split
  · exact hpushed.handlePresence _ _
  · exact hpushed

theorem State.Inv.removeAllUsers (h : s.Inv) : (s.removeAllUsers env).Inv := by
  unfold State.removeAllUsers
  split
  · exact h
  · rename_i key user entries hentries
    have hget : s.users.get key = some user :=
      SortedMap.mem_entries_iff.mp (hentries ▸ List.mem_cons_self)
    have hpushed := h.push (f := .removeAllUsers) fun user heq => Frame.noConfusion heq
    exact hpushed.removeUser hget

theorem State.Inv.handleRemoveTimeout (h : s.Inv) (jid : String) (u : Nat) (reconnect : Bool) :
    (s.handleRemoveTimeout env jid u reconnect).Inv := by
  have hlooked := h.getUser jid
  unfold State.handleRemoveTimeout
  simp only
  split
  · rename_i hfound
    rw [h.find_eq] at hfound
    exact (hlooked.push fun user heq => Frame.noConfusion heq).removeUser hfound
  · exact hlooked

/-- The user who is deleted was removed before. -/
theorem State.Inv.delete (h : s.Inv) (hremoved : user ∈ s.removed) :
    ({ s with jids := s.jids.erase user } : State).Inv := by
  refine ⟨⟨h.cached, ?_, h.answers⟩, h.apart, h.fresh, ?_, h.dying⟩
  · intro key other hget
    have hne : other ≠ user := by
      rintro rfl
      exact h.apart key other hget hremoved
    rw [State.keyOf, SortedMap.get_erase_of_ne hne]
    exact h.keys key other hget
  · intro other jid hjid
    rw [SortedMap.get_erase] at hjid
    split at hjid
    · cases hjid
    · exact h.known other jid hjid

theorem State.Inv.resume {f : Frame} {stack : List Frame} (h : s.Inv) (hstack : s.stack = f :: stack)
    (admitted : Bool) : (({ s with stack } : State).resume env admitted f).Inv := by
  have hpopped : ({ s with stack } : State).Inv := by
    refine ⟨⟨h.cached, h.keys, h.answers⟩, h.apart, h.fresh, h.known, fun user huser => ?_⟩
    exact h.dying user (hstack ▸ List.mem_cons_of_mem _ huser)
  cases f with
  | handlePresence userkey => exact hpopped.getUser userkey
  | removeUser user => exact hpopped.delete (h.dying user (hstack ▸ List.mem_cons_self))
  | removeAllUsers => exact hpopped.removeAllUsers
  | handleRemoveTimeout jid reconnect =>
    unfold State.resume
    simp only
    split
    · exact hpopped.connectUser _ _
    · exact hpopped

theorem State.Inv.step {e : Event} (h : s.Inv) (hs : step env s e = some s') : s'.Inv := by
  cases e with
  | handlePresence p admitted =>
    cases hs
    exact h.handlePresence p admitted
  | getUser barejid =>
    cases hs
    exact h.getUser barejid
  | removeUser user =>
    simp only [UserCache.step] at hs
    split at hs
    · rename_i hmem
      cases hs
      obtain ⟨⟨key, user⟩, hentry, rfl⟩ := List.mem_map.mp hmem
      exact h.removeUser (SortedMap.mem_entries_iff.mp hentry)
    · cases hs
  | removeAllUsers =>
    cases hs
    exact h.removeAllUsers
  | handleRemoveTimeout jid u reconnect =>
    cases hs
    exact h.handleRemoveTimeout jid u reconnect
  | connectUser jid admitted =>
    cases hs
    exact h.connectUser jid admitted
  | resume admitted =>
    simp only [UserCache.step] at hs
    split at hs
    · cases hs
    · rename_i f stack hstack
      cases hs
      exact h.resume hstack admitted

end Steps

/-- In every state, also while handlers run, the cache holds a user of `m_users`, the keys are the
JIDs of the users, and `getUser` has only given the entries of the map. -/
theorem coherent_of_run (env : Env) {tr : List (State × Event)} {s : State}
    (h : (machine env).Run tr s) : Machine.Always State.Coherent tr s := by
  have hinv : ∀ tr s, (machine env).Run tr s → s.Inv := by
    intro tr s h
    refine Machine.Run.invariant (I := State.Inv) (fun s hinit => ?_)
      (fun s e s' hs hinv => hinv.step hs) h
    rw [hinit]
    refine ⟨⟨?_, ?_, ?_⟩, ?_, ?_, ?_, ?_⟩
    · intro user hcached
      cases hcached
    · intro key user hget
      cases hget
    · exact List.forall_mem_nil _
    · intro key user hget
      cases hget
    · intro user hremoved
      cases hremoved
    · intro user jid hjid
      cases hjid
    · intro user hdying
      cases hdying
  refine ⟨(hinv tr s h).toCoherent, fun p hp => ?_⟩
  obtain ⟨tr', hrun, -⟩ := h.source p hp
  exact (hinv tr' p.1 hrun).toCoherent

namespace Sample

def env : Env where
  serverMode := true
  jid := ⟨"", "irc.example.com", ""⟩
  jidOf text := ⟨"", text, ""⟩

def romeo : Jid := ⟨"romeo", "example.com", "balcony"⟩

/-- Romeo is removed by the timer. The handlers of the removal look for him and let him in again. -/
def visit : List Event :=
  [.handlePresence { fromJid := romeo, toJid := env.jid } true, .resume true,
    .handleRemoveTimeout "romeo@example.com" 0 false, .getUser "romeo@example.com",
    .handlePresence { fromJid := romeo, toJid := env.jid } true, .resume true, .resume true,
    .getUser "romeo@example.com"]

end Sample

open Sample in
theorem coherent_of_run_visit : ∃ tr s, (machine env).Run tr s ∧
    s.answers.map Answer.user =
      [some 1, some 1, none, none, none, some 0, some 0, none] ∧
    Machine.Always State.Coherent tr s := by
  have hfinal : ((machine env).exec {} visit).map (fun s => s.answers.map Answer.user) =
      some [some 1, some 1, none, none, none, some 0, some 0, none] := by
    decide +kernel
  obtain ⟨s, hs, hanswers⟩ := Option.map_eq_some_iff.mp hfinal
  obtain ⟨tr, hrun, -⟩ := Machine.exists_run_of_exec rfl hs
  exact ⟨tr, s, hrun, hanswers, coherent_of_run env hrun⟩

end Spectrum.UserCache
