import Mathlib.Data.Int.Bitwise
import Mathlib.Data.String.Basic
import Spectrum.Lib.Machine
import Spectrum.Lib.SortedMap
import Spectrum.Storage.Buddies

/-!
# RosterManager and RosterStorage

The roster maps lower-cased names to pointers, the queue of `RosterStorage` maps names to pointers.
`getBuddy` looks up with `operator[]`, which inserts `NULL` for a key that is not there. A buddy that
is deleted is no longer on the heap; its pointer is not used again.

A setter of a buddy calls `storeBuddy`, except the one of the flag `BUDDY_BLOCKED`.

The storage has the rows of one user, each with the buddy it belongs to, and its operations succeed:
an `INSERT` that would fail leaves the model. Other undefined steps are the use of a pointer to a
deleted buddy. The log records what happened to the buddies.
-/

namespace Spectrum.Roster

open Lib Storage

/-- A `LocalBuddy`. His id is -1 until he is stored. -/
structure Buddy where
  id : Int
  data : BuddyData
  deriving DecidableEq, Repr

structure Row where
  id : Int
  data : BuddyData
  owner : Option Nat
  deriving DecidableEq, Repr

inductive Act
  | set (p : Nat)
  | stored (p : Nat)
  | removed (p : Nat)
  | written (p : Nat)
  deriving DecidableEq, Repr

/-- The pointer that is spoken of. -/
def Act.pointer : Act → Nat
  | .set p | .stored p | .removed p | .written p => p

structure State where
  heap : Nat → Option Buddy := fun _ => none
  next : Nat := 0
  buddies : SortedMap String (Option Nat) := {}
  queue : SortedMap String Nat := {}
  rows : List Row := []
  log : List Act := []
  alive : Bool := true

/-- `BUDDY_BLOCKED`. -/
def buddyBlocked : Int := 8

/-- What `Buddy::setBlocked` does to the flags. -/
def setBlockedFlag (d : BuddyData) (block : Bool) : BuddyData :=
  { d with flags := if block then d.flags.lor buddyBlocked else d.flags.ldiff buddyBlocked }

/-- What `handleBuddyPayload` takes from a `pbnetwork::Buddy`. -/
structure BuddyPayload where
  aliasName : String := ""
  groups : List String := []
  iconHash : String := ""
  blocked : Bool := false
  deriving DecidableEq, Repr

namespace BuddyPayload

variable (payload : BuddyPayload) (d : BuddyData)

/-- What the setters of `handleBuddyPayload` that store the buddy make of his data. An empty alias and
an empty list of groups stand for no change. -/
def update : BuddyData :=
  let d := if payload.aliasName = "" then d else { d with aliasName := payload.aliasName }
  let d := if payload.groups = [] then d else { d with groups := payload.groups }
  { d with iconHash := payload.iconHash }

end BuddyPayload

/-- What the roster depends on: `boost::locale::to_lower`, the id that the storage gives to a new
row, and the mode of the component. -/
structure Env where
  lower : String → String
  nextId : List Row → Int
  nextId_ne : ∀ rows, nextId rows ≠ -1
  nextId_fresh : ∀ rows, ∀ r ∈ rows, r.id ≠ nextId rows
  serverMode : Bool := false

namespace State

variable (env : Env) (s : State)

/-- `new LocalBuddy`. -/
def alloc (b : Buddy) : State :=
  { s with heap := fun p => if p = s.next then some b else s.heap p, next := s.next + 1 }

def delete (p : Nat) : State := { s with heap := fun q => if q = p then none else s.heap q }

/-- The setters of a buddy. His name is never changed. -/
def change (p : Nat) (f : BuddyData → BuddyData) : State :=
  { s with heap := fun q =>
      if q = p then (s.heap p).map fun b => { b with data := { f b.data with name := b.data.name } }
      else s.heap q }

def note (a : Act) : State := { s with log := s.log ++ [a] }

/-! ## RosterStorage -/

/-- `RosterStorage::storeBuddy`. -/
def storeBuddy (p : Nat) : Option State := do
  let b ← s.heap p
  let s := s.note (.stored p)
  return if b.data.name = "" then s else { s with queue := s.queue.set b.data.name p }

/-- `RosterStorage::storeBuddies` for one buddy: `updateBuddy` or `addBuddy`. -/
def writeBuddy (p : Nat) : Option State := do
  let b ← s.heap p
  let s := s.note (.written p)
  if b.id ≠ -1 then
    return { s with rows := s.rows.map fun r =>
      if r.data.name = b.data.name then { r with data := b.data, owner := some p } else r }
  else if s.rows.any fun r => decide (r.data.name = b.data.name) then none
  else
    let id := env.nextId s.rows
    return { s with
      rows := s.rows ++ [⟨id, b.data, some p⟩]
      heap := fun q => if q = p then some { b with id } else s.heap q }

def storeBuddies : Option State := do
  let s ← s.queue.entries.foldlM (fun s e => s.writeBuddy env e.2) s
  return { s with queue := {} }

/-! ## LocalBuddy -/

/-- A setter whose buddy is stored if it changes him. -/
def setAndStore (p : Nat) (f : BuddyData → BuddyData) : Option State := do
  let b ← s.heap p
  if f b.data = b.data then return s else (s.change p f).storeBuddy p

/-- `LocalBuddy::setAlias`. -/
def setAlias (p : Nat) (aliasName : String) : Option State :=
  s.setAndStore p fun d => { d with aliasName }

/-- `LocalBuddy::setGroups`. -/
def setGroups (p : Nat) (groups : List String) : Option State :=
  s.setAndStore p fun d => { d with groups }

/-- `LocalBuddy::setIconHash`. -/
def setIconHash (p : Nat) (iconHash : String) : Option State :=
  s.setAndStore p fun d => { d with iconHash }

/-- `Buddy::setBlocked`, which does not store the buddy. -/
def setBlocked (p : Nat) (block : Bool) : State := s.change p fun d => setBlockedFlag d block

/-- `handleBuddyPayload`. The status is not stored. -/
def handleBuddyPayload (p : Nat) (payload : BuddyPayload) : Option State :=
  (if payload.aliasName = "" then some s else s.setAlias p payload.aliasName).bind fun s =>
  (if payload.groups = [] then some s else s.setGroups p payload.groups).bind fun s =>
  (s.setIconHash p payload.iconHash).map fun s => s.setBlocked p payload.blocked

/-! ## RosterManager -/

/-- `RosterManager::getBuddy`. -/
def getBuddy (name : String) : State × Option Nat :=
  match s.buddies.get (env.lower name) with
  | some p => (s, p)
  | none => ({ s with buddies := s.buddies.set (env.lower name) none }, none)

/-- `RosterManager::setBuddy`. `pushed` says whether `doAddBuddy` sends a roster push, after which
the subscription is `both`. -/
def setBuddy (p : Nat) (pushed : Bool) : Option State := do
  let b ← s.heap p
  let s := State.note { s with buddies := s.buddies.set (env.lower b.data.name) (some p) } (.set p)
  let s ← if pushed && b.data.ask then (s.change p fun d => { d with ask := false }).storeBuddy p
    else some s
  s.storeBuddy p

/-- `RosterManager::removeBuddy`. -/
def removeBuddy (name : String) : Option State :=
  let r := s.getBuddy env (env.lower name)
  match r.2 with
  | none => some r.1
  | some p => do
    let s := r.1
    let b ← s.heap p
    return State.note { s.delete p with
      rows := if b.id = -1 then s.rows else s.rows.filter fun r => decide (r.id ≠ b.id)
      buddies := s.buddies.erase (env.lower b.data.name)
      queue := s.queue.erase b.data.name } (.removed p)

/-- `Buddy::JIDToLegacyName` for the name that the JID stands for. -/
def jidToLegacyName (name : String) : Option (State × String) :=
  let r := s.getBuddy env name
  match r.2 with
  | none => some (r.1, name)
  | some p => do
    let b ← r.1.heap p
    return (r.1, b.data.name)

inductive Subscription
  | subscribe
  | subscribed
  | unsubscribe
  | unsubscribed
  deriving DecidableEq, Repr

/-- `RosterManager::handleSubscription`. A new buddy is created with the subscription `both`; unless
he is set he is deleted at the end. -/
def handleSubscription (name : String) (type : Subscription) (flags : Int) (pushed : Bool) :
    Option State := do
  let (s, legacyName) ← s.jidToLegacyName env name
  if legacyName = "" then return s
  let (s, found) := s.getBuddy env legacyName
  match found with
  | none =>
    if type = .subscribe ∨ type = .subscribed ∧ env.serverMode = false then
      (s.alloc { id := -1, data := { name := legacyName, flags } }).setBuddy env s.next pushed
    else return s
  | some p =>
    let b ← s.heap p
    if env.serverMode then
      if type = .unsubscribe then s.removeBuddy env b.data.name else return s
    else
      match type with
      | .subscribe | .subscribed =>
        if b.data.ask then (s.change p fun d => { d with ask := false }).storeBuddy p else return s
      | .unsubscribe => s.removeBuddy env b.data.name
      | .unsubscribed => if b.data.ask then s.removeBuddy env b.data.name else return s

/-- `~RosterManager`. -/
def destroy : Option State := do
  let s ← s.storeBuddies env
  return { s with
    heap := fun p => if ∃ e ∈ s.buddies.entries, e.2 = some p then none else s.heap p
    buddies := {}
    alive := false }

/-- `RosterManager::setStorageBackend` for one row. The factory refuses names that give no valid
JID. -/
def loadBuddy (r : Int × BuddyData × Bool) : State :=
  if r.2.2 then
    let p := s.next
    { s.alloc ⟨r.1, r.2.1⟩ with
      buddies := s.buddies.set (env.lower r.2.1.name) (some p)
      rows := s.rows ++ [⟨r.1, r.2.1, some p⟩] }
  else { s with rows := s.rows ++ [⟨r.1, r.2.1, none⟩] }

def load (rows : List (Int × BuddyData × Bool)) : State := rows.foldl (loadBuddy env) {}

end State

/-! ## The machine -/

inductive Event
  /-- A lookup: `getBuddy`, `JIDToLegacyName` or `JIDToBuddy`. -/
  | getBuddy (name : String)
  /-- A new buddy is set if `getBuddy` does not find his name. -/
  | setBuddy (data : BuddyData) (pushed : Bool)
  /-- A setter of a buddy that `getBuddy` finds, which calls `storeBuddy`. -/
  | storeBuddy (name : String) (f : BuddyData → BuddyData)
  /-- `handleBuddyChangedPayload` for a buddy that `getBuddy` finds. -/
  | handleBuddyPayload (name : String) (payload : BuddyPayload)
  | removeBuddy (name : String)
  | handleSubscription (name : String) (type : State.Subscription) (flags : Int) (pushed : Bool)
  | tick
  | destroy

def step (env : Env) (s : State) (e : Event) : Option State :=
  if s.alive then
    match e with
    | .getBuddy name => some (s.getBuddy env name).1
    | .setBuddy data pushed =>
      let r := s.getBuddy env data.name
      match r.2 with
      | none => (r.1.alloc ⟨-1, data⟩).setBuddy env r.1.next pushed
      | some _ => some r.1
    | .storeBuddy name f =>
      let r := s.getBuddy env name
      match r.2 with
      | none => some r.1
      | some p => (r.1.change p f).storeBuddy p
    | .handleBuddyPayload name payload =>
      let r := s.getBuddy env name
      match r.2 with
      | none => some r.1
      | some p => r.1.handleBuddyPayload p payload
    | .removeBuddy name => s.removeBuddy env name
    | .handleSubscription name type flags pushed => s.handleSubscription env name type flags pushed
    | .tick => s.storeBuddies env
    | .destroy => s.destroy env
  else none

/-- The roster after loading. The rows of the storage have ids and distinct names. -/
def machine (env : Env) : Machine State Event where
  init s := ∃ rows : List (Int × BuddyData × Bool),
    (rows.Pairwise fun r r' => r.1 ≠ r'.1 ∧ r.2.1.name ≠ r'.2.1.name) ∧
    (∀ r ∈ rows, r.1 ≠ -1) ∧ s = State.load env rows
  step := step env

end Spectrum.Roster
