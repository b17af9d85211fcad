import Mathlib.Data.String.Basic
import Spectrum.Lib.Arena
import Spectrum.Lib.Machine
import Spectrum.Lib.NestedMap

/-!
# The sessions of the ad-hoc commands

`m_sessions` holds the commands that were started and are not finished, for every JID under the ids of
its sessions. A command is made by its first request and deleted by the answer that finishes it, by
the timer or by `stop`. Using or deleting a command that is not there, reading `m_lastActivity` before
it is set and using a storage that is `NULL` are undefined.

A JID is its text, as `Swift::JID` prints and reads it. All commands are settings commands.
-/

namespace Spectrum.AdHoc

open Lib

/-- `storage` says whether there is a storage backend, `nodes` are the keys of `m_factories`. -/
structure Env where
  storage : Bool := true
  nodes : List String := ["settings"]

inductive CommandState
  | init
  | waitingForResponse
  deriving DecidableEq, Repr

/-- `lastActivity` is not set by the constructor. -/
structure AdHocCommand where
  id : String
  initiator : String
  state : CommandState := .init
  lastActivity : Option Int := none
  deriving DecidableEq, Repr

def bucket : List Char := "abcdefghijklmnopqrstuvwxyz".toList

/-- The id that a constructor makes of the results of `rand`. -/
def newId (rand : Nat → Nat) : String :=
  String.ofList ((List.range 32).map fun i => bucket.getD (rand i % bucket.length) 'a')

/-- A command request. The answers of `rand`, of the storage (`registered`) and of the clock are what
its handler finds. -/
structure Request where
  jid : String
  sessionId : String := ""
  node : String := "settings"
  cancel : Bool := false
  rand : Nat → Nat := fun _ => 0
  registered : Bool := true
  now : Int

/-- `Swift::Command::Status`. -/
inductive Status
  | executing
  | completed
  | canceled
  deriving DecidableEq, Repr

inductive Answer
  | badRequest
  | command (sessionId : String) (status : Status)
  deriving DecidableEq, Repr

namespace AdHocCommand

/-- The status of the form: without a storage or a registration there is nothing to fill in. -/
def getForm (env : Env) (registered : Bool) : Status :=
  if env.storage ∧ registered then .executing else .completed

def handleResponse (env : Env) : Option Status := if env.storage then some .completed else none

def handleRequest (env : Env) (r : Request) (c : AdHocCommand) : Option (Status × AdHocCommand) :=
  if r.cancel then some (.canceled, c)
  else
    match c.state with
    | .init => some (getForm env r.registered, { c with state := .waitingForResponse })
    | .waitingForResponse => (handleResponse env).map fun status => (status, c)

end AdHocCommand

structure State where
  sessions : NestedMap String String Nat := {}
  commands : Arena AdHocCommand := .empty

namespace State

variable (s : State)

/-- The second half of `handleSetRequest`: the command at `p` answers. -/
def answer (env : Env) (r : Request) (p : Nat) : Option (State × Answer) := do
  let c ← s.commands.get p
  let (status, c) ← c.handleRequest env r
  let commands := s.commands.modify p fun _ => { c with lastActivity := some r.now }
  if status = .completed ∨ status = .canceled then
    let commands ← commands.delete p
    some ({ sessions := s.sessions.remove r.jid c.id, commands }, .command c.id status)
  else some ({ s with commands }, .command c.id status)

/-- A new command for the JID, which replaces one of the same id. -/
def create (r : Request) : State where
  sessions := s.sessions.insert r.jid (newId r.rand) s.commands.next
  commands := s.commands.new { id := newId r.rand, initiator := r.jid }

def handleSetRequest (env : Env) (r : Request) : Option (State × Answer) :=
  if r.sessionId ≠ "" ∧ (s.sessions.get r.jid).isSome then
    match s.sessions.find r.jid r.sessionId with
    | some p => s.answer env r p
    | none => some (s, .badRequest)
  else if r.node ∈ env.nodes then (s.create r).answer env r s.commands.next
  else some (s, .badRequest)

/-- The loop over the commands of one JID. A candidate is `it->first`, the JID. -/
def sweepCommands (now : Int) (jid : String) :
    List (String × Nat) → Arena AdHocCommand → List String → Option (Arena AdHocCommand × List String)
  | [], commands, candidates => some (commands, candidates)
  | (_, p) :: rest, commands, candidates => do
    let c ← commands.get p
    let lastActivity ← c.lastActivity
    if now - lastActivity > 15 * 60 then
      let commands ← commands.delete p
      sweepCommands now jid rest commands (candidates ++ [jid])
    else sweepCommands now jid rest commands candidates

/-- The loop over the JIDs. The candidates are erased from the commands of the JID. -/
def sweepSessions (now : Int) :
    List (String × SortedMap String Nat) → State → List String → Option (State × List String)
  | [], s, toRemove => some (s, toRemove)
  | (jid, sessions) :: rest, s, toRemove => do
    let (commands, candidates) ← sweepCommands now jid sessions.entries s.commands []
    let sessions := candidates.foldl SortedMap.erase sessions
    sweepSessions now rest { sessions := s.sessions.set jid sessions, commands }
      (if sessions.entries = [] then toRemove ++ [jid] else toRemove)

def removeOldSessions (now : Int) : Option State := do
  let (s, toRemove) ← sweepSessions now s.sessions.entries s []
  some { s with sessions := toRemove.foldl SortedMap.erase s.sessions }

/-- The two loops delete the commands in the order of the table. -/
def stop : Option State :=
  (s.commands.deleteAll s.sessions.values).map fun commands => { sessions := {}, commands }

end State

inductive Event
  | request (r : Request)
  | tick (now : Int)
  | stop

def step (env : Env) (s : State) : Event → Option State
  | .request r => (s.handleSetRequest env r).map Prod.fst
  | .tick now => s.removeOldSessions now
  | .stop => s.stop

def machine (env : Env) : Machine State Event where
  init s := s = {}
  step := step env

end Spectrum.AdHoc
