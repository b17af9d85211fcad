import Spectrum.Account.Nodes
import Spectrum.Roster.Lookups
import Spectrum.Roster.Nodes

/-!
# Subscriptions of contacts that may not exist

`RosterManager::handleSubscription` and `RosterResponder::handleSetRequest` create a buddy for a
name that is not in the roster. `NetworkFactory::createBuddy` returns `NULL` if the name gives no valid
JID, and the handlers do not look at the result before they use it. Undefined steps are the use of
`NULL` or of a pointer to a deleted buddy.

The name is read off the node of a JID, which has been through nodeprep, and the buddy encodes it
again.

* `handle_eq_none_iff`: for any nodeprep and any escaping, exactly which requests use a buddy that is `NULL`.
* `handlePresence_roster`: otherwise a presence leaves the roster as the machine of the roster does.
* `handle_of_addressed`: no request with a JID that a client can address does.
-/

namespace Spectrum.Roster

open Lib Storage

/-- `NetworkFactory::createBuddy` for a new contact: he has no id, no groups and no settings, and
his subscription is `both`. -/
def createBuddy (N : Nodes) (name aliasName : String) (flags : Int) : Option Buddy :=
  (N.validNode name flags).map fun _ => { id := -1, data := { name, aliasName, flags } }

/-! ## Handlers -/

/-- A `Buddy *` of a handler. -/
inductive Contact
  | null
  | temporary (b : Buddy)
  | member (p : Nat)

/-- `createBuddy` as a pointer. -/
def Contact.new : Option Buddy → Contact
  | none => .null
  | some b => .temporary b

/-- The buddy of `handleSubscription`: the one that was found or a temporary one. -/
def Contact.found (N : Nodes) (name node : String) : Option Nat → Contact
  | some p => .member p
  | none => .new (createBuddy N name "" (N.buddyFlagsFromJid node))

/-- What is sent to the backend and to the user. -/
inductive Sent
  | buddyChanged (data : BuddyData)
  | buddyRemoved (data : BuddyData)
  | buddyPresences (data : BuddyData)
  | presence (type : PresenceType)
  | rosterResult
  | rosterPush
  deriving DecidableEq, Repr

structure Turn where
  roster : State
  sent : List Sent

/-- A `Swift::RosterItemPayload`. -/
structure Item where
  node : String
  name : String := ""
  groups : List String := []
  remove : Bool := false
  deriving DecidableEq, Repr

/-- What else a handler depends on: `service.enable_remove_buddy`, and whether the roster manager
sends a roster push for the buddy. -/
structure Settings where
  enableRemoveBuddy : Bool := true
  pushed : Bool := false

namespace State

variable (env : Env) (N : Nodes) (cfg : Settings) (s : State)

/-- `*buddy`. -/
def deref : Contact → Option Buddy
  | .null => none
  | .temporary b => some b
  | .member p => s.heap p

/-- `RosterManager::setBuddy` for any pointer, which is a member of the roster then. -/
def setContact : Contact → Option (State × Contact)
  | .null => none
  | .temporary b =>
    ((s.alloc b).setBuddy env s.next cfg.pushed).map fun s' => (s', .member s.next)
  | .member p => (s.setBuddy env p cfg.pushed).map fun s' => (s', .member p)

/-- `RosterManager::handleSubscription` in server mode, with the type of the response. -/
def serverSubscription (newBuddy : Bool) (buddy : Contact) (type : PresenceType) :
    Option (Turn × PresenceType) :=
  match type with
  | .subscribe => do
    let (s, buddy) ← if newBuddy then s.setContact env cfg buddy else some (s, buddy)
    let b ← s.deref buddy
    return (⟨s, [.buddyChanged b.data]⟩, .subscribed)
  | .subscribed =>
    if newBuddy then some (⟨s, []⟩, .unavailable)
    else do
      let b ← s.deref buddy
      return (⟨s, [.buddyChanged b.data]⟩, .unavailable)
  | .unsubscribe => do
    let b ← s.deref buddy
    let s ← if newBuddy then some s else s.removeBuddy env b.data.name
    return (⟨s, [.buddyRemoved b.data]⟩, .unsubscribed)
  | .available | .error | .probe | .unavailable | .unsubscribed => some (⟨s, []⟩, .unavailable)

/-- `RosterManager::handleSubscription` in gateway mode, with the type of the response. -/
def gatewaySubscription (newBuddy : Bool) (buddy : Contact) (type : PresenceType) :
    Option (Turn × PresenceType) :=
  match type with
  | .subscribe | .subscribed => do
    let (s, buddy) ←
      if newBuddy then s.setContact env cfg buddy
      else do
        let b ← s.deref buddy
        match buddy with
        | .member p =>
          if b.data.ask then
            ((s.change p fun d => { d with ask := false }).storeBuddy p).map (·, buddy)
          else some (s, buddy)
        | _ => some (s, buddy)
    let b ← s.deref buddy
    return (⟨s, [.buddyChanged b.data, .buddyPresences b.data]⟩,
      if type = .subscribe then .subscribed else .unavailable)
  | .unsubscribe => do
    let b ← s.deref buddy
    let sent := if newBuddy ∨ b.data.ask ∨ cfg.enableRemoveBuddy then [.buddyRemoved b.data] else []
    let s ← if newBuddy then some s else s.removeBuddy env b.data.name
    return (⟨s, sent⟩, .unsubscribed)
  | .unsubscribed => do
    let b ← s.deref buddy
    if b.data.ask then
      let s ← s.removeBuddy env b.data.name
      return (⟨s, [.buddyRemoved b.data]⟩, .unsubscribe)
    else return (⟨s, []⟩, .unavailable)
  | .available | .error | .probe | .unavailable => some (⟨s, []⟩, .unavailable)

/-- `RosterManager::handleSubscription` in the mode of the component. -/
def answer (newBuddy : Bool) (buddy : Contact) (type : PresenceType) :
    Option (Turn × PresenceType) :=
  if env.serverMode then s.serverSubscription env cfg newBuddy buddy type
  else s.gatewaySubscription env cfg newBuddy buddy type

/-- The presences that answer the client. In gateway mode the transport acts as the buddy too. -/
def responses (response : PresenceType) : List Sent :=
  (if response = .unavailable then [] else [.presence response]) ++
    if env.serverMode then []
    else
      match response with
      | .unsubscribed => [.presence .unsubscribe]
      | .subscribed => [.presence .subscribe]
      | _ => []

/-- `RosterManager::handleSubscription` for a presence to the JID with the node. -/
def handlePresence (node : String) (type : PresenceType) : Option Turn := do
  let (s, name) ← s.jidToLegacyName env (N.legacyName node)
  if name = "" then return ⟨s, []⟩
  let (s, found) := s.getBuddy env name
  let buddy := Contact.found N name node found
  let (turn, response) ← s.answer env cfg found.isNone buddy type
  return { turn with sent := turn.sent ++ responses env response }

/-- `LocalBuddy::setAlias` and `setGroups`, which update the buddy and store him if something
changed. -/
def update (p : Nat) (changed : Bool) (f : BuddyData → BuddyData) : Option State := do
  let s := s.change p f
  if changed then
    let b ← s.heap p
    let s ←
      if cfg.pushed && b.data.ask then (s.change p fun d => { d with ask := false }).storeBuddy p
      else some s
    s.storeBuddy p
  else return s

/-- `NetworkPluginServer::handleBuddyUpdated`, also for a buddy that was added. -/
def handleBuddyUpdated (buddy : Contact) (item : Item) : Option Turn :=
  match buddy with
  | .member p => do
    let b ← s.heap p
    let s ← s.update cfg p (b.data.aliasName ≠ item.name) fun d => { d with aliasName := item.name }
    let s ← s.update cfg p (b.data.groups ≠ item.groups) fun d => { d with groups := item.groups }
    let b ← s.heap p
    return ⟨s, [.buddyChanged b.data]⟩
  | _ => none

/-- `RosterResponder::handleSetRequest` for a user who is logged in. -/
def handleSetRequest (items : List Item) : Option Turn :=
  match items with
  | [] => some ⟨s, [.rosterResult]⟩
  | item :: _ => do
    if item.node = "" then return ⟨s, [.rosterResult]⟩
    let (s, found) := s.getBuddy env (N.legacyName item.node)
    match found with
    | some p =>
      if item.remove then
        let b ← s.heap p
        return ⟨s, [.rosterResult, .buddyRemoved b.data, .rosterPush]⟩
      else
        let turn ← s.handleBuddyUpdated cfg (.member p) item
        return { turn with sent := .rosterResult :: turn.sent }
    | none =>
      if item.remove then return ⟨s, [.rosterResult]⟩
      let (s, name) ← s.jidToLegacyName env (N.legacyName item.node)
      let buddy := Contact.new (createBuddy N name item.name (N.buddyFlagsFromJid item.node))
      let (s, buddy) ← s.setContact env cfg buddy
      let turn ← s.handleBuddyUpdated cfg buddy item
      return { turn with sent := .rosterResult :: turn.sent }

end State

/-! ## Buddies that are there -/

section Alive

variable {env : Env} {N : Nodes} {cfg : Settings} {s s' : State} {p : Nat} {b : Buddy}
  {name node : String} {type : PresenceType}

theorem change_isSome {f : BuddyData → BuddyData} (hp : (s.heap p).isSome) :
    ((s.change p f).heap p).isSome := by
  simp [State.change, hp]

theorem storeBuddy_isSome (hp : (s.heap p).isSome) :
    ∃ s', s.storeBuddy p = some s' ∧ (s'.heap p).isSome := by
  obtain ⟨b, hb⟩ := Option.isSome_iff_exists.mp hp
  obtain ⟨s', hs, hheap⟩ := storeBuddy_of_heap hb
  exact ⟨s', hs, by rw [hheap]; exact hp⟩

/-- The end of `setBuddy` and of the setters: a roster push and `storeBuddy`. -/
theorem push_isSome (hp : (s.heap p).isSome) (pushed : Bool) :
    ∃ s', (if pushed then
        ((s.change p fun d => { d with ask := false }).storeBuddy p).bind fun s => s.storeBuddy p
      else s.storeBuddy p) = some s' ∧ (s'.heap p).isSome := by
  cases pushed with
  | false => exact storeBuddy_isSome hp
  | true =>
    obtain ⟨s₁, hs₁, hp₁⟩ := storeBuddy_isSome (change_isSome hp)
    obtain ⟨s₂, hs₂, hp₂⟩ := storeBuddy_isSome hp₁
    exact ⟨s₂, by rw [if_pos rfl, hs₁]; exact hs₂, hp₂⟩

theorem setBuddy_isSome (env : Env) (hp : (s.heap p).isSome) (pushed : Bool) :
    ∃ s', s.setBuddy env p pushed = some s' ∧ (s'.heap p).isSome := by
  obtain ⟨b, hb⟩ := Option.isSome_iff_exists.mp hp
  have hset : ((State.note { s with buddies := s.buddies.set (env.lower b.data.name) (some p) }
      (.set p)).heap p).isSome := hp
  obtain ⟨s', hs, hp'⟩ := push_isSome hset (pushed && b.data.ask)
  refine ⟨s', ?_, hp'⟩
  simp only [State.setBuddy, hb, Option.bind_eq_bind, Option.bind_some]
  exact hs

theorem update_isSome (cfg : Settings) (hp : (s.heap p).isSome) (changed : Bool)
    (f : BuddyData → BuddyData) :
    ∃ s', s.update cfg p changed f = some s' ∧ (s'.heap p).isSome := by
  have hchange : ((s.change p f).heap p).isSome := change_isSome hp
  cases changed with
  | false => exact ⟨_, rfl, hchange⟩
  | true =>
    obtain ⟨b, hb⟩ := Option.isSome_iff_exists.mp hchange
    obtain ⟨s', hs, hp'⟩ := push_isSome hchange (cfg.pushed && b.data.ask)
    refine ⟨s', ?_, hp'⟩
    simp only [State.update, hb, if_true, Option.bind_eq_bind, Option.bind_some]
    exact hs

theorem handleBuddyUpdated_isSome (cfg : Settings) (hp : (s.heap p).isSome) (item : Item) :
    (s.handleBuddyUpdated cfg (.member p) item).isSome := by
  obtain ⟨b, hb⟩ := Option.isSome_iff_exists.mp hp
  obtain ⟨s₁, hs₁, hp₁⟩ := update_isSome cfg hp (b.data.aliasName ≠ item.name)
    fun d => { d with aliasName := item.name }
  obtain ⟨s₂, hs₂, hp₂⟩ := update_isSome cfg hp₁ (b.data.groups ≠ item.groups)
    fun d => { d with groups := item.groups }
  obtain ⟨b₂, hb₂⟩ := Option.isSome_iff_exists.mp hp₂
  simp only [State.handleBuddyUpdated, hb, Option.bind_eq_bind, Option.bind_some, hs₁, hs₂, hb₂]
  rfl

/-- `removeBuddy` does not use a dangling pointer. -/
theorem Sound.removeBuddy_isSome (h : Sound env but s) (name : String) :
    ∃ s', s.removeBuddy env name = some s' := by
  unfold State.removeBuddy
  cases hfound : (s.getBuddy env (env.lower name)).2 with
  | none =>
    simp only [hfound]
    exact ⟨_, rfl⟩
  | some p =>
    obtain ⟨hsame, hk⟩ := getBuddy_of_some hfound
    obtain ⟨b, hb, -⟩ := h.member _ p hk
    simp only [hfound, hsame, hb, Option.bind_eq_bind, Option.bind_some]
    exact ⟨_, rfl⟩

/-- A temporary buddy becomes a member of the roster. -/
theorem setContact_temporary (env : Env) (cfg : Settings) (s : State) (b : Buddy) :
    ∃ s', s.setContact env cfg (.temporary b) = some (s', .member s.next) ∧
      (s'.heap s.next).isSome := by
  have hnew : ((s.alloc b).heap s.next).isSome := by
    simp [State.alloc]
  obtain ⟨s', hs, hp⟩ := setBuddy_isSome env hnew cfg.pushed
  refine ⟨s', ?_, hp⟩
  rw [State.setContact, hs]
  rfl

/-! ## A contact that is there, a new one and `NULL` -/

/-- The answer to a presence of this type needs the buddy, if he is new. -/
def NeedsBuddy (serverMode : Bool) (type : PresenceType) : Prop :=
  if serverMode then type = .subscribe ∨ type = .unsubscribe
  else type = .subscribe ∨ type = .subscribed ∨ type = .unsubscribe ∨ type = .unsubscribed

instance (serverMode : Bool) (type : PresenceType) : Decidable (NeedsBuddy serverMode type) := by
  unfold NeedsBuddy
  infer_instance

theorem answer_member (h : Sound env but s) (hp : s.heap p = some b) (type : PresenceType) :
    (s.answer env cfg false (.member p) type).isSome := by
  have hderef : s.deref (.member p) = some b := hp
  obtain ⟨s₁, hs₁⟩ := h.removeBuddy_isSome b.data.name
  unfold State.answer
  split
  · cases type <;> simp [State.serverSubscription, hderef, hs₁]
  · obtain ⟨s₂, hs₂, hp₂⟩ := storeBuddy_isSome
      (change_isSome (f := fun d => { d with ask := false }) (s := s) (p := p) (by simp [hp]))
    obtain ⟨b₂, hb₂⟩ := Option.isSome_iff_exists.mp hp₂
    have hderef₂ : s₂.deref (.member p) = some b₂ := hb₂
    by_cases hask : b.data.ask = true
    · cases type <;> simp [State.gatewaySubscription, hderef, hs₁, hask, hs₂, hderef₂]
    · cases type <;> simp [State.gatewaySubscription, hderef, hs₁, hask]

theorem answer_temporary (hask : b.data.ask = false) (type : PresenceType) :
    (s.answer env cfg true (.temporary b) type).isSome := by
  obtain ⟨s', hs, hp⟩ := setContact_temporary env cfg s b
  obtain ⟨b', hb'⟩ := Option.isSome_iff_exists.mp hp
  have hderef : s.deref (.temporary b) = some b := rfl
  have hderef' : s'.deref (.member s.next) = some b' := hb'
  unfold State.answer
  split
  · cases type <;> simp [State.serverSubscription, hs, hderef, hderef']
  · cases type <;> simp [State.gatewaySubscription, hs, hderef, hderef', hask]

theorem answer_null (type : PresenceType) :
    s.answer env cfg true .null type =
      if NeedsBuddy env.serverMode type then none else some (⟨s, []⟩, .unavailable) := by
  have hderef : s.deref .null = none := rfl
  have hset : s.setContact env cfg .null = none := rfl
  unfold State.answer NeedsBuddy
  cases env.serverMode with
  | true => cases type <;> simp [State.serverSubscription, hderef, hset]
  | false => cases type <;> simp [State.gatewaySubscription, hderef, hset]

/-! ## Lookups -/

/-- No buddy of the roster has the name. -/
def Stranger (env : Env) (s : State) (name : String) : Prop :=
  ∀ p, s.buddies.get (env.lower name) ≠ some (some p)

theorem stranger_iff : Stranger env s name ↔ (s.getBuddy env name).2 = none := by
  unfold Stranger
  rcases getBuddy_cases env name s with ⟨p, hget, heq⟩ | ⟨hnone, heq⟩
  · rw [heq, hget]
    cases p <;> simp
  · rw [heq, hnone]
    simp

theorem jidToLegacyName_of_none (h : s.getBuddy env name = (s', none)) :
    s.jidToLegacyName env name = some (s', name) := by
  unfold State.jidToLegacyName
  simp only [h]

/-- A name is looked up once more by every handler. -/
theorem lookups (h : Sound env but s) (name : String) :
    (∃ p b, s.heap p = some b ∧ ¬ Stranger env s name ∧ s.getBuddy env name = (s, some p) ∧
      s.jidToLegacyName env name = some (s, b.data.name) ∧
      s.getBuddy env b.data.name = (s, some p)) ∨
    Stranger env s name ∧ ∃ s', s.getBuddy env name = (s', none) ∧
      s'.getBuddy env name = (s', none) := by
  cases hfound : (s.getBuddy env name).2 with
  | none =>
    right
    have hnull := getBuddy_of_none hfound
    refine ⟨stranger_iff.mpr hfound, _, Prod.ext rfl hfound, ?_⟩
    rcases getBuddy_cases env name (s.getBuddy env name).1 with ⟨p, hget, heq⟩ | ⟨hget, -⟩
    · rw [hnull] at hget
      rw [heq, ← Option.some.inj hget]
    · rw [hnull] at hget
      cases hget
  | some p =>
    left
    obtain ⟨hsame, hk⟩ := getBuddy_of_some hfound
    obtain ⟨b, hb, hlower⟩ := h.member _ p hk
    refine ⟨p, b, hb, fun hstranger => hstranger p hk, Prod.ext hsame hfound, ?_, ?_⟩
    · unfold State.jidToLegacyName
      simp only [hfound, hsame, hb]
      rfl
    · rw [State.getBuddy, hlower, hk]

/-- The roster has the same buddies and the same queue, and nothing was stored or deleted. A lookup
may have left an entry `NULL` for its name. -/
structure SameRoster (s s' : State) : Prop where
  heap : s'.heap = s.heap
  members : ∀ k p, s'.buddies.get k = some (some p) ↔ s.buddies.get k = some (some p)
  queue : s'.queue = s.queue
  rows : s'.rows = s.rows
  log : s'.log = s.log

theorem sameRoster_getBuddy (env : Env) (s : State) (name : String) :
    SameRoster s (s.getBuddy env name).1 := by
  rcases getBuddy_cases env name s with ⟨p, -, heq⟩ | ⟨hnone, heq⟩
  · rw [heq]
    exact ⟨rfl, fun _ _ => Iff.rfl, rfl, rfl, rfl⟩
  · rw [heq]
    refine ⟨rfl, fun k p => ?_, rfl, rfl, rfl⟩
    simp only [SortedMap.get_set]
    split
    · rename_i hk
      rw [hk, hnone]
      simp
    · exact Iff.rfl

/-! ## Requests -/

theorem createBuddy_eq {aliasName : String} {flags : Int}
    (h : createBuddy N name aliasName flags = some b) :
    b = { id := -1, data := { name, aliasName, flags } } := by
  obtain ⟨node, -, h⟩ := Option.map_eq_some_iff.mp h
  exact h.symm

theorem createBuddy_ask {aliasName : String} {flags : Int}
    (h : createBuddy N name aliasName flags = some b) : b.data.ask = false := by
  rw [createBuddy_eq h]

/-- What a client asks for: a presence to the JID with the node, or a roster set. -/
inductive Request
  | presence (node : String) (type : PresenceType)
  | rosterSet (items : List Item)

/-- `handleSubscription` or `handleSetRequest`. -/
def State.handle (env : Env) (N : Nodes) (cfg : Settings) (s : State) : Request → Option Turn
  | .presence node type => s.handlePresence env N cfg node type
  | .rosterSet items => s.handleSetRequest env N cfg items

/-- The request is about a contact that is not in the roster, and `createBuddy` returns `NULL`. -/
def Impossible (env : Env) (N : Nodes) (s : State) : Request → Prop
  | .presence node _ => N.legacyName node ≠ "" ∧ Stranger env s (N.legacyName node) ∧
      createBuddy N (N.legacyName node) "" (N.buddyFlagsFromJid node) = none
  | .rosterSet items => ∃ item ∈ items.head?, item.node ≠ "" ∧ item.remove = false ∧
      Stranger env s (N.legacyName item.node) ∧
      createBuddy N (N.legacyName item.node) item.name (N.buddyFlagsFromJid item.node) = none

/-- The request cannot be answered without the buddy. -/
def UsesBuddy (env : Env) : Request → Prop
  | .presence _ type => NeedsBuddy env.serverMode type
  | .rosterSet _ => True

theorem handlePresence_eq {s₁ s₂ : State} {found : Option Nat} (hname : name ≠ "")
    (hlegacy : s.jidToLegacyName env (N.legacyName node) = some (s₁, name))
    (hget : s₁.getBuddy env name = (s₂, found)) :
    s.handlePresence env N cfg node type =
      (s₂.answer env cfg found.isNone (.found N name node found) type).map
        fun r => { r.1 with sent := r.1.sent ++ State.responses env r.2 } := by
  simp only [State.handlePresence, hlegacy, Option.bind_eq_bind, Option.bind_some, if_neg hname,
    hget, Option.map_eq_bind]
  rfl

/-- A presence to a contact of the roster, or to a new one that can be created. -/
theorem handlePresence_isSome (cfg : Settings) (h : Sound env but s)
    (hP : ¬ Impossible env N s (.presence node type)) :
    (s.handlePresence env N cfg node type).isSome := by
  have hempty : ∀ {s' name}, s.jidToLegacyName env (N.legacyName node) = some (s', name) →
      name = "" → (s.handlePresence env N cfg node type).isSome := by
    rintro s' name hlegacy rfl
    simp only [State.handlePresence, hlegacy]
    rfl
  rcases lookups h (N.legacyName node) with ⟨p, b, hb, -, -, hlegacy, hget⟩ |
    ⟨hstranger, s', hfirst, hget⟩
  · by_cases hname : b.data.name = ""
    · exact hempty hlegacy hname
    · rw [handlePresence_eq hname hlegacy hget, Option.isSome_map]
      exact answer_member h hb type
  · have hlegacy := jidToLegacyName_of_none hfirst
    by_cases hname : N.legacyName node = ""
    · exact hempty hlegacy hname
    · rw [handlePresence_eq hname hlegacy hget, Option.isSome_map]
      cases hcreate : createBuddy N (N.legacyName node) "" (N.buddyFlagsFromJid node) with
      | none => exact absurd ⟨hname, hstranger, hcreate⟩ hP
      | some b =>
        simp only [Contact.found, hcreate, Contact.new]
        exact answer_temporary (createBuddy_ask hcreate) type

theorem handlePresence_of_impossible (cfg : Settings) (h : Sound env but s)
    (hP : Impossible env N s (.presence node type)) :
    if NeedsBuddy env.serverMode type then s.handlePresence env N cfg node type = none
    else ∃ t, s.handlePresence env N cfg node type = some t ∧ SameRoster s t.roster := by
  obtain ⟨hname, hstranger, hcreate⟩ := hP
  rcases lookups h (N.legacyName node) with ⟨p, b, -, hknown, -⟩ | ⟨-, s', hfirst, hget⟩
  · exact absurd hstranger hknown
  · have hsame := sameRoster_getBuddy env s (N.legacyName node)
    rw [hfirst] at hsame
    rw [handlePresence_eq hname (jidToLegacyName_of_none hfirst) hget]
    simp only [Contact.found, hcreate, Contact.new, Option.isNone_none, answer_null]
    split
    · rfl
    · exact ⟨_, rfl, hsame⟩

/-- What `handleSetRequest` does with a contact that is not in the roster. -/
theorem handleSetRequest_eq {item : Item} {items : List Item} (hnode : item.node ≠ "")
    (hfirst : s.getBuddy env (N.legacyName item.node) = (s', none))
    (hget : s'.getBuddy env (N.legacyName item.node) = (s', none)) (hremove : item.remove = false) :
    s.handleSetRequest env N cfg (item :: items) =
      (s'.setContact env cfg (.new (createBuddy N (N.legacyName item.node) item.name
        (N.buddyFlagsFromJid item.node)))).bind fun r =>
          (r.1.handleBuddyUpdated cfg r.2 item).map fun turn =>
            { turn with sent := .rosterResult :: turn.sent } := by
  simp only [State.handleSetRequest, if_neg hnode, hfirst, hremove, Bool.false_eq_true, if_false,
    jidToLegacyName_of_none hget, Option.bind_eq_bind, Option.bind_some, Option.map_eq_bind]
  rfl

/-- A roster set for a contact of the roster, or for a new one that can be created. -/
theorem handleSetRequest_isSome {items : List Item} (cfg : Settings) (h : Sound env but s)
    (hP : ¬ Impossible env N s (.rosterSet items)) :
    (s.handleSetRequest env N cfg items).isSome := by
  match items, hP with
  | [], _ => rfl
  | item :: items, hP =>
    by_cases hnode : item.node = ""
    · simp [State.handleSetRequest, hnode]
    · rcases lookups h (N.legacyName item.node) with ⟨p, b, hb, -, hfirst, -⟩ |
        ⟨hstranger, s', hfirst, hget⟩
      · have hupdated := handleBuddyUpdated_isSome cfg (s := s) (p := p) (by simp [hb]) item
        obtain ⟨turn, hturn⟩ := Option.isSome_iff_exists.mp hupdated
        cases hremove : item.remove with
        | true => simp [State.handleSetRequest, hnode, hfirst, hremove, hb]
        | false => simp [State.handleSetRequest, hnode, hfirst, hremove, hturn]
      · cases hremove : item.remove with
        | true => simp [State.handleSetRequest, hnode, hfirst, hremove]
        | false =>
          rw [handleSetRequest_eq hnode hfirst hget hremove]
          cases hcreate : createBuddy N (N.legacyName item.node) item.name
              (N.buddyFlagsFromJid item.node) with
          | none => exact absurd ⟨item, rfl, hnode, hremove, hstranger, hcreate⟩ hP
          | some b =>
            obtain ⟨s₁, hs₁, hp⟩ := setContact_temporary env cfg s' b
            rw [Contact.new, hs₁, Option.bind_some, Option.isSome_map]
            exact handleBuddyUpdated_isSome cfg hp item

theorem handleSetRequest_of_impossible {items : List Item} (h : Sound env but s)
    (hP : Impossible env N s (.rosterSet items)) :
    s.handleSetRequest env N cfg items = none := by
  obtain ⟨item, hitem, hnode, hremove, hstranger, hcreate⟩ := hP
  obtain ⟨items, rfl⟩ := List.head?_eq_some_iff.mp hitem
  rcases lookups h (N.legacyName item.node) with ⟨p, b, -, hknown, -⟩ | ⟨-, s', hfirst, hget⟩
  · exact absurd hstranger hknown
  · rw [handleSetRequest_eq hnode hfirst hget hremove, hcreate]
    rfl

/-- For any nodeprep, a request uses `NULL` exactly if its contact is impossible and it needs the
buddy. -/
theorem handle_eq_none_iff (h : Sound env but s) (r : Request) :
    s.handle env N cfg r = none ↔ Impossible env N s r ∧ UsesBuddy env r := by
  cases r with
  | presence node type =>
    constructor
    · intro hnone
      by_cases hP : Impossible env N s (.presence node type)
      · refine ⟨hP, ?_⟩
        have hanswer := handlePresence_of_impossible cfg h hP
        split at hanswer
        · assumption
        · obtain ⟨t, ht, -⟩ := hanswer
          rw [State.handle, ht] at hnone
          cases hnone
      · have hsome := handlePresence_isSome cfg h hP
        rw [State.handle] at hnone
        rw [hnone] at hsome
        cases hsome
    · rintro ⟨hP, huses⟩
      have hanswer := handlePresence_of_impossible cfg h hP
      have hneeds : NeedsBuddy env.serverMode type := huses
      rwa [if_pos hneeds] at hanswer
  | rosterSet items =>
    constructor
    · intro hnone
      refine ⟨?_, trivial⟩
      by_contra hP
      have hsome := handleSetRequest_isSome cfg h hP
      rw [State.handle] at hnone
      rw [hnone] at hsome
      cases hsome
    · rintro ⟨hP, -⟩
      exact handleSetRequest_of_impossible h hP

/-- An impossible contact leaves the roster as it is, unless the request uses `NULL`. -/
theorem sameRoster_of_impossible {r : Request} {t : Turn} (h : Sound env but s)
    (hP : Impossible env N s r) (ht : s.handle env N cfg r = some t) : SameRoster s t.roster := by
  cases r with
  | presence node type =>
    have hanswer := handlePresence_of_impossible cfg h hP
    rw [State.handle] at ht
    split at hanswer
    · rw [hanswer] at ht
      cases ht
    · obtain ⟨t', ht', hsame⟩ := hanswer
      rw [ht] at ht'
      cases ht'
      exact hsame
  | rosterSet items =>
    rw [State.handle, handleSetRequest_of_impossible h hP] at ht
    cases ht

/-! ## The roster that is left -/

/-- The presences that the machine of the roster knows. -/
def subscriptionOf : PresenceType → Option State.Subscription
  | .subscribe => some .subscribe
  | .subscribed => some .subscribed
  | .unsubscribe => some .unsubscribe
  | .unsubscribed => some .unsubscribed
  | .available | .error | .probe | .unavailable => none

theorem answer_member_roster {t : State.Subscription} (h : Sound env but s)
    (hp : s.heap p = some b) : subscriptionOf type = some t →
    (s.answer env cfg false (.member p) type).map (fun r => r.1.roster) =
      if env.serverMode then
        if t = .unsubscribe then s.removeBuddy env b.data.name else some s
      else
        match t with
        | .subscribe | .subscribed =>
          if b.data.ask then (s.change p fun d => { d with ask := false }).storeBuddy p else some s
        | .unsubscribe => s.removeBuddy env b.data.name
        | .unsubscribed => if b.data.ask then s.removeBuddy env b.data.name else some s := by
  intro ht
  have hderef : s.deref (.member p) = some b := hp
  obtain ⟨s₁, hs₁⟩ := h.removeBuddy_isSome b.data.name
  obtain ⟨s₂, hs₂, hp₂⟩ := storeBuddy_isSome
    (change_isSome (f := fun d => { d with ask := false }) (s := s) (p := p) (by simp [hp]))
  obtain ⟨b₂, hb₂⟩ := Option.isSome_iff_exists.mp hp₂
  have hderef₂ : s₂.deref (.member p) = some b₂ := hb₂
  unfold State.answer
  cases hmode : env.serverMode with
  | true => cases type <;> cases ht <;> simp [State.serverSubscription, hderef, hs₁]
  | false =>
    by_cases hask : b.data.ask = true
    · cases type <;> cases ht <;>
        simp [State.gatewaySubscription, hderef, hs₁, hask, hs₂, hderef₂]
    · cases type <;> cases ht <;> simp [State.gatewaySubscription, hderef, hs₁, hask]

theorem answer_temporary_roster {t : State.Subscription} (hask : b.data.ask = false)
    (ht : subscriptionOf type = some t) :
    (s.answer env cfg true (.temporary b) type).map (fun r => r.1.roster) =
      if t = .subscribe ∨ t = .subscribed ∧ env.serverMode = false then
        (s.alloc b).setBuddy env s.next cfg.pushed
      else some s := by
  obtain ⟨s', hs, hp⟩ := setContact_temporary env cfg s b
  obtain ⟨b', hb'⟩ := Option.isSome_iff_exists.mp hp
  have hderef : s.deref (.temporary b) = some b := rfl
  have hderef' : s'.deref (.member s.next) = some b' := hb'
  have hset : (s.alloc b).setBuddy env s.next cfg.pushed = some s' := by
    obtain ⟨s₁, hs₁, hpair⟩ := Option.map_eq_some_iff.mp hs
    rw [hs₁, (Prod.mk.inj hpair).1]
  unfold State.answer
  cases hmode : env.serverMode with
  | true => cases type <;> cases ht <;> simp [State.serverSubscription, hs, hderef, hderef', hset]
  | false =>
    cases type <;> cases ht <;> simp [State.gatewaySubscription, hs, hderef, hderef', hset, hask]

/-- If the contact is not impossible, the roster is left as the step of its machine leaves it. -/
theorem handlePresence_roster {t : State.Subscription} (h : Sound env but s)
    (hP : ¬ Impossible env N s (.presence node type)) (ht : subscriptionOf type = some t) :
    (s.handlePresence env N cfg node type).map Turn.roster =
      s.handleSubscription env (N.legacyName node) t (N.buddyFlagsFromJid node) cfg.pushed := by
  have hempty : ∀ {s' name}, s.jidToLegacyName env (N.legacyName node) = some (s', name) →
      name = "" → (s.handlePresence env N cfg node type).map Turn.roster =
        s.handleSubscription env (N.legacyName node) t (N.buddyFlagsFromJid node) cfg.pushed := by
    rintro s' name hlegacy rfl
    simp only [State.handlePresence, State.handleSubscription, hlegacy]
    rfl
  rcases lookups h (N.legacyName node) with ⟨p, b, hb, -, -, hlegacy, hget⟩ |
    ⟨hstranger, s', hfirst, hget⟩
  · by_cases hname : b.data.name = ""
    · exact hempty hlegacy hname
    · rw [handlePresence_eq hname hlegacy hget, Option.map_map]
      simp only [State.handleSubscription, hlegacy, Option.bind_eq_bind, Option.bind_some,
        if_neg hname, hget, hb]
      exact answer_member_roster h hb ht
  · have hlegacy := jidToLegacyName_of_none hfirst
    by_cases hname : N.legacyName node = ""
    · exact hempty hlegacy hname
    · rw [handlePresence_eq hname hlegacy hget, Option.map_map]
      simp only [State.handleSubscription, hlegacy, Option.bind_eq_bind, Option.bind_some,
        if_neg hname, hget]
      cases hcreate : createBuddy N (N.legacyName node) "" (N.buddyFlagsFromJid node) with
      | none => exact absurd ⟨hname, hstranger, hcreate⟩ hP
      | some b =>
        rw [← createBuddy_eq hcreate]
        simp only [Contact.found, hcreate, Contact.new]
        exact answer_temporary_roster (createBuddy_ask hcreate) ht

end Alive

/-! ## JIDs that a client can address -/

/-- The node of a valid JID: there is none, or nodeprep made it of what the client wrote. -/
def Addressed (N : Nodes) (node : String) : Prop := node = "" ∨ ∃ raw, N.prepare raw = some node

/-- The JIDs of the request are valid. -/
def Request.Addressed (N : Nodes) : Request → Prop
  | .presence node _ => Roster.Addressed N node
  | .rosterSet items => ∀ item ∈ items, Roster.Addressed N item.node

section Addressed

variable {env : Env} {N : Nodes} {cfg : Settings} {s : State} {node : String}

/-- The name of a prepared node is encoded to a prepared node. -/
theorem prepare_safeName (hN : N.Lawful) (hnode : N.prepare node = some node) :
    N.prepare (N.safeName (N.legacyName node) (N.buddyFlagsFromJid node)) =
      some (N.safeName (N.legacyName node) (N.buddyFlagsFromJid node)) := by
  have hclean := hN.clean _ _ hnode
  unfold Nodes.safeName Nodes.legacyName Nodes.buddyFlagsFromJid
  by_cases hplain : N.unescapedNode node = node
  · rw [if_pos hplain, if_pos hplain, if_neg (by decide),
      replaceLast_replaceLast (hclean '@' (by simp [Nodes.prohibited]))]
    exact hnode
  · rw [if_neg hplain, if_neg hplain, if_pos (by decide)]
    have hshort := hN.prepare_shortened (hN.escaped node hclean) (by simpa using hnode)
    simpa using hshort

theorem createBuddy_isSome (hN : N.Lawful) (haddressed : Addressed N node) (hne : node ≠ "")
    (aliasName : String) :
    createBuddy N (N.legacyName node) aliasName (N.buddyFlagsFromJid node) ≠ none := by
  rcases haddressed with hempty | ⟨raw, hraw⟩
  · exact absurd hempty hne
  · have hsafe := prepare_safeName hN (hN.again _ _ hraw)
    have hslash := hN.clean _ _ hsafe '/' (by simp [Nodes.prohibited])
    simp [createBuddy, Nodes.validNode, hsafe, hslash]

theorem not_impossible (hN : N.Lawful) {r : Request} (hr : r.Addressed N) :
    ¬ Impossible env N s r := by
  cases r with
  | presence node type =>
    rintro ⟨hname, -, hcreate⟩
    have hne : node ≠ "" := by
      rintro rfl
      exact hname (by rw [Nodes.legacyName, hN.empty]; decide)
    exact createBuddy_isSome hN hr hne "" hcreate
  | rosterSet items =>
    rintro ⟨item, hitem, hne, -, -, hcreate⟩
    exact createBuddy_isSome hN (hr item (List.mem_of_mem_head? hitem)) hne item.name hcreate

/-- In every state of the roster, a request with JIDs that a client can address uses no `NULL`, and
it leaves the roster as it is if no buddy can be created for its contact. -/
theorem handle_of_addressed {tr : List (State × Event)} (hN : N.Lawful)
    (h : (machine env).Run tr s) (halive : s.alive = true) {r : Request} (hr : r.Addressed N) :
    ∃ t, s.handle env N cfg r = some t ∧ (Impossible env N s r → SameRoster s t.roster) := by
  obtain ⟨but, hsound⟩ := (sound_of_run h).1 halive
  cases ht : s.handle env N cfg r with
  | none => exact absurd ((handle_eq_none_iff hsound r).mp ht).1 (not_impossible hN hr)
  | some t => exact ⟨t, rfl, fun himpossible => sameRoster_of_impossible hsound himpossible ht⟩

end Addressed

namespace Sample

/-- The printable ASCII characters that are not in upper case and not prohibited. -/
def isPlain (c : Char) : Bool :=
  decide (' ' < c ∧ c ≤ '~' ∧ c.isUpper = false ∧
    c ∉ Nodes.prohibited)

/-- Nodeprep for nodes in lower case: printable ASCII without the prohibited characters. -/
def lowerCase : Nodes := .xep0106 fun node => if node.toList.all isPlain then some node else none

theorem prepare_lowerCase {raw node : String} (h : lowerCase.prepare raw = some node) :
    node = raw ∧ ∀ c ∈ node.toList, isPlain c = true := by
  simp only [lowerCase, Nodes.xep0106] at h
  split at h
  · rename_i hall
    cases h
    exact ⟨rfl, List.all_eq_true.mp hall⟩
  · cases h

theorem lawful_lowerCase : lowerCase.Lawful where
  again raw node h := by
    obtain ⟨rfl, -⟩ := prepare_lowerCase h
    exact h
  clean raw node h c hc hmem :=
    (of_decide_eq_true ((prepare_lowerCase h).2 c hmem)).2.2.2 hc
  shorter u v h := by
    have hchars := (prepare_lowerCase h).2
    simp only [String.toList_ofList] at hchars
    refine if_pos (List.all_eq_true.mpr fun c hc => hchars c ?_)
    simp only [String.toList_ofList, List.mem_append, List.mem_cons] at hc ⊢
    rcases hc with hu | hslash | hv
    · exact .inl hu
    · exact .inr (.inl hslash)
    · exact .inr (.inr (.inr (.inr hv)))
  empty := by decide
  escaped _ h := Nodes.shortened_xep0106 _ h

/-- The JID `\\2fa\\5cab%c@…` of a contact that is not in the empty roster. -/
def subscribe : Request := .presence "\\2fa\\5cab%c" .subscribe

end Sample

theorem handle_of_addressed_subscribe :
    ∃ t, (State.load Sample.env []).handle Sample.env Sample.lowerCase {} Sample.subscribe =
        some t ∧
      (Impossible Sample.env Sample.lowerCase (State.load Sample.env []) Sample.subscribe →
        SameRoster (State.load Sample.env []) t.roster) := by
  refine handle_of_addressed Sample.lawful_lowerCase (.init ⟨[], by simp, by simp, rfl⟩)
    rfl ?_
  exact .inr ⟨"\\2fa\\5cab%c", by decide +kernel⟩

end Spectrum.Roster
