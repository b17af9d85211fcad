import Spectrum.Lib.Mirror
import Spectrum.Lib.SortedMap
import Spectrum.Roster.Nodes
import Spectrum.Transport.Presences

/-!
# Presences of contacts

What the resources of a user are told about his contacts. A status that the backend reports is sent
to the bare JID and so to every resource that is online; a resource that comes online later is sent
the presences of all contacts that are available. `User::handlePresence` takes a resource for new when
the number of entries of the presence oracle has changed. A contact is looked up under the name that
`JIDToLegacyName` makes of a node, which need not be the name that the node was made of.

The raw presences of `features.rawxml`, the presence of the transport itself and roster pushes are not
in this model. Of `m_readyForConnect` and of the setting `stay_connected` an event brings the values
that they have at that time.
-/

namespace Spectrum.Contacts

open Lib

/-! ## LocalBuddy -/

/-- A presence as it is sent. The payload `VCardUpdate` has the hash of the icon. -/
structure Sent where
  toJid : Jid
  fromJid : Jid
  available : Bool
  showType : StatusShow := .none
  status : String := ""
  vcardUpdate : Option String := none
  deriving DecidableEq, Repr

/-- `presence->setTo`. -/
def Sent.setTo (p : Sent) (recipient : Jid) : Sent := { p with toJid := recipient }

/-- `presence->setType(Unavailable)`. -/
def Sent.setUnavailable (p : Sent) : Sent := { p with available := false }

/-- A `LocalBuddy` with the presences in `m_presences`. -/
structure Buddy where
  name : String
  jid : Jid
  status : StatusShow := .none
  statusMessage : String := ""
  iconHash : String := ""
  presences : List Sent := []
  deriving DecidableEq, Repr

/-- The bare JID of the user and his name in the legacy network, the domain of the transport, the
settings, the node functions of Swiften, and `boost::locale::to_lower`. -/
structure Env where
  user : Jid
  uin : String := ""
  domain : String
  serverMode : Bool := false
  jidEscaping : Bool := true
  nodes : Roster.Nodes
  lower : String → String
  user_bare : user.toBare = user

/-- The flags of a contact whom the backend adds. -/
def Env.flags (env : Env) : Int := if env.jidEscaping then Roster.buddyJidEscaping else 0

/-- `m_presences` with a presence in the place of the one from the same JID. -/
def put (p : Sent) : List Sent → List Sent
  | [] => [p]
  | q :: ps => if q.fromJid = p.fromJid then p :: ps else q :: put p ps

namespace Buddy

variable (env : Env) (b : Buddy)

/-- A new `LocalBuddy`, which is deleted again if it is not valid. -/
def create (name : String) (flags : Int) : Option Buddy :=
  (env.nodes.validNode name flags).map fun node => { name, jid := ⟨node, env.domain, "bot"⟩ }

def isAvailable : Bool := b.status != .none

/-- The presence that `generatePresenceStanzas` creates. -/
def presence : Sent :=
  { toJid := env.user, fromJid := b.jid, available := b.isAvailable, showType := b.status
    status := b.statusMessage
    vcardUpdate := if b.isAvailable then some b.iconHash else none }

/-- `Buddy::generatePresenceStanzas`. What it returns is `m_presences` itself. -/
def generatePresenceStanzas : Buddy := { b with presences := put (b.presence env) b.presences }

/-- `Buddy::sendPresence`. -/
def sendPresence : Buddy × List Sent :=
  let b := b.generatePresenceStanzas env
  (b, b.presences)

/-- Send the presences to a JID, which stays in them. -/
def sendPresences (recipient : Jid) : Buddy × List Sent :=
  let b := b.generatePresenceStanzas env
  let b := { b with presences := b.presences.map (Sent.setTo · recipient) }
  (b, b.presences)

/-- The same presences as unavailable ones. Their type is restored behind. -/
def sendUnavailable (recipient : Jid) : Buddy × List Sent :=
  let (b, sent) := b.sendPresences env recipient
  (b, sent.map Sent.setUnavailable)

def setStatus (status : StatusShow) (statusMessage : String) : Buddy × List Sent :=
  if b.status ≠ status ∨ b.statusMessage ≠ statusMessage then
    { b with status, statusMessage }.sendPresence env
  else (b, [])

def setIconHash (iconHash : String) : Buddy × List Sent :=
  if b.iconHash ≠ iconHash then { b with iconHash }.sendPresence env else (b, [])

/-- The end of `handleBuddyPayload` and of `handleBuddyChangedPayload`. -/
def update (status : StatusShow) (statusMessage iconHash : String) : Buddy × List Sent :=
  let (b, sent) := b.setStatus env status statusMessage
  let (b, sent') := b.setIconHash env iconHash
  (b, sent ++ sent')

end Buddy

/-! ## The resources of the user -/

/-- What is shown of a contact. -/
structure Shown where
  showType : StatusShow
  status : String
  icon : Option String
  deriving DecidableEq, Repr

/-- The roster with the `NULL` entries of `operator[]`, the oracle, `m_resources`, and what the
resources have been told about the contacts. -/
structure State where
  buddies : SortedMap String (Option Buddy) := {}
  oracle : Oracle := fun _ => []
  resources : Nat := 0
  seen : Jid → Jid → Option Shown := fun _ _ => none

inductive Event
  | presence (p : Presence) (readyForConnect stayConnected : Bool)
  | buddyChanged (name : String) (status : StatusShow) (statusMessage iconHash : String)
  | buddyRemoved (name : String)
  | subscription (sender contact : Jid)
  | probe (sender contact : Jid)
  | rosterGet (sender : Jid)
  | rosterPushResponse (name : String)
  deriving DecidableEq, Repr

def Sent.shown (p : Sent) : Option Shown :=
  if p.available then some ⟨p.showType, p.status, p.vcardUpdate⟩ else none

namespace State

variable (env : Env) (s : State)

/-- The resource has sent an available presence, which is its last one. -/
def online (r : Jid) : Bool :=
  (s.oracle env.user).any fun p => decide (p.fromJid = r ∧ p.type = .available)

/-- A presence to the bare JID reaches every resource that is online, one to a full JID reaches this
resource. -/
def reaches (p : Sent) (r : Jid) : Bool :=
  decide (p.toJid = r) || (decide (p.toJid = env.user) && s.online env r)

def notice (p : Sent) : Notice Jid Jid (Option Shown) :=
  ⟨s.reaches env p, p.fromJid.toBare, p.shown⟩

/-- `Frontend::sendPresence` for every presence, as the resources receive them. -/
def send (sent : List Sent) : State :=
  { s with seen := Notice.tellAll s.seen (sent.map (s.notice env)) }

/-- `RosterManager::getBuddy`. -/
def getBuddy (name : String) : State × Option Buddy :=
  match s.buddies.get (env.lower name) with
  | some b => (s, b)
  | none => ({ s with buddies := s.buddies.set (env.lower name) none }, none)

/-- `Buddy::JIDToLegacyName`. -/
def jidToLegacyName (contact : Jid) : State × String :=
  match s.getBuddy env (env.nodes.legacyName contact.node) with
  | (s, some b) => (s, b.name)
  | (s, none) => (s, env.nodes.legacyName contact.node)

def setBuddy (b : Buddy) : State :=
  { s with buddies := s.buddies.set (env.lower b.name) (some b) }

/-- A buddy after a call that sends presences. -/
def put (r : Buddy × List Sent) : State := (s.setBuddy env r.1).send env r.2

/-- The buddy behind a turn of the loop over the available ones, and what the turn sends. -/
def touch (f : Buddy → Buddy × List Sent) (b : Buddy) : Buddy :=
  if b.isAvailable then (f b).1 else b

def sentFor (f : Buddy → Buddy × List Sent) (b : Buddy) : List Sent :=
  if b.isAvailable then (f b).2 else []

/-- The loop over the buddies that are available. -/
def forAvailable (f : Buddy → Buddy × List Sent) : State :=
  let buddies := s.buddies.entries.foldl (fun m e => m.set e.1 (e.2.map (touch f))) s.buddies
  let sent := s.buddies.entries.flatMap fun e => e.2.toList.flatMap (sentFor f)
  State.send env { s with buddies } sent

/-- `RosterManager::sendCurrentPresences`. -/
def sendCurrentPresences (recipient : Jid) : State :=
  s.forAvailable env (Buddy.sendPresences env · recipient)

/-- `RosterManager::sendUnavailablePresences`, less the presence of the transport. -/
def sendUnavailablePresences (recipient : Jid) : State :=
  s.forAvailable env (Buddy.sendUnavailable env · recipient)

/-- The oracle stores the presence. A resource that comes online knows nothing yet. -/
def receive (p : Presence) : State :=
  { s with
    oracle := (s.oracle.handleIncomingPresence p).1
    seen := if p.type = .available ∧ s.online env p.fromJid = false then
      Function.update s.seen p.fromJid fun _ => none else s.seen }

/-- The presences that the resource gets for its own one. -/
def tellResource (p : Presence) (currentResourcesCount : Nat) : State :=
  let s := if env.serverMode = false ∧ p.type = .unavailable then
    s.sendUnavailablePresences env p.fromJid else s
  if p.type ≠ .unavailable ∧ currentResourcesCount ≠ s.resources then
    s.sendCurrentPresences env p.fromJid
  else s

/-- `m_resources` at the end of `User::handlePresence`. -/
def nextResources (currentResourcesCount : Nat) (readyForConnect stayConnected : Bool) : Nat :=
  let away := (s.oracle.getHighestPriorityPresence env.user).all fun h =>
    decide (h.type = .unavailable)
  if readyForConnect && (stayConnected && away) then 0 else currentResourcesCount

/-- `User::handlePresence`, for a presence to the transport that the oracle passes on. -/
def handlePresence (p : Presence) (readyForConnect stayConnected : Bool) : State :=
  let s := s.receive env p
  let currentResourcesCount := (s.oracle.getAllPresence env.user).length
  let s := s.tellResource env p currentResourcesCount
  { s with resources := s.nextResources env currentResourcesCount readyForConnect stayConnected }

/-- `NetworkPluginServer::handleBuddyChangedPayload`. -/
def handleBuddyChangedPayload (name : String) (status : StatusShow)
    (statusMessage iconHash : String) : State :=
  match s.getBuddy env name with
  | (s, some b) => s.put env (b.update env status statusMessage iconHash)
  | (s, none) =>
    if name = env.uin then s
    else
      match Buddy.create env name env.flags with
      | some b => s.put env (b.update env status statusMessage iconHash)
      | none => s

/-- `RosterManager::removeBuddy`. The contact leaves the roster of every resource too. -/
def removeBuddy (name : String) : State :=
  match s.getBuddy env (env.lower name) with
  | (s, none) => s
  | (s, some b) =>
    { s with
      buddies := s.buddies.erase (env.lower b.name)
      seen := fun r j => if j = b.jid.toBare then none else s.seen r j }

/-- `RosterManager::handleSubscription` for a presence that asks for the contact, in gateway mode also
for one that accepts him. `RosterResponder` adds a contact in the same way in server mode. `setBuddy`
does not take a buddy that cannot be created. -/
def handleSubscription (sender contact : Jid) : Option State :=
  match s.jidToLegacyName env contact with
  | (s, name) =>
    if name = "" then some s
    else
      match s.getBuddy env name with
      | (s, some b) => some (if env.serverMode then s else s.put env (b.sendPresences env sender))
      | (s, none) =>
        (Buddy.create env name (env.nodes.buddyFlagsFromJid contact.node)).map fun b =>
          s.put env (if env.serverMode then (b, []) else b.sendPresences env sender)

/-- `RosterManager::sendCurrentPresence`. -/
def sendCurrentPresence (contact recipient : Jid) : State :=
  match s.getBuddy env (env.nodes.legacyName contact.node) with
  | (s, some b) => s.put env (b.sendPresences env recipient)
  | (s, none) => s.send env [{ toJid := recipient, fromJid := contact, available := false }]

/-- `XMPPRosterManager::handleBuddyRosterPushResponse`. -/
def handleBuddyRosterPushResponse (name : String) : State :=
  match s.getBuddy env name with
  | (s, some b) => if b.isAvailable then s.put env (b.sendPresence env) else s
  | (s, none) => s

end State

/-- Presences of the user come from his resources, to the transport. -/
def step (env : Env) (s : State) : Event → Option State
  | .presence p ready stay =>
    if p.fromJid.toBare = env.user ∧ p.fromJid.isBare = false ∧ p.toJid.node = "" ∧
        (p.type = .available ∨ p.type = .unavailable) then
      some (s.handlePresence env p ready stay)
    else none
  | .buddyChanged name status message icon =>
    some (s.handleBuddyChangedPayload env name status message icon)
  | .buddyRemoved name => some (s.removeBuddy env name)
  | .subscription sender contact =>
    if sender.toBare = env.user then s.handleSubscription env sender contact else none
  | .probe sender contact =>
    if sender.toBare = env.user then some (s.sendCurrentPresence env contact sender) else none
  | .rosterGet sender =>
    if sender.toBare = env.user then some (s.sendCurrentPresences env sender) else none
  | .rosterPushResponse name => some (s.handleBuddyRosterPushResponse env name)

/-- The entries of the oracle are presences of resources of the user, in the order of the resources. -/
structure OwnPresences (env : Env) (m : PresenceMap) : Prop where
  own : ∀ p ∈ m, p.fromJid.toBare = env.user
  sorted : SortedBy (fun p : Presence => p.fromJid.resource) m

/-- A user who has just been created. `RosterManager::setStorageBackend` has made buddies of the rows,
all of them offline. The oracle can have presences of him. -/
structure Fresh (env : Env) (s : State) : Prop where
  oracle : OwnPresences env (s.oracle env.user)
  resources : s.resources = 0
  seen : s.seen = fun _ _ => none
  buddies : ∀ k b, s.buddies.get k = some (some b) → k = env.lower b.name ∧
    ∃ flags b₀ iconHash, Buddy.create env b.name flags = some b₀ ∧ b = (b₀.setIconHash env iconHash).1

def machine (env : Env) : Machine State Event where
  init := Fresh env
  step := step env

end Spectrum.Contacts
