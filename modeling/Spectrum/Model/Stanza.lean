import Mathlib.Data.String.Basic

/-!
# Addresses and stanzas

The XMPP data that the transport reads: JIDs, presences with the payloads `User` and
`UserManager` look at, and the elements a client sends on a server-mode stream.

`Swift::JID` runs its three parts through stringprep when it is built from text. That
code is not part of the repository, so `StringPrep` carries it as a parameter; a `Jid`
is the prepared result. An absent resource is the empty one.
-/

namespace Spectrum

structure Jid where
  node : String
  domain : String
  resource : String
  deriving DecidableEq, Repr

namespace Jid

/-- The default-constructed `Swift::JID()`. -/
def empty : Jid := ⟨"", "", ""⟩

def toBare (j : Jid) : Jid := { j with resource := "" }

def isBare (j : Jid) : Bool := j.resource == ""

/-- `Swift::JID::isValid`: a JID without a domain is invalid. -/
def isValid (j : Jid) : Bool := j.domain != ""

def toString (j : Jid) : String :=
  (if j.node = "" then "" else j.node ++ "@") ++ j.domain ++
    (if j.resource = "" then "" else "/" ++ j.resource)

@[simp] theorem toBare_toBare (j : Jid) : j.toBare.toBare = j.toBare := rfl

end Jid

/-- The stringprep profiles that `Swift::JID` applies to its parts. -/
structure StringPrep where
  node : String → String
  domain : String → String
  resource : String → String

namespace StringPrep

/-- `Swift::JID(node, domain)`. -/
def bareJid (prep : StringPrep) (node domain : String) : Jid :=
  ⟨prep.node node, prep.domain domain, ""⟩

/-- `Swift::JID(node, domain, resource)`. -/
def fullJid (prep : StringPrep) (node domain resource : String) : Jid :=
  ⟨prep.node node, prep.domain domain, prep.resource resource⟩

/-- Text that is already prepared. -/
def plain : StringPrep := ⟨id, id, id⟩

end StringPrep

/-- `Swift::StatusShow::Type`. -/
inductive StatusShow
  | online | away | ffc | xa | dnd | none
  deriving DecidableEq, Repr

/-- `StatusShow::typeToAvailabilityOrdering`. -/
def StatusShow.availability : StatusShow → Nat
  | .online => 4
  | .away => 2
  | .ffc => 5
  | .xa => 1
  | .dnd => 3
  | .none => 0

/-- `Swift::Presence::Type`. -/
inductive PresenceType
  | available | error | probe | subscribe | subscribed | unavailable | unsubscribe | unsubscribed
  deriving DecidableEq, Repr

/-- A presence with the payloads the transport reads: the `StatusShow` payload, `CapsInfo`
(its hash name), `MUCPayload` (with its optional password) and `InvisiblePayload`. -/
structure Presence where
  fromJid : Jid
  toJid : Jid
  type : PresenceType := .available
  showPayload : Option StatusShow := none
  priority : Int := 0
  status : String := ""
  capsHash : Option String := none
  muc : Option (Option String) := none
  invisible : Bool := false
  deriving DecidableEq, Repr

namespace Presence

/-- `Swift::Presence::getShow`: without a payload an available presence is online and any
other presence has no show. -/
def getShow (p : Presence) : StatusShow :=
  match p.showPayload with
  | some s => s
  | none => if p.type = .available then .online else .none

/-- The test `isMUC` of `User::handlePresence` and `UserManager::handlePresence`. -/
def isMUC (p : Presence) : Bool :=
  p.muc.isSome || p.toJid.node.toList.head? == some '#'

end Presence

/-! ## Elements of a client stream -/

/-- The parts of `Swift::PLAINMessage` that the session uses. -/
structure PlainMessage where
  authenticationID : String
  password : String
  deriving DecidableEq, Repr

/-- The payloads of an IQ that an uninitialized session tells apart. -/
inductive IqPayload
  | resourceBind | startSession | other
  deriving DecidableEq, Repr

/-- What `handleElement` receives. The message of an `AuthRequest` is given decoded. -/
inductive Element
  | authRequest (mechanism : String) (message : Option PlainMessage)
  | startTls
  | iq (payload : IqPayload) (id : String)
  | presence (p : Presence)
  | message
  | other
  deriving DecidableEq, Repr

end Spectrum
