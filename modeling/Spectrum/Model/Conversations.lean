import Spectrum.Model.Stanza

/-!
# Conversations of a user

`ConversationManager` and the part of `Conversation` that presence handling uses: which
conversations exist under which legacy name, which of them are rooms, and the full JIDs
that take part. The map is a list ordered by key like the `std::map` of the source.
-/

namespace Spectrum

structure Conversation where
  legacyName : String
  muc : Bool := false
  room : String := ""
  nickname : String := ""
  mucEscaping : Bool := false
  jids : List Jid := []
  deriving DecidableEq, Repr

namespace Conversation

def setRoom (room : String) (c : Conversation) : Conversation :=
  { c with room := room, legacyName := room ++ "/" ++ c.legacyName }

def addJid (j : Jid) (c : Conversation) : Conversation := { c with jids := c.jids ++ [j] }

def removeJid (j : Jid) (c : Conversation) : Conversation :=
  { c with jids := c.jids.filter fun i => i ≠ j }

end Conversation

/-- `ConversationManager::m_convs`. -/
abbrev Conversations := List (String × Conversation)

namespace Conversations

/-- The entry stored under a key, with the key. -/
def find (name : String) (cs : Conversations) : Option (String × Conversation) :=
  cs.find? fun kc => kc.1 = name

/-- The parts of a name between its slashes. -/
def segments : List Char → List Char → List (List Char)
  | acc, [] => [acc.reverse]
  | acc, c :: cs => if c = '/' then acc.reverse :: segments [] cs else segments (c :: acc) cs

/-- `getConversation` on the segments of the name: the name itself, or, when there is a
conversation for the part before the first slash, the lookup of the rest. -/
def getSegments (cs : Conversations) : List (List Char) → Option (String × Conversation)
  | [] => none
  | [s] => find (String.ofList s) cs
  | s :: rest =>
    match find (String.ofList (List.intercalate ['/'] (s :: rest))) cs with
    | some c => some c
    | none => if (find (String.ofList s) cs).isNone then none else getSegments cs rest

def getConversation (name : String) (cs : Conversations) : Option (String × Conversation) :=
  getSegments cs (segments [] name.toList)

/-- `m_convs[name] = conv`. -/
def put (name : String) (c : Conversation) : Conversations → Conversations
  | [] => [(name, c)]
  | kd :: cs =>
    if kd.1 = name then (name, c) :: cs
    else if name < kd.1 then (name, c) :: kd :: cs
    else kd :: put name c cs

def addConversation (c : Conversation) (cs : Conversations) : Conversations :=
  put c.legacyName c cs

def removeConversation (c : Conversation) (cs : Conversations) : Conversations :=
  (cs.map fun kd => if kd.2.room = c.legacyName then (kd.1, kd.2.setRoom "") else kd).filter
    fun kd => kd.1 ≠ c.legacyName

/-- Change the conversation stored under a key. -/
def update (name : String) (f : Conversation → Conversation) (cs : Conversations) :
    Conversations :=
  cs.map fun kd => if kd.1 = name then (kd.1, f kd.2) else kd

/-- `removeJID`, with the rooms that nobody takes part in any more, in map order. -/
def removeJid (j : Jid) (cs : Conversations) : Conversations × List String :=
  let cs := cs.map fun kd => if kd.1 = "" then kd else (kd.1, kd.2.removeJid j)
  (cs, (cs.filter fun kd => kd.1 ≠ "" ∧ kd.2.jids = [] ∧ kd.2.muc = true).map Prod.fst)

def clearJids (cs : Conversations) : Conversations :=
  cs.map fun kd => (kd.1, { kd.2 with jids := [] })

end Conversations

end Spectrum
