import Spectrum.Lib.Escape
import Spectrum.Model.Users

/-!
# Names of contacts and nodes of their JIDs

The JID of a contact has a node that is made of his legacy name, by escaping it or by writing the last
`@` as `%`; the flags of the contact say which. From the node alone `JIDToLegacyName` guesses the name.
Nodeprep and the escaping of nodes are those of Swiften.
-/

namespace Spectrum.Roster

open Lib

/-- Nodeprep, which refuses some nodes and with them the JIDs, and `Swift::JID::getEscapedNode` and
`getUnescapedNode`. -/
structure Nodes where
  prepare : String → Option String
  escapedNode : String → String
  unescapedNode : String → String

def buddyJidEscaping : Int := 2

namespace Nodes

variable (N : Nodes)

/-- `Buddy::JIDToLegacyName` without a user. -/
def legacyName (node : String) : String :=
  if N.unescapedNode node = node then replaceLast '%' '@' node else N.unescapedNode node

/-- `Buddy::buddyFlagsFromJID`. -/
def buddyFlagsFromJid (node : String) : Int :=
  if N.unescapedNode node = node then 0 else buddyJidEscaping

/-- `Buddy::getSafeName` while there is no JID. -/
def safeName (name : String) (flags : Int) : String :=
  if flags / buddyJidEscaping % 2 = 1 then N.escapedNode name else replaceLast '@' '%' name

/-- The node of the JID that `Buddy::generateJID` makes, if `LocalBuddy::isValid` accepts it. -/
def validNode (name : String) (flags : Int) : Option String :=
  (N.prepare (N.safeName name flags)).filter fun node => decide ('/' ∉ node.toList)

/-- The characters that nodeprep prohibits in nodes, all of which are escaped. -/
def prohibited : List Char := [' ', '\x22', '&', '\x27', '/', ':', '<', '>', '@']

/-- A prepared node is its own result and has no prohibited characters. Such a node may become shorter
when it is decoded and escaped again, by the digits behind a backslash; it stays prepared then. -/
structure Lawful : Prop where
  again : ∀ raw node, N.prepare raw = some node → N.prepare node = some node
  clean : ∀ raw node, N.prepare raw = some node → ∀ c ∈ prohibited, c ∉ node.toList
  shorter : ∀ u v, N.prepare (String.ofList (u ++ '\\' :: '5' :: 'c' :: v)) =
      some (String.ofList (u ++ '\\' :: '5' :: 'c' :: v)) →
    N.prepare (String.ofList (u ++ '\\' :: v)) = some (String.ofList (u ++ '\\' :: v))
  empty : N.unescapedNode "" = ""
  escaped : ∀ node, (∀ c ∈ prohibited, c ∉ node.toList) →
    Escape.Shortened node.toList (N.escapedNode (N.unescapedNode node)).toList

/-- A prepared node stays prepared when it is shortened. -/
theorem Lawful.prepare_shortened {N : Nodes} (h : N.Lawful) {cs ds : List Char}
    (hshort : Escape.Shortened cs ds)
    (hcs : N.prepare (String.ofList cs) = some (String.ofList cs)) :
    N.prepare (String.ofList ds) = some (String.ofList ds) := by
  induction hshort with
  | refl => exact hcs
  | cut _ ih => exact h.shorter _ _ ih

/-! ## XEP-0106 -/

/-- The escaping of nodes as it is documented. -/
def xep0106 (prepare : String → Option String) : Nodes where
  prepare
  escapedNode name := String.ofList (Escape.escape name.toList)
  unescapedNode node := String.ofList (Escape.unescape node.toList)

theorem codeOf_of_prohibited {cs : List Char} (h : ∀ c ∈ prohibited, c ∉ cs) :
    ∀ c ∈ cs, c ≠ '\\' → Escape.codeOf c = none := by
  intro c hc hne
  cases hcode : Escape.codeOf c with
  | none => rfl
  | some digits =>
    have htable : ∀ e ∈ Escape.codes, e.1 ≠ '\\' → e.1 ∈ prohibited := by decide
    have hmem := Escape.mem_codes_of_charOf (Escape.charOf_of_codeOf hcode)
    exact absurd hc (h c (htable _ hmem hne))

theorem shortened_xep0106 (prepare : String → Option String) {node : String}
    (h : ∀ c ∈ prohibited, c ∉ node.toList) :
    Escape.Shortened node.toList
      ((xep0106 prepare).escapedNode ((xep0106 prepare).unescapedNode node)).toList := by
  simp only [xep0106, String.toList_ofList]
  exact Escape.shortened_escape_unescape (codeOf_of_prohibited h)

end Nodes

end Spectrum.Roster
