import Mathlib.Data.List.Basic
import Mathlib.Data.String.Basic

/-!
# Lists of fields with escapes and quotes

The tokenizer with boost's `escaped_list_separator`. Fields end at the separator. A quote opens or closes
a part of a field in which the separator is an ordinary character, and the character behind an escape
stands for itself or a newline. An escape that is none throws an exception.

* `fields_writeAll`: what is written as words and as texts in quotes is read back.
-/

namespace Spectrum.Lib

/-- The special characters. -/
structure EscapedList where
  escape : Char
  sep : Char
  quote : Char
  distinct : [escape, sep, quote].Nodup := by decide

namespace EscapedList

variable (L : EscapedList)

/-- `do_escape`. -/
def unescape (d : Char) : Option Char :=
  if d = 'n' then some '\n'
  else if d = L.quote ∨ d = L.sep ∨ d = L.escape then some d
  else none

/-- The rest of a field, which is in quotes or not, and the fields behind it. -/
def fields : Bool → List Char → Option (List (List Char))
  | _, [] => some [[]]
  | quoted, c :: cs =>
    if c = L.escape then
      match cs with
      | [] => none
      | d :: ds => (L.unescape d).bind fun x => (fields quoted ds).map (List.modifyHead (x :: ·))
    else if c = L.sep then
      if quoted then (fields quoted cs).map (List.modifyHead (c :: ·))
      else (fields false cs).map ([] :: ·)
    else if c = L.quote then fields (!quoted) cs
    else (fields quoted cs).map (List.modifyHead (c :: ·))

/-- The tokens of a text. The empty text has none. -/
def tokens (s : String) : Option (List String) :=
  if s = "" then some [] else (L.fields false s.toList).map (List.map String.ofList)

/-- A field that needs no escapes: a word, or a text in quotes. -/
structure Field where
  quoted : Bool
  text : List Char
  plain : ∀ c ∈ text, c ≠ L.escape ∧ c ≠ L.quote ∧ (c = L.sep → quoted = true)

variable {L}

def Field.write (f : L.Field) : List Char :=
  if f.quoted then L.quote :: (f.text ++ [L.quote]) else f.text

def writeAll : List L.Field → List Char
  | [] => []
  | [f] => f.write
  | f :: g :: fs => f.write ++ L.sep :: writeAll (g :: fs)

/-! ## Reading -/

theorem sep_ne_escape (L : EscapedList) : L.sep ≠ L.escape := by
  have h := L.distinct
  simp only [List.nodup_cons, List.mem_cons, not_or] at h
  exact Ne.symm h.1.1

theorem quote_ne (L : EscapedList) : L.quote ≠ L.escape ∧ L.quote ≠ L.sep := by
  have h := L.distinct
  simp only [List.nodup_cons, List.mem_cons, not_or] at h
  exact ⟨Ne.symm h.1.2.1, Ne.symm h.2.1.1⟩

theorem fields_cons {c : Char} (h : c ≠ L.escape) (quoted : Bool) (cs : List Char) :
    L.fields quoted (c :: cs) =
      if c = L.sep then
        if quoted then (L.fields quoted cs).map (List.modifyHead (c :: ·))
        else (L.fields false cs).map ([] :: ·)
      else if c = L.quote then L.fields (!quoted) cs
      else (L.fields quoted cs).map (List.modifyHead (c :: ·)) := by
  rw [fields.eq_def]
  exact if_neg h

theorem fields_sep (cs : List Char) :
    L.fields false (L.sep :: cs) = (L.fields false cs).map ([] :: ·) := by
  rw [fields_cons (sep_ne_escape L), if_pos rfl, if_neg Bool.false_ne_true]

theorem fields_quote (quoted : Bool) (cs : List Char) :
    L.fields quoted (L.quote :: cs) = L.fields (!quoted) cs := by
  obtain ⟨hescape, hsep⟩ := quote_ne L
  rw [fields_cons hescape, if_neg hsep, if_pos rfl]

/-- An ordinary character belongs to the field. -/
theorem fields_plain {quoted : Bool} {c : Char}
    (h : c ≠ L.escape ∧ c ≠ L.quote ∧ (c = L.sep → quoted = true)) (cs : List Char) :
    L.fields quoted (c :: cs) = (L.fields quoted cs).map (List.modifyHead (c :: ·)) := by
  obtain ⟨hescape, hquote, hsep⟩ := h
  rw [fields_cons hescape, if_neg hquote]
  split
  · rename_i heq
    rw [if_pos (hsep heq)]
  · rfl

theorem fields_append {quoted : Bool} {text : List Char}
    (h : ∀ c ∈ text, c ≠ L.escape ∧ c ≠ L.quote ∧ (c = L.sep → quoted = true)) (cs : List Char) :
    L.fields quoted (text ++ cs) = (L.fields quoted cs).map (List.modifyHead (text ++ ·)) := by
  induction text with
  | nil =>
    rw [List.nil_append]
    cases L.fields quoted cs with
    | none => rfl
    | some fs => cases fs <;> rfl
  | cons c text ih =>
    obtain ⟨hc, htext⟩ := List.forall_mem_cons.mp h
    rw [List.cons_append, fields_plain hc, ih htext, Option.map_map]
    congr 1
    ext fs : 1
    cases fs <;> rfl

theorem Field.fields_write (f : L.Field) (cs : List Char) :
    L.fields false (f.write ++ cs) = (L.fields false cs).map (List.modifyHead (f.text ++ ·)) := by
  have hplain := f.plain
  unfold Field.write
  split
  · rename_i hquoted
    rw [hquoted] at hplain
    rw [List.cons_append, List.append_assoc, List.singleton_append, fields_quote, Bool.not_false,
      fields_append hplain, fields_quote, Bool.not_true]
  · rename_i hquoted
    rw [Bool.eq_false_iff.mpr hquoted] at hplain
    exact fields_append hplain cs

/-- Words and texts in front of a separator are fields of their own. -/
theorem fields_writeAll_append (f : L.Field) (fs : List L.Field) (cs : List Char) :
    L.fields false (writeAll (f :: fs) ++ L.sep :: cs) =
      (L.fields false cs).map ((f :: fs).map Field.text ++ ·) := by
  induction fs generalizing f with
  | nil =>
    rw [writeAll, f.fields_write, fields_sep, Option.map_map]
    congr 1
    ext ts : 1
    exact congrArg (· :: ts) (List.append_nil f.text)
  | cons g fs ih =>
    rw [writeAll, List.append_assoc, f.fields_write, List.cons_append, fields_sep, ih, Option.map_map,
      Option.map_map]
    congr 1
    ext ts : 1
    exact congrArg (· :: _) (List.append_nil f.text)

/-- A text that ends inside quotes, and does not end them, is the end of the last field. -/
theorem fields_true {text : List Char} (h : ∀ c ∈ text, c ≠ L.escape ∧ c ≠ L.quote) :
    L.fields true text = some [text] := by
  have hplain : ∀ c ∈ text, c ≠ L.escape ∧ c ≠ L.quote ∧ (c = L.sep → true = true) :=
    fun c hc => ⟨(h c hc).1, (h c hc).2, fun _ => rfl⟩
  have hread := fields_append hplain []
  rw [List.append_nil] at hread
  rw [hread, fields, Option.map_some, List.modifyHead_cons, List.append_nil]

/-- Fields that need no escapes are read back. -/
theorem fields_writeAll (f : L.Field) (fs : List L.Field) :
    L.fields false (writeAll (f :: fs)) = some ((f :: fs).map Field.text) := by
  induction fs generalizing f with
  | nil =>
    have hread := f.fields_write []
    rw [List.append_nil] at hread
    rw [writeAll, hread, fields, Option.map_some, List.modifyHead_cons, List.append_nil]
    rfl
  | cons g fs ih =>
    rw [writeAll, f.fields_write, fields_sep, ih, Option.map_some, Option.map_some,
      List.modifyHead_cons, List.append_nil]
    rfl

theorem tokens_of_toList {s : String} {f g : L.Field} {fs : List L.Field}
    (h : s.toList = writeAll (f :: g :: fs)) :
    L.tokens s = some ((f :: g :: fs).map fun f => String.ofList f.text) := by
  have hne : s ≠ "" := by
    rintro rfl
    have hmem : L.sep ∈ writeAll (f :: g :: fs) :=
      List.mem_append_right _ List.mem_cons_self
    rw [← h] at hmem
    cases hmem
  rw [tokens, if_neg hne, h, fields_writeAll, Option.map_some, List.map_map]
  rfl

end EscapedList

end Spectrum.Lib
