import Mathlib.Data.List.TakeWhile
import Mathlib.Tactic.ByContra

/-!
# A scanning loop that cuts a text at a separator

Positions of a text as `std::string` has them. The loop takes a part from its position to the next
separator and goes on there; at the start of a turn it steps over one separator. A position behind the
end is an undefined step.

* `scan_eq`: with enough fuel the loop ends, and its parts are those of `List.splitOn`, but for one
  separator at the start.
-/

namespace Spectrum.Lib.Scan

variable {α : Type} [DecidableEq α] (sep : α) (text : List α)

/-- `text[i] == sep`. The position of the end can be read, and there is no separator. -/
def sepAt (i : Nat) : Option Bool :=
  if i ≤ text.length then some (decide (text[i]? = some sep)) else none

/-- `text.find(sep, i)`. -/
def findFrom (i : Nat) : Option Nat :=
  ((text.drop i).findIdx? fun a => decide (a = sep)).map fun n => i + n

/-- `text.substr(i, stop - i)`, which throws an exception behind the end. -/
def substring (i : Nat) (stop : Option Nat) : Option (List α) :=
  if i ≤ text.length then
    some (match stop with
      | none => text.drop i
      | some stop => (text.drop i).take (stop - i))
  else none

/-- One turn of the loop: the part, and the next position if there is one. -/
def turn (cur : Nat) : Option (List α × Option Nat) := do
  let skip ← sepAt sep text cur
  let cur := if skip then cur + 1 else cur
  let stop := findFrom sep text cur
  let part ← substring text cur stop
  return (part, stop)

def scan : Nat → Option Nat → Option (List (List α))
  | _, none => some []
  | 0, some _ => none
  | fuel + 1, some cur => do
    let r ← turn sep text cur
    let parts ← scan fuel r.2
    return r.1 :: parts

/-- The text without a separator at its start. -/
def skipSep : List α → List α
  | [] => []
  | a :: rest => if a = sep then rest else a :: rest

section

variable {sep text} {cur : Nat} {rest : List α}

theorem findFrom_of_not_mem (hdrop : text.drop cur = rest) (hno : sep ∉ rest) :
    findFrom sep text cur = none := by
  rw [findFrom, hdrop, Option.map_eq_none_iff, List.findIdx?_eq_none_iff]
  intro a ha
  simpa using fun heq : a = sep => hno (heq ▸ ha)

theorem findFrom_append {part : List α} (hdrop : text.drop cur = part ++ sep :: rest)
    (hno : sep ∉ part) : findFrom sep text cur = some (cur + part.length) := by
  have hpart : part.findIdx? (fun a => decide (a = sep)) = none := by
    rw [List.findIdx?_eq_none_iff]
    intro a ha
    simpa using fun heq : a = sep => hno (heq ▸ ha)
  rw [findFrom, hdrop, List.findIdx?_append, hpart, List.findIdx?_cons, if_pos (decide_eq_true rfl)]
  simp

/-- Where a turn starts to read, behind the separator that it steps over. -/
theorem turn_start (sep : α) (h : cur ≤ text.length) :
    ∃ skip start, sepAt sep text cur = some skip ∧ (if skip then cur + 1 else cur) = start ∧
      start ≤ text.length ∧ text.drop start = skipSep sep (text.drop cur) ∧ cur ≤ start ∧
      (start = cur → ∀ rest, text.drop cur ≠ sep :: rest) := by
  rw [sepAt, if_pos h]
  refine ⟨_, _, rfl, rfl, ?_⟩
  cases hdrop : text.drop cur with
  | nil =>
    have hnone : text[cur]? = none := List.getElem?_eq_none (List.drop_eq_nil_iff.mp hdrop)
    rw [hnone, if_neg (by simp)]
    exact ⟨h, hdrop, Nat.le_refl _, fun _ rest hcons => nomatch hcons⟩
  | cons a rest =>
    have hlt : cur < text.length := by
      by_contra hge
      rw [List.drop_of_length_le (Nat.le_of_not_lt hge)] at hdrop
      cases hdrop
    have hget : text[cur]? = some a := by
      have hhead := congrArg List.head? hdrop
      rwa [List.head?_drop] at hhead
    by_cases ha : a = sep
    · rw [hget, ha, if_pos (by simp), skipSep, if_pos rfl]
      refine ⟨hlt, ?_, Nat.le_succ _, fun hself => absurd hself (Nat.succ_ne_self _)⟩
      rw [← List.tail_drop, hdrop, List.tail_cons]
    · rw [hget, if_neg (by simpa using ha), skipSep, if_neg ha]
      exact ⟨h, hdrop, Nat.le_refl _, fun _ rest' hcons => ha (List.cons.inj hcons).1⟩

/-- A turn takes the first part; if there is another one, it goes on at the separator. -/
theorem turn_eq (sep : α) (h : cur ≤ text.length) :
    (sep ∉ skipSep sep (text.drop cur) ∧
      turn sep text cur = some (skipSep sep (text.drop cur), none)) ∨
    ∃ part rest stop, skipSep sep (text.drop cur) = part ++ sep :: rest ∧ sep ∉ part ∧
      turn sep text cur = some (part, some stop) ∧ stop ≤ text.length ∧ cur < stop ∧
      text.drop stop = sep :: rest := by
  obtain ⟨skip, start, hskip, hstart, hle, hdrop, hcur, hself⟩ := turn_start sep h
  have hturn : turn sep text cur =
      (substring text start (findFrom sep text start)).map fun part =>
        (part, findFrom sep text start) := by
    simp only [turn, hskip, Option.bind_eq_bind, Option.bind_some, hstart, Option.map_eq_bind]
    rfl
  by_cases hmem : sep ∈ skipSep sep (text.drop cur)
  · right
    obtain ⟨part, rest, heq, hno⟩ := List.eq_append_cons_of_mem hmem
    rw [heq] at hdrop
    have hlength := congrArg List.length hdrop
    rw [List.length_drop, List.length_append, List.length_cons] at hlength
    refine ⟨part, rest, start + part.length, heq, hno, ?_, by omega, ?_, ?_⟩
    · rw [hturn, findFrom_append hdrop hno, substring, if_pos hle, hdrop]
      simp
    · -- the position moves on, by the separator or by the part
      rcases Nat.lt_or_ge cur start with hlt | hge
      · omega
      · have hsame : start = cur := Nat.le_antisymm hge hcur
        have hpart : part ≠ [] := by
          rintro rfl
          rw [hsame] at hdrop
          exact hself hsame rest hdrop
        have hpos := List.length_pos_iff.mpr hpart
        omega
    · rw [← List.drop_drop, hdrop, List.drop_left]
  · left
    refine ⟨hmem, ?_⟩
    rw [hturn, findFrom_of_not_mem hdrop hmem, substring, if_pos hle, hdrop]
    rfl

theorem scan_none (fuel : Nat) : scan sep text fuel none = some [] := by
  cases fuel <;> rfl

/-- The loop ends within the text and cuts it at every separator. -/
theorem scan_eq {fuel : Nat} (h : cur ≤ text.length) (hfuel : text.length - cur < fuel) :
    scan sep text fuel (some cur) = some ((skipSep sep (text.drop cur)).splitOn sep) := by
  induction fuel generalizing cur with
  | zero => omega
  | succ fuel ih =>
    rw [scan]
    rcases turn_eq sep h with ⟨hno, hturn⟩ |
      ⟨part, rest, stop, heq, hno, hturn, hle, hlt, hdrop⟩
    · rw [hturn, List.splitOn_eq_singleton hno]
      simp only [Option.bind_eq_bind, Option.bind_some, scan_none]
      rfl
    · have hrest := ih hle (by omega)
      rw [hdrop, skipSep, if_pos rfl] at hrest
      rw [hturn, heq, List.splitOn_append_cons_self_of_not_mem hno]
      simp only [Option.bind_eq_bind, Option.bind_some, hrest]
      rfl

end

end Spectrum.Lib.Scan
