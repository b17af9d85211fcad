import Mathlib.Data.List.TakeWhile
import Mathlib.Order.Defs.PartialOrder

/-!
# Joins of sorted lists

The nested loops find for every key all rows that have it. A single pass through both lists, which
takes the rows at the front while they have the key, finds them up to the first row whose key is in
no place of the list of keys.
-/

namespace Spectrum.Lib.MergeJoin

variable {ρ κ : Type} [DecidableEq κ] (key : ρ → κ)

/-- The rows of a key. -/
def matching (id : κ) (rows : List ρ) : List ρ := rows.filter fun r => decide (key r = id)

/-- Every key takes the rows at the front that have it. -/
def runs : List κ → List ρ → List (List ρ)
  | [], _ => []
  | id :: ids, rows =>
    rows.takeWhile (fun r => decide (key r = id)) ::
      runs ids (rows.dropWhile fun r => decide (key r = id))

/-- The rows before the first one whose key is not in the list. -/
def reached (ids : List κ) (rows : List ρ) : List ρ :=
  rows.takeWhile fun r => decide (key r ∈ ids)

/-- The first row whose key is not in the list and all rows behind it. -/
def unreached (ids : List κ) (rows : List ρ) : List ρ :=
  rows.dropWhile fun r => decide (key r ∈ ids)

variable {key} {id : κ} {ids : List κ} {rows l : List ρ} {r : ρ}

theorem mem_matching : r ∈ matching key id rows ↔ r ∈ rows ∧ key r = id := by
  rw [matching, List.mem_filter, decide_eq_true_iff]

theorem matching_append (l l' : List ρ) :
    matching key id (l ++ l') = matching key id l ++ matching key id l' :=
  List.filter_append l l'

theorem matching_cons_of_eq (h : key r = id) :
    matching key id (r :: rows) = r :: matching key id rows :=
  List.filter_cons_of_pos (decide_eq_true h)

theorem matching_cons_of_ne (h : key r ≠ id) :
    matching key id (r :: rows) = matching key id rows :=
  List.filter_cons_of_neg (by simpa using h)

theorem matching_eq_self (h : ∀ r ∈ l, key r = id) : matching key id l = l :=
  List.filter_eq_self.mpr fun r hr => decide_eq_true (h r hr)

theorem matching_eq_nil (h : ∀ r ∈ l, key r ≠ id) : matching key id l = [] :=
  List.filter_eq_nil_iff.mpr fun r hr => by simpa using h r hr

theorem reached_append_unreached (key : ρ → κ) (ids : List κ) (rows : List ρ) :
    reached key ids rows ++ unreached key ids rows = rows :=
  List.takeWhile_append_dropWhile

theorem mem_ids_of_mem_reached (h : r ∈ reached key ids rows) : key r ∈ ids :=
  of_decide_eq_true (List.mem_takeWhile_imp (p := fun r => decide (key r ∈ ids)) h)

theorem key_eq_of_mem_takeWhile (h : r ∈ rows.takeWhile fun r => decide (key r = id)) :
    key r = id :=
  of_decide_eq_true (List.mem_takeWhile_imp (p := fun r => decide (key r = id)) h)

variable [Preorder κ]

/-- A key that is passed is not met again. -/
theorem reached_cons_of_head (hids : ∀ id' ∈ ids, id < id')
    (hrows : rows.Pairwise fun r s => key r ≤ key s) (hhead : ∀ r ∈ rows.head?, key r ≠ id) :
    reached key (id :: ids) rows = reached key ids rows := by
  cases rows with
  | nil => rfl
  | cons r rows =>
    have hne : key r ≠ id := hhead r rfl
    by_cases hr : key r ∈ ids
    · have hcongr : ∀ s ∈ r :: rows, key s ≠ id := by
        intro s hs
        rcases List.mem_cons.mp hs with rfl | hs
        · exact hne
        · have hlt := lt_of_lt_of_le (hids _ hr) ((List.pairwise_cons.mp hrows).1 s hs)
          exact (ne_of_lt hlt).symm
      rw [reached, reached]
      generalize r :: rows = l at hcongr
      induction l with
      | nil => rfl
      | cons s l ih =>
        have hs : key s ≠ id := hcongr s List.mem_cons_self
        have hl := ih fun s' hs' => hcongr s' (List.mem_cons_of_mem _ hs')
        simp only [List.takeWhile_cons, List.mem_cons, hs, false_or] at hl ⊢
        rw [hl]
    · simp only [reached, List.takeWhile_cons, List.mem_cons, hne, hr, or_self, decide_false,
        Bool.false_eq_true, if_false]

theorem reached_cons (hids : ∀ id' ∈ ids, id < id')
    (hrows : rows.Pairwise fun r s => key r ≤ key s) :
    reached key (id :: ids) rows =
      rows.takeWhile (fun r => decide (key r = id)) ++
        reached key ids (rows.dropWhile fun r => decide (key r = id)) := by
  have hhead : ∀ r ∈ (rows.dropWhile fun r => decide (key r = id)).head?, key r ≠ id := by
    intro r hr
    have hnot := List.head?_dropWhile_not (fun r => decide (key r = id)) rows
    rw [Option.mem_def.mp hr] at hnot
    simpa using hnot
  have hown : ∀ r ∈ rows.takeWhile (fun r => decide (key r = id)),
      decide (key r ∈ id :: ids) = true := by
    intro r hr
    exact decide_eq_true (List.mem_cons.mpr (Or.inl (key_eq_of_mem_takeWhile hr)))
  have hsplit : reached key (id :: ids) (rows.takeWhile (fun r => decide (key r = id)) ++
      rows.dropWhile fun r => decide (key r = id)) =
        rows.takeWhile (fun r => decide (key r = id)) ++
          reached key (id :: ids) (rows.dropWhile fun r => decide (key r = id)) :=
    List.takeWhile_append_of_pos hown
  rw [List.takeWhile_append_dropWhile] at hsplit
  rw [← reached_cons_of_head hids (hrows.sublist (List.dropWhile_sublist _)) hhead]
  exact hsplit

/-- The single pass finds what the nested loops find among the rows that it reaches. -/
theorem runs_eq_map (hids : ids.Pairwise (· < ·))
    (hrows : rows.Pairwise fun r s => key r ≤ key s) :
    runs key ids rows = ids.map fun id => matching key id (reached key ids rows) := by
  induction ids generalizing rows with
  | nil => rfl
  | cons id ids ih =>
    obtain ⟨hlt, hids⟩ := List.pairwise_cons.mp hids
    have hown : ∀ r ∈ rows.takeWhile fun r => decide (key r = id), key r = id :=
      fun r hr => key_eq_of_mem_takeWhile hr
    rw [runs, List.map_cons, reached_cons hlt hrows,
      ih hids (hrows.sublist (List.dropWhile_sublist _))]
    congr 1
    · rw [matching_append, matching_eq_self hown, matching_eq_nil, List.append_nil]
      intro r hr
      exact (ne_of_lt (hlt _ (mem_ids_of_mem_reached hr))).symm
    · refine List.map_congr_left fun id' hid' => ?_
      have hnone : ∀ r ∈ rows.takeWhile (fun r => decide (key r = id)), key r ≠ id' := by
        intro r hr
        rw [hown r hr]
        exact ne_of_lt (hlt id' hid')
      rw [matching_append, matching_eq_nil hnone, List.nil_append]

end Spectrum.Lib.MergeJoin
