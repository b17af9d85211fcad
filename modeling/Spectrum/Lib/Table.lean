import Mathlib.Data.List.Pairwise
import Mathlib.Data.List.Sort

/-!
# Tables with unique keys

A table is a list of rows of which no two clash, that is, share a unique key. The operations are
those of SQL: `INSERT` fails when the new row clashes, `INSERT OR REPLACE` deletes the rows it
clashes with, `ON DUPLICATE KEY UPDATE` changes them instead. An update has to leave the keys alone.
-/

namespace Spectrum.Lib

universe u

/-- Two rows clash when they share a unique key. -/
class Keyed (ρ : Type u) where
  Clash : ρ → ρ → Prop
  decClash : DecidableRel Clash
  symm : ∀ {r s : ρ}, Clash r s → Clash s r

open Keyed

instance {ρ : Type u} [Keyed ρ] (r s : ρ) : Decidable (Clash r s) := decClash r s

@[ext]
structure Table (ρ : Type u) [Keyed ρ] where
  rows : List ρ
  distinct : rows.Pairwise fun r s => ¬ Clash r s

namespace Table

variable {ρ : Type u} [Keyed ρ] {r s : ρ} {p : ρ → Bool} {f : ρ → ρ} {t t' : Table ρ}

def empty : Table ρ := ⟨[], List.Pairwise.nil⟩

theorem pairwise_append_singleton {l : List ρ} (hl : l.Pairwise fun r s => ¬ Clash r s)
    (hr : ∀ s ∈ l, ¬ Clash r s) : (l ++ [r]).Pairwise fun r s => ¬ Clash r s := by
  refine List.pairwise_append.mpr ⟨hl, List.pairwise_singleton _ _, ?_⟩
  intro a ha b hb hclash
  rw [List.mem_singleton.mp hb] at hclash
  exact hr a ha (symm hclash)

/-- `INSERT`. -/
def insert (r : ρ) (t : Table ρ) : Option (Table ρ) :=
  if h : ∀ s ∈ t.rows, ¬ Clash r s then
    some ⟨t.rows ++ [r], pairwise_append_singleton t.distinct h⟩
  else none

/-- `DELETE`. -/
def delete (p : ρ → Bool) (t : Table ρ) : Table ρ :=
  ⟨t.rows.filter fun r => !p r, t.distinct.filter _⟩

/-- `INSERT OR REPLACE`. -/
def replace (r : ρ) (t : Table ρ) : Table ρ where
  rows := t.rows.filter (fun s => !decide (Clash r s)) ++ [r]
  distinct := by
    refine pairwise_append_singleton (t.distinct.filter _) fun s hs => ?_
    simpa using (List.mem_filter.mp hs).2

/-- The assignments of an update leave the keys of the rows as they are. -/
def KeepsKeys (f : ρ → ρ) : Prop := ∀ r s, Clash (f r) s ↔ Clash r s

theorem KeepsKeys.intro (h : ∀ r s, Clash (f r) s ↔ Clash r s) : KeepsKeys f := h

theorem KeepsKeys.clash_iff (hf : KeepsKeys f) (r s : ρ) : Clash r (f s) ↔ Clash r s :=
  ⟨fun h => symm ((hf s r).mp (symm h)), fun h => symm ((hf s r).mpr (symm h))⟩

/-- `UPDATE`. -/
def update (p : ρ → Bool) (f : ρ → ρ) (hf : KeepsKeys f) (t : Table ρ) : Table ρ where
  rows := t.rows.map fun r => if p r then f r else r
  distinct := by
    refine List.pairwise_map.mpr (t.distinct.imp fun {r s} h => ?_)
    split <;> split
    · rwa [hf, hf.clash_iff]
    · rwa [hf]
    · rwa [hf.clash_iff]
    · exact h

/-- `UPDATE` of columns that belong to a key. -/
def rekey (p : ρ → Bool) (f : ρ → ρ) (t : Table ρ) : Option (Table ρ) :=
  let rows := t.rows.map fun r => if p r then f r else r
  if h : rows.Pairwise fun r s => ¬ Clash r s then some ⟨rows, h⟩ else none

/-- `INSERT … ON DUPLICATE KEY UPDATE`. -/
def upsert (r : ρ) (f : ρ → ρ) (hf : KeepsKeys f) (t : Table ρ) : Table ρ :=
  (t.insert r).getD (t.update (fun s => decide (Clash r s)) f hf)

/-! ## Rows -/

theorem eq_of_clash (t : Table ρ) (hr : r ∈ t.rows) (hs : s ∈ t.rows) (h : Clash r s) : r = s := by
  by_contra hne
  have hsymm : Std.Symm fun r s : ρ => ¬ Clash r s := ⟨fun _ _ h h' => h (symm h')⟩
  exact t.distinct.forall hr hs hne h

/-- A key finds the row that has it. -/
theorem find?_of_mem (t : Table ρ) (hp : ∀ r s, p r = true → p s = true → Clash r s)
    (hr : r ∈ t.rows) (hpr : p r = true) : t.rows.find? p = some r := by
  cases hfind : t.rows.find? p with
  | none =>
    rw [List.find?_eq_none] at hfind
    exact absurd hpr (hfind r hr)
  | some s =>
    have hs := List.find?_some hfind
    rw [t.eq_of_clash (List.mem_of_find?_eq_some hfind) hr (hp s r hs hpr)]

theorem mem_delete : r ∈ (t.delete p).rows ↔ r ∈ t.rows ∧ p r = false := by
  simp [delete]

theorem mem_replace : s ∈ (t.replace r).rows ↔ s ∈ t.rows ∧ ¬ Clash r s ∨ s = r := by
  simp [replace]

theorem mem_update {hf : KeepsKeys f} :
    s ∈ (t.update p f hf).rows ↔ ∃ r ∈ t.rows, (if p r then f r else r) = s := by
  simp [update]

omit [Keyed ρ] in
/-- A search by columns that are not updated finds the same row. -/
theorem find?_map_ite {p q : ρ → Bool} {f : ρ → ρ} (hq : ∀ r, q (f r) = q r) (rows : List ρ) :
    (rows.map fun r => if p r then f r else r).find? q =
      (rows.find? q).map fun r => if p r then f r else r := by
  have hkeeps : q ∘ (fun r => if p r then f r else r) = q := by
    funext r
    simp only [Function.comp_apply]
    split
    · exact hq r
    · rfl
  rw [List.find?_map, hkeeps]

theorem insert_eq_some (h : ∀ s ∈ t.rows, ¬ Clash r s) :
    ∃ t', t.insert r = some t' ∧ t'.rows = t.rows ++ [r] :=
  ⟨_, dif_pos h, rfl⟩

theorem insert_eq_none (hs : s ∈ t.rows) (h : Clash r s) : t.insert r = none :=
  dif_neg fun hall => hall s hs h

theorem rows_upsert_of_new {hf : KeepsKeys f} (h : ∀ s ∈ t.rows, ¬ Clash r s) :
    (t.upsert r f hf).rows = t.rows ++ [r] := by
  obtain ⟨t', hinsert, hrows⟩ := insert_eq_some h
  rw [upsert, hinsert, Option.getD_some, hrows]

theorem upsert_of_clash {hf : KeepsKeys f} (hs : s ∈ t.rows) (h : Clash r s) :
    t.upsert r f hf = t.update (fun s => decide (Clash r s)) f hf := by
  rw [upsert, insert_eq_none hs h, Option.getD_none]

/-! ## Tables with the same rows -/

/-- The tables have the same rows, in whatever order. -/
def SameRows (t t' : Table ρ) : Prop := ∀ r, r ∈ t.rows ↔ r ∈ t'.rows

/-- The row that an upsert leaves behind. -/
def upserted (r : ρ) (f : ρ → ρ) (t : Table ρ) : ρ :=
  ((t.rows.find? fun s => decide (Clash r s)).map f).getD r

/-- The rows after an upsert, if the rows that clash with the new one clash with each other. -/
theorem mem_upsert {hf : KeepsKeys f} (hone : ∀ s s', Clash r s → Clash r s' → Clash s s') :
    s ∈ (t.upsert r f hf).rows ↔ s ∈ t.rows ∧ ¬ Clash r s ∨ s = t.upserted r f := by
  by_cases hnew : ∀ s ∈ t.rows, ¬ Clash r s
  · have hnone : (t.rows.find? fun s => decide (Clash r s)) = none := by
      simpa [List.find?_eq_none] using hnew
    rw [rows_upsert_of_new hnew, upserted, hnone, List.mem_append, List.mem_singleton]
    exact or_congr_left ⟨fun hs => ⟨hs, hnew s hs⟩, And.left⟩
  · obtain ⟨x, hx, hrx⟩ : ∃ x ∈ t.rows, Clash r x := by simpa using hnew
    have hfind : (t.rows.find? fun s => decide (Clash r s)) = some x :=
      t.find?_of_mem (fun a b ha hb => hone a b (of_decide_eq_true ha) (of_decide_eq_true hb)) hx
        (decide_eq_true hrx)
    rw [upsert_of_clash hx hrx, mem_update, upserted, hfind, Option.map_some, Option.getD_some]
    constructor
    · rintro ⟨a, ha, rfl⟩
      by_cases hra : Clash r a
      · rw [if_pos (decide_eq_true hra), t.eq_of_clash ha hx (hone a x hra hrx)]
        exact Or.inr rfl
      · simp only [decide_eq_false hra, Bool.false_eq_true, if_false]
        exact Or.inl ⟨ha, hra⟩
    · rintro (⟨hs, hrs⟩ | rfl)
      · exact ⟨s, hs, by simp [hrs]⟩
      · exact ⟨x, hx, by simp [hrx]⟩

theorem delete_delete (p : ρ → Bool) (t : Table ρ) : (t.delete p).delete p = t.delete p := by
  refine Table.ext ?_
  simp only [delete, List.filter_filter, Bool.and_self]

/-- An upsert can be repeated, with a new row that clashes with the same rows. -/
theorem upsert_upsert {r' : ρ} {hf : KeepsKeys f} (hself : Clash r r) (hfix : f r = r)
    (h : ∀ s, f (f s) = f s)
    (hclash : ∀ s ∈ (t.upsert r f hf).rows, Clash r' s ↔ Clash r s) :
    (t.upsert r f hf).upsert r' f hf = t.upsert r f hf := by
  by_cases hnew : ∀ s ∈ t.rows, ¬ Clash r s
  · have hrows := @rows_upsert_of_new _ _ _ _ _ hf hnew
    have hr : r ∈ (t.upsert r f hf).rows := by
      rw [hrows]
      exact List.mem_append_right _ (List.mem_singleton_self r)
    rw [upsert_of_clash hr ((hclash r hr).mpr hself)]
    refine Table.ext ((List.map_congr_left fun s hs => ?_).trans (List.map_id _))
    split
    · rename_i hs'
      have hs' := (hclash s hs).mp (of_decide_eq_true hs')
      rw [hrows, List.mem_append, List.mem_singleton] at hs
      rcases hs with hs | rfl
      · exact absurd hs' (hnew s hs)
      · exact hfix
    · rfl
  · obtain ⟨s, hs, hrs⟩ : ∃ s ∈ t.rows, Clash r s := by simpa using hnew
    have hupdate := @upsert_of_clash _ _ _ _ _ _ hf hs hrs
    have hfs : f s ∈ (t.upsert r f hf).rows := by
      rw [hupdate]
      exact mem_update.mpr ⟨s, hs, if_pos (decide_eq_true hrs)⟩
    rw [upsert_of_clash hfs ((hclash _ hfs).mpr ((hf.clash_iff r s).mpr hrs))]
    refine Table.ext ((List.map_congr_left fun s hs => ?_).trans (List.map_id _))
    split
    · rename_i hs'
      have hs' := (hclash s hs).mp (of_decide_eq_true hs')
      rw [hupdate] at hs
      obtain ⟨s', -, rfl⟩ := mem_update.mp hs
      split
      · exact h s'
      · rename_i hno
        rw [if_neg hno] at hs'
        exact absurd (decide_eq_true hs') hno
    · rfl

/-! ## Selections in order -/

/-- `SELECT … WHERE … ORDER BY`. -/
def selectBy (t : Table ρ) (p : ρ → Bool) (key : ρ → Int) : List ρ :=
  (t.rows.filter p).insertionSort fun r s => key r ≤ key s

theorem selectBy_perm (t : Table ρ) (p : ρ → Bool) (key : ρ → Int) :
    (t.selectBy p key).Perm (t.rows.filter p) :=
  List.perm_insertionSort _ _

theorem mem_selectBy {key : ρ → Int} : r ∈ t.selectBy p key ↔ r ∈ t.rows ∧ p r = true := by
  rw [(t.selectBy_perm p key).mem_iff, List.mem_filter]

theorem selectBy_sorted {key : ρ → Int} :
    (t.selectBy p key).Pairwise fun r s => key r ≤ key s := by
  have htotal : Std.Total fun r s : ρ => key r ≤ key s := ⟨fun r s => Int.le_total (key r) (key s)⟩
  have htrans : IsTrans ρ fun r s => key r ≤ key s := ⟨fun _ _ _ => Int.le_trans⟩
  exact List.pairwise_insertionSort _ _

theorem selectBy_distinct {key : ρ → Int} :
    (t.selectBy p key).Pairwise fun r s => ¬ Clash r s :=
  ((t.selectBy_perm p key).pairwise_iff fun h h' => h (symm h')).mpr (t.distinct.filter p)

/-- If the selected rows with the same value clash, the values increase. -/
theorem selectBy_increasing {key : ρ → Int}
    (h : ∀ r ∈ t.selectBy p key, ∀ s ∈ t.selectBy p key, key r = key s → Clash r s) :
    (t.selectBy p key).Pairwise fun r s => key r < key s := by
  refine (selectBy_sorted.and selectBy_distinct).imp_of_mem fun {r s} hr hs hboth => ?_
  have hne : key r ≠ key s := fun heq => hboth.2 (h r hr s hs heq)
  have := hboth.1
  omega

end Table

end Spectrum.Lib
