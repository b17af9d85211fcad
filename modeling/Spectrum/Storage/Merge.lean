import Mathlib.Data.List.Nodup
import Spectrum.Lib.MergeJoin
import Spectrum.Storage.Reading
import Spectrum.Storage.Users

/-!
# The two joins

SQLite and MySQL give the settings to the buddies in a single pass, PostgreSQL in nested loops. The
single pass stops for ever at a setting without a buddy, and it gives the setting that has waited
for its buddy away whatever its type is.
-/

namespace Spectrum.Storage

open Lib

/-- A setting has one of the types that `getBuddies` knows. -/
def BuddySettingRow.Known (r : BuddySettingRow) : Prop :=
  r.type = typeBoolean ∨ r.type = typeString

instance (r : BuddySettingRow) : Decidable r.Known := inferInstanceAs (Decidable (_ ∨ _))

/-- The type of a setting and the part that the type names. -/
def SettingVariableInfo.seen (var : SettingVariableInfo) : SettingVariableInfo where
  type := var.type
  s := if var.type = typeString then var.s else ""
  b := if var.type = typeBoolean then var.b else false

/-- A buddy with the settings that can be seen of it. -/
def BuddyInfo.seen (b : BuddyInfo) : Int × (String → Option SettingVariableInfo) :=
  (b.id, fun key => (b.settings key).map SettingVariableInfo.seen)

/-- The setting of a row. -/
def BuddySettingRow.setting (r : BuddySettingRow) : SettingVariableInfo :=
  (SettingVariableInfo.read {} r).seen

/-- The row is put among the settings that can be seen. -/
def put (settings : String → Option SettingVariableInfo) (r : BuddySettingRow) :
    String → Option SettingVariableInfo :=
  fun key => if key = r.var then some r.setting else settings key

/-- The rows of the table, without those whose id means that no row is waiting. -/
def stored (rows : List BuddySettingRow) : List BuddySettingRow :=
  rows.filter fun r => decide (r.buddyId ≠ -1)

def known (rows : List BuddySettingRow) : List BuddySettingRow :=
  rows.filter fun r => decide r.Known

/-- What a buddy gets whose first row was waiting. -/
def waitedFor : List BuddySettingRow → List BuddySettingRow
  | [] => []
  | r :: rows => r :: known rows

/-- No setting of a buddy is behind a setting without a buddy, and the first setting of every buddy
but the first has a known type. -/
structure JoinsMeet (ids : List Int) (rows : List BuddySettingRow) : Prop where
  behind : ∀ r ∈ MergeJoin.unreached BuddySettingRow.buddyId ids rows, r.Known → r.buddyId ∉ ids
  first : ∀ id ∈ ids.tail,
    ∀ r ∈ (MergeJoin.matching BuddySettingRow.buddyId id
      (MergeJoin.reached BuddySettingRow.buddyId ids rows)).head?, r.Known

section Seen

variable {b : BuddyInfo} {var : SettingVariableInfo} {r : BuddySettingRow}
  {settings settings' : String → Option SettingVariableInfo} {rows l l' : List BuddySettingRow}
  {key : String}

theorem known_cons_of_known (h : r.Known) : known (r :: rows) = r :: known rows :=
  List.filter_cons_of_pos (decide_eq_true h)

theorem known_cons_of_not_known (h : ¬ r.Known) : known (r :: rows) = known rows :=
  List.filter_cons_of_neg (by simpa using h)

theorem mem_known : r ∈ known rows ↔ r ∈ rows ∧ r.Known := by
  rw [known, List.mem_filter, decide_eq_true_iff]

theorem known_sublist (rows : List BuddySettingRow) : (known rows).Sublist rows :=
  List.filter_sublist

theorem mem_stored : r ∈ stored rows ↔ r ∈ rows ∧ r.buddyId ≠ -1 := by
  rw [stored, List.mem_filter, decide_eq_true_iff]

theorem waitedFor_sublist (rows : List BuddySettingRow) : (waitedFor rows).Sublist rows := by
  cases rows with
  | nil => exact List.Sublist.slnil
  | cons r rows => exact List.filter_sublist.cons_cons r

theorem mem_waitedFor_of_known (hr : r ∈ rows) (h : r.Known) : r ∈ waitedFor rows := by
  cases rows with
  | nil => exact hr
  | cons s rows =>
    rcases List.mem_cons.mp hr with rfl | hr
    · exact List.mem_cons_self
    · exact List.mem_cons_of_mem _ (mem_known.mpr ⟨hr, h⟩)

theorem mem_waitedFor_of_head (h : r ∈ rows.head?) : r ∈ waitedFor rows := by
  cases rows with
  | nil => cases h
  | cons s rows =>
    obtain rfl := Option.some.inj h
    exact List.mem_cons_self

theorem known_of_mem_waitedFor (hhead : ∀ r ∈ rows.head?, r.Known) (h : r ∈ waitedFor rows) :
    r.Known := by
  cases rows with
  | nil => cases h
  | cons s rows =>
    rcases List.mem_cons.mp h with rfl | h
    · exact hhead r rfl
    · exact (mem_known.mp h).2

theorem seen_read (var : SettingVariableInfo) (r : BuddySettingRow) :
    (var.read r).seen = r.setting := by
  unfold BuddySettingRow.setting SettingVariableInfo.read SettingVariableInfo.seen
  by_cases hboolean : r.type = typeBoolean
  · simp [hboolean, typeBoolean, typeString]
  · by_cases hstring : r.type = typeString
    · simp [hstring, typeBoolean, typeString]
    · simp [hboolean, hstring]

theorem seen_setSetting (h : var.seen = r.setting) :
    (b.setSetting r.var var).seen = (b.id, put b.seen.2 r) := by
  refine Prod.ext rfl (funext fun key => ?_)
  simp only [BuddyInfo.seen, BuddyInfo.setSetting, put]
  split
  · rw [Option.map_some, h]
  · rfl

theorem foldl_put_of_not_mem (h : ∀ r ∈ rows, r.var ≠ key) :
    rows.foldl put settings key = settings key := by
  induction rows generalizing settings with
  | nil => rfl
  | cons r rows ih =>
    rw [List.foldl_cons, ih fun s hs => h s (List.mem_cons_of_mem _ hs), put,
      if_neg (h r List.mem_cons_self).symm]

theorem foldl_put_of_mem (hvars : rows.Pairwise fun r s => r.var ≠ s.var) (hr : r ∈ rows) :
    rows.foldl put settings r.var = some r.setting := by
  induction rows generalizing settings with
  | nil => cases hr
  | cons s rows ih =>
    obtain ⟨hne, hvars⟩ := List.pairwise_cons.mp hvars
    rw [List.foldl_cons]
    rcases List.mem_cons.mp hr with rfl | hr
    · rw [foldl_put_of_not_mem fun s hs => (hne s hs).symm, put, if_pos rfl]
    · exact ih hvars hr

/-- Rows of one buddy give the same settings if and only if they are the same. -/
theorem foldl_put_eq_iff (hvars : rows.Pairwise fun r s => r.var ≠ s.var) (hl : l.Sublist rows)
    (hl' : l'.Sublist rows) :
    l.foldl put (fun _ => none) = l'.foldl put (fun _ => none) ↔ ∀ r, r ∈ l ↔ r ∈ l' := by
  have hsame : ∀ {r s}, r ∈ rows → s ∈ rows → r.var = s.var → r = s := by
    intro r s hr hs heq
    have hnodup : (rows.map BuddySettingRow.var).Nodup := List.pairwise_map.mpr hvars
    exact List.inj_on_of_nodup_map hnodup hr hs heq
  have hmem : ∀ {l l' : List BuddySettingRow}, l.Sublist rows → l'.Sublist rows →
      l.foldl put (fun _ => none) = l'.foldl put (fun _ => none) → ∀ r ∈ l, r ∈ l' := by
    intro l l' hl hl' heq r hr
    by_contra hnot
    have hnone : ∀ s ∈ l', s.var ≠ r.var := by
      intro s hs hvar
      exact hnot (hsame (hl.subset hr) (hl'.subset hs) hvar.symm ▸ hs)
    have hsome : l.foldl put (fun _ => none) r.var = some r.setting :=
      foldl_put_of_mem (hvars.sublist hl) hr
    rw [heq, foldl_put_of_not_mem hnone] at hsome
    cases hsome
  constructor
  · intro heq r
    exact ⟨hmem hl hl' heq r, hmem hl' hl heq.symm r⟩
  · intro h
    funext key
    by_cases hkey : ∃ r ∈ l, r.var = key
    · obtain ⟨r, hr, rfl⟩ := hkey
      rw [foldl_put_of_mem (hvars.sublist hl) hr, foldl_put_of_mem (hvars.sublist hl') ((h r).mp hr)]
    · rw [foldl_put_of_not_mem fun r hr heq => hkey ⟨r, hr, heq⟩,
        foldl_put_of_not_mem fun r hr heq => hkey ⟨r, (h r).mpr hr, heq⟩]

end Seen

/-! ## The single pass -/

namespace Cursor

variable {b : BuddyInfo} {bs : List BuddyInfo} {c : Cursor} {var : SettingVariableInfo} {key : String}
  {rows settings : List BuddySettingRow}

/-- The first of the rows is waiting for its buddy, or there is no row any more. -/
def Holds (c : Cursor) (rows : List BuddySettingRow) : Prop :=
  rows = [] ∧ c.buddyId = -1 ∧ stored c.rest = [] ∨
    ∃ r, rows = r :: stored c.rest ∧ r.buddyId ≠ -1 ∧ c.buddyId = r.buddyId ∧ c.key = r.var ∧
      c.var.seen = r.setting

/-- Without a row that waits, the buddy gets his rows of a known type and the next row waits. -/
theorem fetch_seen (hb : b.id ≠ -1) :
    (fetch b var (-1) key settings).1.seen =
        (b.id, (known ((stored settings).takeWhile fun r => decide (r.buddyId = b.id))).foldl put
          b.seen.2) ∧
      Holds (fetch b var (-1) key settings).2
        ((stored settings).dropWhile fun r => decide (r.buddyId = b.id)) := by
  induction settings generalizing b var key with
  | nil => exact ⟨rfl, Or.inl ⟨rfl, rfl, rfl⟩⟩
  | cons r settings ih =>
    rw [fetch, if_pos rfl]
    by_cases hown : r.buddyId = b.id
    · have hstored : stored (r :: settings) = r :: stored settings :=
        List.filter_cons_of_pos (by simpa [hown] using hb)
      have hdecide : decide (r.buddyId = b.id) = true := decide_eq_true hown
      simp only [if_pos hown, hstored, List.takeWhile_cons_of_pos, List.dropWhile_cons_of_pos,
        hdecide]
      by_cases hknown : r.type = typeBoolean ∨ r.type = typeString
      · obtain ⟨hseen, hholds⟩ := @ih (b.setSetting r.var (var.read r)) (var.read r) r.var hb
        rw [if_pos hknown, hseen, seen_setSetting (seen_read var r),
          known_cons_of_known hknown]
        exact ⟨rfl, hholds⟩
      · rw [if_neg hknown, known_cons_of_not_known hknown]
        exact @ih b (var.read r) r.var hb
    · simp only [if_neg hown]
      by_cases hid : r.buddyId = -1
      · have hstored : stored (r :: settings) = stored settings :=
          List.filter_cons_of_neg (by simpa using hid)
        rw [hid, hstored]
        exact @ih b (var.read r) r.var hb
      · have hstored : stored (r :: settings) = r :: stored settings :=
          List.filter_cons_of_pos (by simpa using hid)
        rw [fetch_of_ne hid, hstored, List.takeWhile_cons_of_neg (by simpa using hown),
          List.dropWhile_cons_of_neg (by simpa using hown)]
        exact ⟨rfl, Or.inr ⟨r, rfl, hid, rfl, rfl, seen_read var r⟩⟩

/-- The row that waits goes to its buddy whatever its type is. -/
theorem give_seen (hholds : Holds c rows) (hb : b.id ≠ -1) :
    (c.give b).1.seen =
        (b.id, (waitedFor (rows.takeWhile fun r => decide (r.buddyId = b.id))).foldl put
          b.seen.2) ∧
      Holds (c.give b).2 (rows.dropWhile fun r => decide (r.buddyId = b.id)) := by
  rcases hholds with ⟨rfl, hid, hrest⟩ | ⟨r, rfl, hne, hid, hkey, hvar⟩
  · obtain ⟨hseen, hholds⟩ := @fetch_seen b c.var c.key c.rest hb
    rw [give, hid, if_neg (Ne.symm hb)]
    rw [hrest] at hseen hholds
    exact ⟨hseen, hholds⟩
  · rw [give, hid]
    by_cases hown : r.buddyId = b.id
    · have hdecide : decide (r.buddyId = b.id) = true := decide_eq_true hown
      obtain ⟨hseen, hholds⟩ := @fetch_seen (b.setSetting c.key c.var) c.var c.key c.rest hb
      rw [hkey] at hseen hholds
      rw [seen_setSetting hvar] at hseen
      simp only [if_pos hown, List.takeWhile_cons, List.dropWhile_cons, hdecide, if_true, hkey]
      exact ⟨hseen, hholds⟩
    · rw [if_neg hown, fetch_of_ne hne, List.takeWhile_cons_of_neg (by simpa using hown),
        List.dropWhile_cons_of_neg (by simpa using hown)]
      exact ⟨rfl, Or.inr ⟨r, rfl, hne, rfl, hkey, hvar⟩⟩

theorem attach_seen (hholds : Holds c rows) (hids : ∀ b ∈ bs, b.id ≠ -1) :
    (attach c bs).map BuddyInfo.seen =
      List.zipWith (fun b own => (b.id, (waitedFor own).foldl put b.seen.2)) bs
        (MergeJoin.runs BuddySettingRow.buddyId (bs.map BuddyInfo.id) rows) := by
  induction bs generalizing c rows with
  | nil => rfl
  | cons b bs ih =>
    obtain ⟨hseen, hholds⟩ := give_seen hholds (hids b List.mem_cons_self)
    rw [attach, List.map_cons, List.map_cons, MergeJoin.runs, List.zipWith_cons_cons, hseen,
      ih hholds fun b' hb' => hids b' (List.mem_cons_of_mem _ hb')]

/-- The first buddy gets no row that has waited, the others do. -/
theorem attach_cons_seen {b : BuddyInfo} (hids : ∀ b' ∈ b :: bs, b'.id ≠ -1) :
    (attach { rest := settings } (b :: bs)).map BuddyInfo.seen =
      (b.id, (known ((stored settings).takeWhile fun r => decide (r.buddyId = b.id))).foldl put
        b.seen.2) ::
        List.zipWith (fun b own => (b.id, (waitedFor own).foldl put b.seen.2)) bs
          (MergeJoin.runs BuddySettingRow.buddyId (bs.map BuddyInfo.id)
            ((stored settings).dropWhile fun r => decide (r.buddyId = b.id))) := by
  have hb : b.id ≠ -1 := hids b List.mem_cons_self
  have hgive : give { rest := settings } b = fetch b {} (-1) "" settings := by
    rw [give, if_neg (Ne.symm hb)]
  obtain ⟨hseen, hholds⟩ := @fetch_seen b {} "" settings hb
  rw [attach, List.map_cons, hgive, hseen,
    attach_seen hholds fun b' hb' => hids b' (List.mem_cons_of_mem _ hb')]

end Cursor

/-! ## The nested loops -/

theorem foldl_giveSetting_seen {settings : List BuddySettingRow} {bs : List BuddyInfo}
    (hsorted : bs.Pairwise fun b b' => b.id < b'.id) :
    (settings.foldl PQXX.giveSetting bs).map BuddyInfo.seen = bs.map fun b =>
      (b.id, (known (MergeJoin.matching BuddySettingRow.buddyId b.id settings)).foldl put
        b.seen.2) := by
  induction settings generalizing bs with
  | nil => rfl
  | cons r settings ih =>
    rw [List.foldl_cons]
    by_cases hknown : r.Known
    · rw [PQXX.giveSetting_eq_map hknown hsorted, ih, List.map_map]
      · refine List.map_congr_left fun b _ => ?_
        simp only [Function.comp_apply]
        by_cases hown : r.buddyId = b.id
        · rw [if_pos hown, MergeJoin.matching_cons_of_eq hown, known_cons_of_known hknown,
            List.foldl_cons, seen_setSetting rfl]
          rfl
        · rw [if_neg hown, MergeJoin.matching_cons_of_ne hown]
      · refine List.pairwise_map.mpr (hsorted.imp fun {b b'} h => ?_)
        split <;> split <;> exact h
    · have hskip : PQXX.giveSetting bs r = bs := by
        unfold PQXX.giveSetting
        exact if_neg hknown
      rw [hskip, ih hsorted]
      refine List.map_congr_left fun b _ => ?_
      by_cases hown : r.buddyId = b.id
      · rw [MergeJoin.matching_cons_of_eq hown, known_cons_of_not_known hknown]
      · rw [MergeJoin.matching_cons_of_ne hown]

/-! ## The comparison -/

section Compare

variable {b : BuddyInfo} {bs : List BuddyInfo} {settings : List BuddySettingRow} {r : BuddySettingRow}

/-- The rows of a buddy that the single pass reaches. -/
def reachedOf (bs : List BuddyInfo) (settings : List BuddySettingRow) (b : BuddyInfo) :
    List BuddySettingRow :=
  MergeJoin.matching BuddySettingRow.buddyId b.id
    (MergeJoin.reached BuddySettingRow.buddyId (bs.map BuddyInfo.id) (stored settings))

theorem reachedOf_sublist (bs : List BuddyInfo) (settings : List BuddySettingRow) (b : BuddyInfo) :
    (reachedOf bs settings b).Sublist
      (MergeJoin.matching BuddySettingRow.buddyId b.id settings) :=
  ((List.takeWhile_sublist _).trans List.filter_sublist).filter _

theorem attach_seen_eq (hids : ∀ b' ∈ b :: bs, b'.id ≠ -1)
    (hsorted : (b :: bs).Pairwise fun b b' => b.id < b'.id)
    (hle : settings.Pairwise fun r s => r.buddyId ≤ s.buddyId) :
    (Cursor.attach { rest := settings } (b :: bs)).map BuddyInfo.seen =
      (b.id, (known (reachedOf (b :: bs) settings b)).foldl put b.seen.2) ::
        bs.map fun b' =>
          (b'.id, (waitedFor (reachedOf (b :: bs) settings b')).foldl put b'.seen.2) := by
  have hruns : MergeJoin.runs BuddySettingRow.buddyId ((b :: bs).map BuddyInfo.id)
      (stored settings) = _ :=
    MergeJoin.runs_eq_map (List.pairwise_map.mpr hsorted) (hle.filter _)
  rw [List.map_cons, MergeJoin.runs, List.map_cons, List.cons.injEq] at hruns
  rw [Cursor.attach_cons_seen hids, hruns.1, hruns.2, List.map_map, List.zipWith_map_right,
    List.zipWith_self]
  rfl

theorem mem_reachedOf_or {b' : BuddyInfo} (hid : b'.id ≠ -1)
    (hr : r ∈ known (MergeJoin.matching BuddySettingRow.buddyId b'.id settings)) :
    r ∈ reachedOf bs settings b' ∨
      r ∈ MergeJoin.unreached BuddySettingRow.buddyId (bs.map BuddyInfo.id) (stored settings) := by
  obtain ⟨hmem, hown⟩ := MergeJoin.mem_matching.mp (mem_known.mp hr).1
  have hstored : r ∈ stored settings := mem_stored.mpr ⟨hmem, by rw [hown]; exact hid⟩
  rw [← MergeJoin.reached_append_unreached BuddySettingRow.buddyId (bs.map BuddyInfo.id)
    (stored settings), List.mem_append] at hstored
  exact hstored.imp (fun h => MergeJoin.mem_matching.mpr ⟨h, hown⟩) id

/-- The condition says which rows the buddies get. -/
theorem joinsMeet_iff (hids : ∀ b' ∈ b :: bs, b'.id ≠ -1) (hnodup : (stored settings).Nodup) :
    ((∀ r, r ∈ known (reachedOf (b :: bs) settings b) ↔
        r ∈ known (MergeJoin.matching BuddySettingRow.buddyId b.id settings)) ∧
      ∀ b' ∈ bs, ∀ r, r ∈ waitedFor (reachedOf (b :: bs) settings b') ↔
        r ∈ known (MergeJoin.matching BuddySettingRow.buddyId b'.id settings)) ↔
      JoinsMeet ((b :: bs).map BuddyInfo.id) (stored settings) := by
  constructor
  · rintro ⟨hfirst, hothers⟩
    refine ⟨fun r hr hknown hmem => ?_, fun id hid r hr => ?_⟩
    · -- The nested loops find a row that the single pass does not reach.
      rw [← MergeJoin.reached_append_unreached BuddySettingRow.buddyId
        ((b :: bs).map BuddyInfo.id) (stored settings)] at hnodup
      have hnot : r ∉ MergeJoin.reached BuddySettingRow.buddyId ((b :: bs).map BuddyInfo.id)
          (stored settings) := fun h => List.disjoint_of_nodup_append hnodup h hr
      have hsettings : r ∈ settings := (mem_stored.mp ((List.dropWhile_sublist _).subset hr)).1
      obtain ⟨b', hb', hown⟩ := List.mem_map.mp hmem
      have hfound : r ∈ known (MergeJoin.matching BuddySettingRow.buddyId b'.id settings) :=
        mem_known.mpr ⟨MergeJoin.mem_matching.mpr ⟨hsettings, hown.symm⟩, hknown⟩
      rcases List.mem_cons.mp hb' with rfl | hb'
      · have hreached := (mem_known.mp ((hfirst r).mpr hfound)).1
        exact hnot (MergeJoin.mem_matching.mp hreached).1
      · have hreached := (waitedFor_sublist _).subset ((hothers b' hb' r).mpr hfound)
        exact hnot (MergeJoin.mem_matching.mp hreached).1
    · obtain ⟨b', hb', rfl⟩ := List.mem_map.mp hid
      exact (mem_known.mp ((hothers b' hb' r).mp (mem_waitedFor_of_head hr))).2
  · intro hmeet
    have hreached : ∀ b' ∈ b :: bs, ∀ r,
        r ∈ known (MergeJoin.matching BuddySettingRow.buddyId b'.id settings) →
          r ∈ reachedOf (b :: bs) settings b' := by
      intro b' hb' r hr
      refine (mem_reachedOf_or (hids b' hb') hr).resolve_right fun hun => ?_
      obtain ⟨hmem, hknown⟩ := mem_known.mp hr
      refine hmeet.behind r hun hknown ?_
      rw [(MergeJoin.mem_matching.mp hmem).2]
      exact List.mem_map_of_mem hb'
    refine ⟨fun r => ⟨fun h => ?_, fun h => ?_⟩, fun b' hb' r => ⟨fun h => ?_, fun h => ?_⟩⟩
    · obtain ⟨hmem, hknown⟩ := mem_known.mp h
      exact mem_known.mpr ⟨(reachedOf_sublist _ _ _).subset hmem, hknown⟩
    · exact mem_known.mpr ⟨hreached b List.mem_cons_self r h, (mem_known.mp h).2⟩
    · have hmem := (reachedOf_sublist _ _ _).subset ((waitedFor_sublist _).subset h)
      exact mem_known.mpr ⟨hmem,
        known_of_mem_waitedFor (hmeet.first b'.id (List.mem_map_of_mem hb')) h⟩
    · exact mem_waitedFor_of_known (hreached b' (List.mem_cons_of_mem _ hb') r h) (mem_known.mp h).2

/-- Both joins give every buddy the same settings under this condition and no other. -/
theorem attach_seen_eq_iff (hids : ∀ b ∈ bs, b.id ≠ -1)
    (hsorted : bs.Pairwise fun b b' => b.id < b'.id)
    (hle : settings.Pairwise fun r s => r.buddyId ≤ s.buddyId)
    (hkeys : settings.Pairwise fun r s => ¬ (r.buddyId = s.buddyId ∧ r.var = s.var))
    (hnone : ∀ b ∈ bs, b.seen.2 = fun _ => none) :
    (Cursor.attach { rest := settings } bs).map BuddyInfo.seen =
        (settings.foldl PQXX.giveSetting bs).map BuddyInfo.seen ↔
      JoinsMeet (bs.map BuddyInfo.id) (stored settings) := by
  rw [foldl_giveSetting_seen hsorted]
  cases bs with
  | nil => exact ⟨fun _ => ⟨fun _ _ _ => List.not_mem_nil, nofun⟩, fun _ => rfl⟩
  | cons b bs =>
    have hvars : ∀ b : BuddyInfo,
        (MergeJoin.matching BuddySettingRow.buddyId b.id settings).Pairwise
          fun r s => r.var ≠ s.var := by
      intro b
      refine (hkeys.filter _).imp_of_mem fun {r s} hr hs hne heq => hne ⟨?_, heq⟩
      exact (MergeJoin.mem_matching.mp hr).2.trans (MergeJoin.mem_matching.mp hs).2.symm
    have hnodup : (stored settings).Nodup :=
      (hkeys.imp fun h heq => h ⟨congrArg _ heq, congrArg _ heq⟩).filter _
    rw [attach_seen_eq hids hsorted hle, List.map_cons, List.cons.injEq, List.map_inj_left]
    have hone : ∀ b' ∈ b :: bs, ∀ l : List BuddySettingRow,
        l.Sublist (reachedOf (b :: bs) settings b') →
        ((b'.id, l.foldl put b'.seen.2) = (b'.id, (known (MergeJoin.matching BuddySettingRow.buddyId
          b'.id settings)).foldl put b'.seen.2) ↔
          ∀ r, r ∈ l ↔ r ∈ known (MergeJoin.matching BuddySettingRow.buddyId b'.id settings)) := by
      intro b' hb' l hl
      rw [Prod.mk.injEq, hnone b' hb', ← foldl_put_eq_iff (hvars b')
        (hl.trans (reachedOf_sublist _ _ _)) (known_sublist _)]
      exact and_iff_right rfl
    rw [hone b List.mem_cons_self _ (known_sublist _), ← joinsMeet_iff hids hnodup]
    exact and_congr_right' (forall₂_congr fun b' hb' =>
      hone b' (List.mem_cons_of_mem _ hb') _ (waitedFor_sublist _))

end Compare

/-! ## The backends -/

namespace Sample

def bob : BuddyRow where
  id := 2
  userId := 1
  uin := "bob"
  subscription := "both"
  nickname := "Bob"
  groups := ""
  flags := 0

def icon (buddyId : Int) : BuddySettingRow where
  userId := 1
  buddyId := buddyId
  var := "icon_hash"
  type := typeString
  value := "ff00"

def muted : BuddySettingRow where
  userId := 1
  buddyId := 2
  var := "muted"
  type := typeBoolean
  value := "1"

/-- A buddy with two settings. -/
def joined : Db :=
  (Db.empty.setBuddies ⟨[bob], by decide⟩ 2).setBuddiesSettings ⟨[muted, icon 2], by decide⟩

/-- The buddy with the id 1 is not stored any more. -/
def orphaned : Db :=
  (Db.empty.setBuddies ⟨[bob], by decide⟩ 2).setBuddiesSettings ⟨[icon 1, icon 2], by decide⟩

end Sample

section Backends

variable (db : Db) (userId : Int)

theorem buddiesOf_sorted : (db.buddiesOf userId).Pairwise fun r s => r.id < s.id :=
  Table.selectBy_increasing fun _ _ _ _ heq => Or.inl heq

theorem buddiesSettingsOf_sorted :
    (db.buddiesSettingsOf userId).Pairwise fun r s => r.buddyId ≤ s.buddyId :=
  Table.selectBy_sorted

theorem buddiesSettingsOf_keys : (db.buddiesSettingsOf userId).Pairwise
    fun r s => ¬ (r.buddyId = s.buddyId ∧ r.var = s.var) :=
  Table.selectBy_distinct

/-- The backends with the single pass attach what PostgreSQL attaches under this condition and no
other. The databases number the buddies from 1. -/
theorem getBuddies_seen_eq_iff {kind : Kind} (hkind : kind ≠ .pqxx) (c : Config)
    (open_ : MySQL.Undefined) (hids : ∀ r ∈ db.buddies.rows, r.id ≠ -1) :
    ((createBackend c open_ kind).getBuddies userId [] db).map BuddyInfo.seen =
        ((createBackend c open_ .pqxx).getBuddies userId [] db).map BuddyInfo.seen ↔
      JoinsMeet ((db.buddiesOf userId).map BuddyRow.id)
        (stored (db.buddiesSettingsOf userId)) := by
  have hattach : (createBackend c open_ kind).getBuddies userId [] db =
      Cursor.attach { rest := db.buddiesSettingsOf userId }
        ((db.buddiesOf userId).map readBuddy) := by
    cases kind with
    | sqlite3 => rfl
    | mysql => rfl
    | pqxx => exact absurd rfl hkind
  have hnested : (createBackend c open_ .pqxx).getBuddies userId [] db =
      (db.buddiesSettingsOf userId).foldl PQXX.giveSetting
        ((db.buddiesOf userId).map readBuddy) := rfl
  have hmap : ((db.buddiesOf userId).map readBuddy).map BuddyInfo.id =
      (db.buddiesOf userId).map BuddyRow.id := List.map_map
  rw [hattach, hnested, attach_seen_eq_iff _ _ (buddiesSettingsOf_sorted db userId)
    (buddiesSettingsOf_keys db userId) _, hmap]
  · intro b hb
    obtain ⟨r, hr, rfl⟩ := List.mem_map.mp hb
    exact hids r (Table.mem_selectBy.mp hr).1
  · exact List.pairwise_map.mpr (buddiesOf_sorted db userId)
  · intro b hb
    obtain ⟨r, -, rfl⟩ := List.mem_map.mp hb
    rfl

/-- Two settings of one buddy. -/
theorem getBuddies_seen_eq_iff_sample :
    ((createBackend {} {} .sqlite3).getBuddies 1 [] Sample.joined).map BuddyInfo.seen =
        ((createBackend {} {} .pqxx).getBuddies 1 [] Sample.joined).map BuddyInfo.seen ↔
      JoinsMeet ((Sample.joined.buddiesOf 1).map BuddyRow.id)
        (stored (Sample.joined.buddiesSettingsOf 1)) :=
  getBuddies_seen_eq_iff Sample.joined 1 (by decide) {} {} (by decide)

/-- A setting without a buddy keeps the icon hash of a later buddy away from it. -/
theorem getBuddies_seen_ne :
    ¬ ∀ (db : Db) (userId : Int) (kind : Kind), kind ≠ .pqxx → (∀ r ∈ db.buddies.rows, 0 < r.id) →
      ((createBackend {} {} kind).getBuddies userId [] db).map BuddyInfo.seen =
        ((createBackend {} {} .pqxx).getBuddies userId [] db).map BuddyInfo.seen := by
  intro h
  have hseen := h Sample.orphaned 1 .mysql (by decide) (by decide)
  have hicons := congrArg (List.map fun seen => seen.2 "icon_hash") hseen
  revert hicons
  decide

end Backends

end Spectrum.Storage
