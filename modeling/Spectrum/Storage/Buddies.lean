import Spectrum.Storage.Reading
import Spectrum.Storage.Users

/-!
# Buddies

The calls that `RosterStorage` makes: `addBuddy` for a buddy without an id, `updateBuddy` and
`removeBuddy` with the id that `addBuddy` returned. The tables mirror the buddies that were added and
not removed. PostgreSQL never removes a buddy, and MySQL and PostgreSQL do not update the icon hash.
What is too long for its column is refused or cut.
-/

namespace Spectrum.Storage

open Lib

/-! ## Calls -/

/-- What `RosterStorage::storeBuddies` takes from a buddy. -/
structure BuddyData where
  name : String
  aliasName : String := ""
  groups : List String := []
  ask : Bool := false
  flags : Int := 0
  iconHash : String := ""
  deriving DecidableEq, Repr

/-- The `BuddyInfo` that `storeBuddies` fills in. -/
def BuddyData.info (d : BuddyData) (id : Int) : BuddyInfo where
  id := id
  aliasName := d.aliasName
  legacyName := d.name
  subscription := if d.ask then "ask" else "both"
  groups := d.groups
  settings := fun key =>
    if key = "icon_hash" then some { type := typeString, s := d.iconHash } else none
  flags := d.flags

@[simp]
theorem BuddyData.info_iconHash (d : BuddyData) (id : Int) : (d.info id).iconHash = d.iconHash :=
  rfl

/-- The columns take the buddy and the hash of his icon. -/
def BuddyData.Taken (k : Columns) (d : BuddyData) : Prop :=
  k.TakesBuddy (buddyRow 0 0 (d.info 0)) ∧ k.TakesBuddySetting (iconRow 0 0 (d.info 0))

instance (k : Columns) (d : BuddyData) : Decidable (d.Taken k) :=
  inferInstanceAs (Decidable (_ ∧ _))

section Taken

variable {k : Columns} {d : BuddyData} (h : d.Taken k) (i j userId : Int)

include h

theorem BuddyData.Taken.buddy : k.buddy (buddyRow i userId (d.info j)) =
    some (buddyRow i userId (d.info j)) :=
  Columns.buddy_of_takes h.1

theorem BuddyData.Taken.details : k.details (buddyRow i userId (d.info j)) =
    some (buddyRow i userId (d.info j)) :=
  Columns.details_of_takes h.1.2

theorem BuddyData.Taken.buddySetting : k.buddySetting (iconRow userId i (d.info j)) =
    some (iconRow userId i (d.info j)) :=
  Columns.buddySetting_of_takes h.2

end Taken

/-- A buddy that was added and not removed, with the id that the backend gave him and the data of the
latest call. -/
structure Stored where
  userId : Int
  id : Int
  data : BuddyData
  deriving DecidableEq, Repr

namespace Stored

variable (e : Stored)

def row : BuddyRow := buddyRow e.id e.userId (e.data.info e.id)

def icon : BuddySettingRow := iconRow e.userId e.id (e.data.info e.id)

def record : BuddyRecord := (e.data.info e.id).record

end Stored

inductive BuddyCall
  | store (userId : Int) (data : BuddyData)
  | remove (userId : Int) (name : String)

/-- The database and the buddies that are to be in it. -/
structure Issued where
  db : Db := {}
  entries : List Stored := []

namespace Issued

variable (b : Backend) (s : Issued)

def find (userId : Int) (name : String) : Option Stored :=
  s.entries.find? fun e => decide (e.userId = userId ∧ e.data.name = name)

/-- The entries with another one for the name. -/
def put (e : Stored) : List Stored :=
  s.entries.map fun e' => if e'.userId = e.userId ∧ e'.data.name = e.data.name then e else e'

/-- `RosterStorage::storeBuddies` for one buddy and `RosterStorage::removeBuddy`. An `addBuddy` that
has returned -1 is made again. -/
def call : BuddyCall → Issued
  | .store userId data =>
    match s.find userId data.name with
    | none =>
      let r := b.addBuddy userId (data.info (-1)) s.db
      { db := r.1, entries := s.entries ++ [⟨userId, r.2, data⟩] }
    | some e =>
      if e.id = -1 then
        let r := b.addBuddy userId (data.info (-1)) s.db
        { db := r.1, entries := s.put ⟨userId, r.2, data⟩ }
      else
        { db := b.updateBuddy userId (data.info e.id) s.db, entries := s.put ⟨userId, e.id, data⟩ }
  | .remove userId name =>
    match s.find userId name with
    | none => s
    | some e =>
      { db := if e.id = -1 then s.db else b.removeBuddy e.id s.db
        entries := s.entries.filter fun e' => !decide (e'.userId = userId ∧ e'.data.name = name) }

def run (calls : List BuddyCall) : Issued := calls.foldl (call b) s

end Issued

/-! ## The tables mirror the entries -/

structure Mirrors (s : Issued) : Prop where
  rows : s.db.buddies.rows = s.entries.map Stored.row
  icons : ∀ r ∈ s.db.buddiesSettings.rows, ∃ e ∈ s.entries, r = e.icon
  hasIcon : ∀ e ∈ s.entries, e.data.iconHash ≠ "" → e.icon ∈ s.db.buddiesSettings.rows
  pos : ∀ e ∈ s.entries, 0 < e.id
  groups : ∀ e ∈ s.entries, GroupsSurvive e.data.groups
  counter : 0 ≤ s.db.lastBuddy

section Entries

variable {s : Issued} {e e' : Stored} {userId : Int} {name : String}

theorem Mirrors.distinct (h : Mirrors s) :
    s.entries.Pairwise fun e e' => ¬ Keyed.Clash e.row e'.row := by
  have hdistinct := s.db.buddies.distinct
  rw [h.rows] at hdistinct
  exact List.pairwise_map.mp hdistinct

theorem Mirrors.eq_of_clash (h : Mirrors s) (he : e ∈ s.entries) (he' : e' ∈ s.entries)
    (hclash : Keyed.Clash e.row e'.row) : e = e' := by
  by_contra hne
  have hsymm : Std.Symm fun e e' : Stored => ¬ Keyed.Clash e.row e'.row :=
    ⟨fun _ _ h h' => h (Keyed.symm h')⟩
  exact h.distinct.forall he he' hne hclash

theorem Mirrors.eq_of_id (h : Mirrors s) (he : e ∈ s.entries) (he' : e' ∈ s.entries)
    (hid : e.id = e'.id) : e = e' :=
  h.eq_of_clash he he' (Or.inl hid)

theorem Mirrors.eq_of_name (h : Mirrors s) (he : e ∈ s.entries) (he' : e' ∈ s.entries)
    (huser : e.userId = e'.userId) (hname : e.data.name = e'.data.name) : e = e' :=
  h.eq_of_clash he he' (Or.inr ⟨huser, hname⟩)

theorem Issued.find_eq_none_iff :
    s.find userId name = none ↔ ∀ e ∈ s.entries, e.userId = userId → e.data.name ≠ name := by
  simp [find, List.find?_eq_none]

theorem Issued.of_find (h : s.find userId name = some e) :
    e ∈ s.entries ∧ e.userId = userId ∧ e.data.name = name :=
  ⟨List.mem_of_find?_eq_some h, by simpa using List.find?_some h⟩

theorem Mirrors.row_mem (h : Mirrors s) (he : e ∈ s.entries) : e.row ∈ s.db.buddies.rows := by
  rw [h.rows]
  exact List.mem_map_of_mem he

end Entries

/-! ## Reading -/

section Reading

theorem Db.buddiesOf_sorted (db : Db) (userId : Int) :
    ((db.buddiesOf userId).map readBuddy).Pairwise fun b b' => b.id < b'.id :=
  List.pairwise_map.mpr (Table.selectBy_increasing fun _ _ _ _ => Or.inl)

variable {s : Issued} (h : Mirrors s) (userId : Int)

include h

end Reading

/-! ## Writing -/

section Writing

variable {k : Columns} {s : Issued} {e : Stored} {data : BuddyData} {db' : Db}

theorem Mirrors.add (h : Mirrors s) (hpos : 0 < e.id) (hgroups : GroupsSurvive e.data.groups)
    (hrows : db'.buddies.rows = s.db.buddies.rows ++ [e.row])
    (hicons : ∀ r ∈ db'.buddiesSettings.rows, r ∈ s.db.buddiesSettings.rows ∨ r = e.icon)
    (hkept : ∀ r ∈ s.db.buddiesSettings.rows, r ∈ db'.buddiesSettings.rows)
    (hicon : e.data.iconHash ≠ "" → e.icon ∈ db'.buddiesSettings.rows)
    (hcounter : 0 ≤ db'.lastBuddy) : Mirrors ⟨db', s.entries ++ [e]⟩ where
  rows := by rw [hrows, h.rows, List.map_append, List.map_singleton]
  icons := by
    intro r hr
    rcases hicons r hr with hr | rfl
    · obtain ⟨e', he', rfl⟩ := h.icons r hr
      exact ⟨e', List.mem_append_left _ he', rfl⟩
    · exact ⟨e, List.mem_append_right _ (List.mem_singleton_self e), rfl⟩
  hasIcon := by
    intro e' he' hne
    rcases List.mem_append.mp he' with he' | he'
    · exact hkept _ (h.hasIcon e' he' hne)
    · rw [List.mem_singleton.mp he'] at hne ⊢
      exact hicon hne
  pos := by
    intro e' he'
    rcases List.mem_append.mp he' with he' | he'
    · exact h.pos e' he'
    · rw [List.mem_singleton.mp he']
      exact hpos
  groups := by
    intro e' he'
    rcases List.mem_append.mp he' with he' | he'
    · exact h.groups e' he'
    · rw [List.mem_singleton.mp he']
      exact hgroups
  counter := hcounter

theorem Issued.mem_put {e' : Stored} (h : e' ∈ s.put e) :
    e' = e ∨ e' ∈ s.entries ∧ ¬ (e'.userId = e.userId ∧ e'.data.name = e.data.name) := by
  obtain ⟨e₀, he₀, rfl⟩ := List.mem_map.mp h
  by_cases hkey : e₀.userId = e.userId ∧ e₀.data.name = e.data.name
  · exact Or.inl (if_pos hkey)
  · rw [if_neg hkey]
    exact Or.inr ⟨he₀, hkey⟩

theorem Issued.self_mem_put {e' : Stored} (he : e ∈ s.entries) (huser : e.userId = e'.userId)
    (hname : e.data.name = e'.data.name) : e' ∈ s.put e' :=
  List.mem_map.mpr ⟨e, he, if_pos ⟨huser, hname⟩⟩

theorem Issued.mem_put_of_ne {e' : Stored} (he : e ∈ s.entries)
    (hne : ¬ (e.userId = e'.userId ∧ e.data.name = e'.data.name)) : e ∈ s.put e' :=
  List.mem_map.mpr ⟨e, he, if_neg hne⟩

/-- `UPDATE buddies` changes the row of the buddy only. -/
theorem Mirrors.writeBuddy_rows (h : Mirrors s) (he : e ∈ s.entries)
    (hname : e.data.name = data.name) (htaken : data.Taken k) :
    (s.db.writeBuddy k e.userId (data.info e.id)).buddies.rows =
      (s.put ⟨e.userId, e.id, data⟩).map Stored.row := by
  rw [Db.writeBuddy_of_details (htaken.details e.id e.id e.userId)]
  change s.db.buddies.rows.map _ = _
  rw [h.rows, Issued.put, List.map_map, List.map_map]
  refine List.map_congr_left fun e' he' => ?_
  simp only [Function.comp_apply]
  by_cases hkey : e'.userId = e.userId ∧ e'.data.name = data.name
  · have heq := h.eq_of_name he he' hkey.1.symm (hname.trans hkey.2.symm)
    have hrow : decide (e'.row.userId = e.userId ∧ e'.row.uin = (data.info e.id).legacyName) =
        true := decide_eq_true hkey
    rw [if_pos hkey, if_pos hrow, ← heq]
    simp only [Stored.row, buddyRow, BuddyData.info, hname]
  · have hrow : ¬ decide (e'.row.userId = e.userId ∧ e'.row.uin = (data.info e.id).legacyName) =
        true := fun hrow => hkey (of_decide_eq_true hrow)
    rw [if_neg hkey, if_neg hrow]

theorem Mirrors.update (h : Mirrors s) (he : e ∈ s.entries) (hname : e.data.name = data.name)
    (hgroups : GroupsSurvive data.groups)
    (hrows : db'.buddies.rows = (s.put ⟨e.userId, e.id, data⟩).map Stored.row)
    (hicons : ∀ r ∈ db'.buddiesSettings.rows,
      r ∈ s.db.buddiesSettings.rows ∧ r.buddyId ≠ e.id ∨ r = Stored.icon ⟨e.userId, e.id, data⟩)
    (hkept : ∀ r ∈ s.db.buddiesSettings.rows, r.buddyId ≠ e.id → r ∈ db'.buddiesSettings.rows)
    (hicon : data.iconHash ≠ "" → Stored.icon ⟨e.userId, e.id, data⟩ ∈ db'.buddiesSettings.rows)
    (hcounter : 0 ≤ db'.lastBuddy) : Mirrors ⟨db', s.put ⟨e.userId, e.id, data⟩⟩ where
  rows := hrows
  icons := by
    intro r hr
    rcases hicons r hr with ⟨hr, hne⟩ | rfl
    · obtain ⟨e', he', rfl⟩ := h.icons r hr
      refine ⟨e', Issued.mem_put_of_ne he' fun hkey => hne ?_, rfl⟩
      rw [h.eq_of_name he he' hkey.1.symm (hname.trans hkey.2.symm)]
      rfl
    · exact ⟨_, Issued.self_mem_put he rfl hname, rfl⟩
  hasIcon := by
    intro e' he' hne
    rcases Issued.mem_put he' with rfl | ⟨he', hkey⟩
    · exact hicon hne
    · refine hkept _ (h.hasIcon e' he' hne) fun hid => hkey ?_
      rw [h.eq_of_id he' he hid]
      exact ⟨rfl, hname⟩
  pos := by
    intro e' he'
    rcases Issued.mem_put he' with rfl | ⟨he', -⟩
    · exact h.pos e he
    · exact h.pos e' he'
  groups := by
    intro e' he'
    rcases Issued.mem_put he' with rfl | ⟨he', -⟩
    · exact hgroups
    · exact h.groups e' he'
  counter := hcounter

/-- The rows of a buddy are deleted in both tables. -/
theorem Mirrors.remove (h : Mirrors s) (he : e ∈ s.entries) :
    Mirrors ⟨(s.db.deleteBuddy e.id).deleteBuddySettings e.id,
      s.entries.filter fun e' => !decide (e'.userId = e.userId ∧ e'.data.name = e.data.name)⟩ := by
  have hsame : ∀ e' ∈ s.entries,
      (e'.userId = e.userId ∧ e'.data.name = e.data.name ↔ e'.id = e.id) := by
    intro e' he'
    constructor
    · rintro ⟨huser, hname⟩
      rw [h.eq_of_name he' he huser hname]
    · intro hid
      rw [h.eq_of_id he' he hid]
      exact ⟨rfl, rfl⟩
  have hfilter : (s.entries.filter fun e' =>
      !decide (e'.userId = e.userId ∧ e'.data.name = e.data.name)) =
      s.entries.filter fun e' => !decide (e'.id = e.id) := by
    refine List.filter_congr fun e' he' => ?_
    simp only [hsame e' he']
  rw [hfilter]
  constructor
  · change s.db.buddies.rows.filter _ = _
    rw [h.rows, List.filter_map]
    rfl
  · intro r hr
    obtain ⟨hr, hid⟩ := Table.mem_delete.mp hr
    obtain ⟨e', he', rfl⟩ := h.icons r hr
    exact ⟨e', List.mem_filter.mpr ⟨he', congrArg not hid⟩, rfl⟩
  · intro e' he' hne
    obtain ⟨he', hid⟩ := List.mem_filter.mp he'
    have hother : decide (e'.icon.buddyId = e.id) = false := by
      cases hown : decide (e'.id = e.id) with
      | false => exact hown
      | true =>
        rw [hown] at hid
        cases hid
    exact Table.mem_delete.mpr ⟨h.hasIcon e' he' hne, hother⟩
  · intro e' he'
    exact h.pos e' (List.mem_filter.mp he').1
  · intro e' he'
    exact h.groups e' (List.mem_filter.mp he').1
  · have hcounter := h.counter
    change 0 ≤ max (max _ _) _
    omega

end Writing

/-! ## The backends -/

section Backends

variable {k : Columns} {s : Issued} {e : Stored} {userId id : Int} {data : BuddyData}

/-- `INSERT INTO buddies` with an id that is not used. -/
theorem Mirrors.insert (h : Mirrors s) (hfresh : ∀ e ∈ s.entries, e.id ≠ id)
    (hnone : s.find userId data.name = none) (htaken : data.Taken k) :
    ∃ t, (k.buddy (buddyRow id userId (data.info (-1)))).bind s.db.buddies.insert = some t ∧
      t.rows = s.db.buddies.rows ++ [Stored.row ⟨userId, id, data⟩] := by
  rw [htaken.buddy, Option.bind_some]
  refine Table.insert_eq_some fun r hr => ?_
  rw [h.rows] at hr
  obtain ⟨e, he, rfl⟩ := List.mem_map.mp hr
  rw [Issued.find_eq_none_iff] at hnone
  rintro (hid | ⟨huser, hname⟩)
  · exact hfresh e he hid.symm
  · exact hnone e he huser.symm hname.symm

/-- A new buddy has no settings. -/
theorem Mirrors.not_clash_icon (h : Mirrors s) (hfresh : ∀ e ∈ s.entries, e.id ≠ id)
    {r : BuddySettingRow} (hr : r ∈ s.db.buddiesSettings.rows) :
    ¬ Keyed.Clash (Stored.icon ⟨userId, id, data⟩) r := by
  obtain ⟨e, he, rfl⟩ := h.icons r hr
  rintro ⟨hid, -⟩
  exact hfresh e he hid.symm

theorem Mirrors.lastBuddy_fresh (h : Mirrors s) : ∀ e ∈ s.entries, e.id ≠ s.db.lastBuddy + 1 := by
  intro e he
  have hle := s.db.buddies_le _ (h.row_mem he)
  change e.id ≤ _ at hle
  omega

theorem Mirrors.nextBuddy_fresh (h : Mirrors s) :
    ∀ e ∈ s.entries, e.id ≠ SQLite3.nextBuddy s.db := by
  intro e he
  have hle : e.id ≤ _ := le_top (List.mem_map_of_mem (f := BuddyRow.id) (h.row_mem he))
  rw [SQLite3.nextBuddy]
  omega

theorem Mirrors.nextBuddy_pos (h : Mirrors s) : 0 < SQLite3.nextBuddy s.db := by
  have htop : 0 ≤ top (s.db.buddies.rows.map BuddyRow.id) := by
    cases hrows : s.db.buddies.rows with
    | nil => exact Int.le_refl 0
    | cons r rows =>
      have hr : r ∈ s.db.buddies.rows := by
        rw [hrows]
        exact List.mem_cons_self
      have hle := le_top (List.mem_map_of_mem (f := BuddyRow.id) hr)
      rw [h.rows] at hr
      obtain ⟨e, he, rfl⟩ := List.mem_map.mp hr
      have hpos := h.pos e he
      rw [hrows] at hle
      change e.id ≤ _ at hle
      omega
  rw [SQLite3.nextBuddy]
  omega

theorem Db.setBuddies_lastBuddy_nonneg {db : Db} (t : Table BuddyRow) (n : Int)
    (h : 0 ≤ db.lastBuddy) : 0 ≤ (db.setBuddies t n).lastBuddy := by
  change 0 ≤ max (max _ _) _
  omega

/-- A new buddy leaves the counter where it is or moves it on. -/
theorem Db.writeBuddy_lastBuddy_nonneg {db : Db} (info : BuddyInfo) (h : 0 ≤ db.lastBuddy) :
    0 ≤ (db.writeBuddy k userId info).lastBuddy := by
  unfold Db.writeBuddy
  split
  · exact h
  · exact Db.setBuddies_lastBuddy_nonneg _ _ h

theorem SQLite3.replaceBuddySetting_of_taken (htaken : data.Taken columns) (i j : Int) (db : Db) :
    replaceBuddySetting (iconRow userId i (data.info j)) db =
      db.setBuddiesSettings (db.buddiesSettings.replace (Stored.icon ⟨userId, i, data⟩)) := by
  simp only [replaceBuddySetting, htaken.buddySetting]
  rfl

theorem MySQL.execUpdateBuddySetting_of_taken (htaken : data.Taken k) (i j : Int) (db : Db) :
    execUpdateBuddySetting k (iconRow userId i (data.info j)) db =
      db.setBuddiesSettings (db.buddiesSettings.upsert (Stored.icon ⟨userId, i, data⟩)
        (fun r => { r with value := data.iconHash }) (.intro fun _ _ => Iff.rfl)) := by
  simp only [execUpdateBuddySetting, htaken.buddySetting]
  rfl

theorem Mirrors.sqlite3_addBuddy (h : Mirrors s) (hnone : s.find userId data.name = none)
    (hgroups : GroupsSurvive data.groups) (htaken : data.Taken SQLite3.columns) :
    Mirrors ⟨(sqlite3.addBuddy userId (data.info (-1)) s.db).1,
      s.entries ++ [⟨userId, (sqlite3.addBuddy userId (data.info (-1)) s.db).2, data⟩]⟩ := by
  obtain ⟨t, hinsert, hrows⟩ := h.insert h.nextBuddy_fresh hnone htaken
  have hadd : sqlite3.addBuddy userId (data.info (-1)) s.db =
      ((s.db.setBuddies t (SQLite3.nextBuddy s.db)).setBuddiesSettings
        (s.db.buddiesSettings.replace (Stored.icon ⟨userId, SQLite3.nextBuddy s.db, data⟩)),
        SQLite3.nextBuddy s.db) := by
    change SQLite3.addBuddy _ _ _ = _
    simp only [SQLite3.addBuddy, hinsert, SQLite3.replaceBuddySetting_of_taken htaken]
    rfl
  rw [hadd]
  refine h.add h.nextBuddy_pos hgroups hrows ?_ ?_ ?_ (Db.setBuddies_lastBuddy_nonneg _ _ h.counter)
  · intro r hr
    rcases Table.mem_replace.mp hr with ⟨hr, -⟩ | hr
    · exact Or.inl hr
    · exact Or.inr hr
  · intro r hr
    exact Table.mem_replace.mpr (Or.inl ⟨hr, h.not_clash_icon h.nextBuddy_fresh hr⟩)
  · intro _
    exact Table.mem_replace.mpr (Or.inr rfl)

theorem Mirrors.mysql_addBuddy (c : Config) (open_ : MySQL.Undefined) (h : Mirrors s)
    (hnone : s.find userId data.name = none) (hgroups : GroupsSurvive data.groups)
    (htaken : data.Taken open_.columns) :
    Mirrors ⟨((mysql c open_).addBuddy userId (data.info (-1)) s.db).1,
      s.entries ++ [⟨userId, ((mysql c open_).addBuddy userId (data.info (-1)) s.db).2, data⟩]⟩ := by
  obtain ⟨t, hinsert, hrows⟩ := h.insert h.lastBuddy_fresh hnone htaken
  have hcounter := Db.setBuddies_lastBuddy_nonneg t (s.db.lastBuddy + 1) h.counter
  have hpos : 0 < s.db.lastBuddy + 1 := by
    have := h.counter
    omega
  have hexec : MySQL.execAddBuddy open_.columns userId (data.info (-1)) s.db =
      (s.db.setBuddies t (s.db.lastBuddy + 1), some (s.db.lastBuddy + 1)) := by
    rw [MySQL.execAddBuddy]
    simp only [hinsert]
  by_cases hempty : data.iconHash = ""
  · have hadd : (mysql c open_).addBuddy userId (data.info (-1)) s.db =
        (s.db.setBuddies t (s.db.lastBuddy + 1), s.db.lastBuddy + 1) := by
      simp [mysql, MySQL.addBuddy, Script.finish, hexec, hempty]
    rw [hadd]
    exact h.add hpos hgroups hrows (fun r hr => Or.inl hr) (fun r hr => hr)
      (fun hne => absurd hempty hne) hcounter
  · have hadd : (mysql c open_).addBuddy userId (data.info (-1)) s.db =
        ((s.db.setBuddies t (s.db.lastBuddy + 1)).setBuddiesSettings
          (s.db.buddiesSettings.upsert (Stored.icon ⟨userId, s.db.lastBuddy + 1, data⟩)
            (fun r => { r with value := data.iconHash }) (.intro fun _ _ => Iff.rfl)),
          s.db.lastBuddy + 1) := by
      simp only [mysql, MySQL.addBuddy, Script.finish, hexec, Option.getD_some,
        BuddyData.info_iconHash, if_neg hempty, MySQL.write,
        MySQL.execUpdateBuddySetting_of_taken htaken]
      rfl
    have hsettings : (s.db.buddiesSettings.upsert
        (Stored.icon ⟨userId, s.db.lastBuddy + 1, data⟩)
        (fun r => { r with value := data.iconHash }) (.intro fun _ _ => Iff.rfl)).rows =
        s.db.buddiesSettings.rows ++ [Stored.icon ⟨userId, s.db.lastBuddy + 1, data⟩] :=
      Table.rows_upsert_of_new fun r hr => h.not_clash_icon h.lastBuddy_fresh hr
    rw [hadd]
    refine h.add hpos hgroups hrows ?_ ?_ ?_ hcounter
    · intro r hr
      rw [Db.setBuddiesSettings_buddiesSettings, hsettings, List.mem_append,
        List.mem_singleton] at hr
      exact hr
    · intro r hr
      rw [Db.setBuddiesSettings_buddiesSettings, hsettings]
      exact List.mem_append_left _ hr
    · intro _
      rw [Db.setBuddiesSettings_buddiesSettings, hsettings]
      exact List.mem_append_right _ (List.mem_singleton_self _)

theorem Mirrors.pqxx_addBuddy (c : Config) (h : Mirrors s) (hnone : s.find userId data.name = none)
    (hgroups : GroupsSurvive data.groups) (htaken : data.Taken PQXX.columns) :
    Mirrors ⟨((pqxx c).addBuddy userId (data.info (-1)) s.db).1,
      s.entries ++ [⟨userId, ((pqxx c).addBuddy userId (data.info (-1)) s.db).2, data⟩]⟩ := by
  obtain ⟨t, hinsert, hrows⟩ := h.insert h.lastBuddy_fresh hnone htaken
  obtain ⟨t', hinsert', hrows'⟩ := Table.insert_eq_some
    fun r hr => @Mirrors.not_clash_icon s userId _ data h h.lastBuddy_fresh r hr
  have hnew : ¬ (s.db.buddiesSettings.rows.any fun r =>
      decide (r.userId = userId ∧ r.buddyId = s.db.lastBuddy + 1)) = true := by
    rw [List.any_eq_true]
    rintro ⟨r, hr, hkey⟩
    obtain ⟨e, he, rfl⟩ := h.icons r hr
    exact h.lastBuddy_fresh e he (of_decide_eq_true hkey).2
  have hicon : PQXX.writeIcon userId (s.db.lastBuddy + 1) (data.info (-1))
      (s.db.setBuddies t (s.db.lastBuddy + 1)) =
      some ((s.db.setBuddies t (s.db.lastBuddy + 1)).setBuddiesSettings t') := by
    simp only [PQXX.writeIcon, htaken.buddySetting]
    refine (if_neg hnew).trans ?_
    exact congrArg (Option.map _) hinsert'
  have hadd : (pqxx c).addBuddy userId (data.info (-1)) s.db =
      ((s.db.setBuddies t (s.db.lastBuddy + 1)).setBuddiesSettings t', s.db.lastBuddy + 1) := by
    change PQXX.addBuddy _ _ _ = _
    rw [PQXX.addBuddy]
    simp only [hinsert, hicon]
  rw [hadd]
  refine h.add ?_ hgroups hrows ?_ ?_ ?_ (Db.setBuddies_lastBuddy_nonneg _ _ h.counter)
  · have := h.counter
    change 0 < s.db.lastBuddy + 1
    omega
  · intro r hr
    change r ∈ t'.rows at hr
    rw [hrows', List.mem_append, List.mem_singleton] at hr
    exact hr
  · intro r hr
    change r ∈ t'.rows
    rw [hrows']
    exact List.mem_append_left _ hr
  · intro _
    change _ ∈ t'.rows
    rw [hrows']
    exact List.mem_append_right _ (List.mem_singleton_self _)

theorem Mirrors.sqlite3_updateBuddy (h : Mirrors s) (he : e ∈ s.entries)
    (hname : e.data.name = data.name) (hgroups : GroupsSurvive data.groups)
    (htaken : data.Taken SQLite3.columns) :
    Mirrors ⟨sqlite3.updateBuddy e.userId (data.info e.id) s.db, s.put ⟨e.userId, e.id, data⟩⟩ := by
  have hclash : ∀ r ∈ s.db.buddiesSettings.rows,
      (Keyed.Clash (Stored.icon ⟨e.userId, e.id, data⟩) r ↔ r.buddyId = e.id) := by
    intro r hr
    obtain ⟨e', -, rfl⟩ := h.icons r hr
    exact ⟨fun hclash => hclash.1.symm, fun hid => ⟨hid.symm, rfl⟩⟩
  have hupdate : sqlite3.updateBuddy e.userId (data.info e.id) s.db =
      (s.db.writeBuddy SQLite3.columns e.userId (data.info e.id)).setBuddiesSettings
        (s.db.buddiesSettings.replace (Stored.icon ⟨e.userId, e.id, data⟩)) := by
    refine (SQLite3.replaceBuddySetting_of_taken htaken e.id e.id _).trans ?_
    rw [Db.writeBuddy_buddiesSettings]
  rw [hupdate]
  refine h.update he hname hgroups (h.writeBuddy_rows he hname htaken) ?_ ?_ ?_
    (Db.writeBuddy_lastBuddy_nonneg _ h.counter)
  · intro r hr
    rcases Table.mem_replace.mp hr with ⟨hr, hne⟩ | hr
    · exact Or.inl ⟨hr, fun hid => hne ((hclash r hr).mpr hid)⟩
    · exact Or.inr hr
  · intro r hr hne
    exact Table.mem_replace.mpr (Or.inl ⟨hr, fun hclash' => hne ((hclash r hr).mp hclash')⟩)
  · intro _
    exact Table.mem_replace.mpr (Or.inr rfl)

/-- MySQL and PostgreSQL leave the settings alone, which is right if the icon hash is the same. -/
theorem Mirrors.writeBuddy (h : Mirrors s) (he : e ∈ s.entries)
    (hname : e.data.name = data.name) (hgroups : GroupsSurvive data.groups)
    (htaken : data.Taken k) (hicon : e.data.iconHash = data.iconHash) :
    Mirrors ⟨s.db.writeBuddy k e.userId (data.info e.id), s.put ⟨e.userId, e.id, data⟩⟩ := by
  have hsame : Stored.icon ⟨e.userId, e.id, data⟩ = e.icon := by
    simp only [Stored.icon, iconRow, BuddyData.info_iconHash, hicon]
  refine h.update he hname hgroups (h.writeBuddy_rows he hname htaken) ?_ ?_ ?_
    (Db.writeBuddy_lastBuddy_nonneg _ h.counter)
  · intro r hr
    rw [Db.writeBuddy_buddiesSettings] at hr
    by_cases hid : r.buddyId = e.id
    · obtain ⟨e', he', rfl⟩ := h.icons r hr
      rw [h.eq_of_id he' he hid]
      exact Or.inr hsame.symm
    · exact Or.inl ⟨hr, hid⟩
  · intro r hr _
    rw [Db.writeBuddy_buddiesSettings]
    exact hr
  · intro hne
    rw [Db.writeBuddy_buddiesSettings, hsame]
    exact h.hasIcon e he (hicon ▸ hne)

end Backends

/-! ## Runs -/

/-- The groups survive and the columns take the buddy; MySQL and PostgreSQL are given the icon hash
that they have; PostgreSQL removes nothing. -/
def CallFits (open_ : MySQL.Undefined) (kind : Kind) (s : Issued) : BuddyCall → Prop
  | .store userId data =>
    GroupsSurvive data.groups ∧ data.Taken (kind.columns open_) ∧ (kind ≠ .sqlite3 →
      ∀ e, s.find userId data.name = some e → e.data.iconHash = data.iconHash)
  | .remove userId name => kind = .pqxx → s.find userId name = none

def CallsFit (open_ : MySQL.Undefined) (kind : Kind) (b : Backend) : List BuddyCall → Issued → Prop
  | [], _ => True
  | call :: calls, s =>
    CallFits open_ kind s call ∧ CallsFit open_ kind b calls (s.call b call)

section Runs

variable {c : Config} {open_ : MySQL.Undefined} {kind : Kind} {s : Issued}

theorem Mirrors.addBuddy (h : Mirrors s) {userId : Int} {data : BuddyData}
    (hnone : s.find userId data.name = none) (hgroups : GroupsSurvive data.groups)
    (htaken : data.Taken (kind.columns open_)) :
    Mirrors ⟨((createBackend c open_ kind).addBuddy userId (data.info (-1)) s.db).1,
      s.entries ++
        [⟨userId, ((createBackend c open_ kind).addBuddy userId (data.info (-1)) s.db).2, data⟩]⟩ := by
  cases kind with
  | sqlite3 => exact h.sqlite3_addBuddy hnone hgroups htaken
  | mysql => exact h.mysql_addBuddy c open_ hnone hgroups htaken
  | pqxx => exact h.pqxx_addBuddy c hnone hgroups htaken

theorem Mirrors.updateBuddy (h : Mirrors s) {e : Stored} {data : BuddyData} (he : e ∈ s.entries)
    (hname : e.data.name = data.name) (hgroups : GroupsSurvive data.groups)
    (htaken : data.Taken (kind.columns open_))
    (hicon : kind ≠ .sqlite3 → e.data.iconHash = data.iconHash) :
    Mirrors ⟨(createBackend c open_ kind).updateBuddy e.userId (data.info e.id) s.db,
      s.put ⟨e.userId, e.id, data⟩⟩ := by
  cases kind with
  | sqlite3 => exact h.sqlite3_updateBuddy he hname hgroups htaken
  | mysql => exact h.writeBuddy he hname hgroups htaken (hicon (by decide))
  | pqxx => exact h.writeBuddy he hname hgroups htaken (hicon (by decide))

/-- Every call that fits keeps the tables in step. -/
theorem Mirrors.call (h : Mirrors s) {call : BuddyCall} (hfits : CallFits open_ kind s call) :
    Mirrors (s.call (createBackend c open_ kind) call) := by
  cases call with
  | store userId data =>
    obtain ⟨hgroups, htaken, hicon⟩ := hfits
    cases hfind : s.find userId data.name with
    | none =>
      simp only [Issued.call, hfind]
      exact h.addBuddy hfind hgroups htaken
    | some e =>
      obtain ⟨he, rfl, hname⟩ := Issued.of_find hfind
      have hpos := h.pos e he
      have hid : e.id ≠ -1 := by omega
      simp only [Issued.call, hfind, if_neg hid]
      exact h.updateBuddy he hname hgroups htaken fun hkind => hicon hkind e hfind
  | remove userId name =>
    cases hfind : s.find userId name with
    | none =>
      simp only [Issued.call, hfind]
      exact h
    | some e =>
      obtain ⟨he, rfl, rfl⟩ := Issued.of_find hfind
      have hpos := h.pos e he
      have hid : e.id ≠ -1 := by omega
      simp only [Issued.call, hfind, if_neg hid]
      cases kind with
      | sqlite3 => exact h.remove he
      | mysql => exact h.remove he
      | pqxx =>
        rw [hfits rfl] at hfind
        cases hfind

theorem Mirrors.run (h : Mirrors s) {calls : List BuddyCall}
    (hfit : CallsFit open_ kind (createBackend c open_ kind) calls s) :
    Mirrors (s.run (createBackend c open_ kind) calls) := by
  induction calls generalizing s with
  | nil => exact h
  | cons call calls ih => exact ih (h.call hfit.1) hfit.2

end Runs

namespace BuddySample

def bob : BuddyData := { name := "bob", groups := ["Friends"], iconHash := "cafe" }

def alice : BuddyData := { name := "alice", ask := true }

end BuddySample

end Spectrum.Storage
