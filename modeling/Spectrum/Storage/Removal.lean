import Spectrum.Storage.Reconnect

/-!
# Users are removed by four statements

`removeUser` deletes the rows of the user from four tables, one statement after the other and
without a transaction. When a statement fails, what the statements before it have deleted is gone.
-/

namespace Spectrum.Storage

open Lib Script

/-- No table has a row of the user. -/
structure Db.Forgotten (id : Int) (db : Db) : Prop where
  users : ∀ r ∈ db.users.rows, r.id ≠ id
  buddies : ∀ r ∈ db.buddies.rows, r.userId ≠ id
  buddiesSettings : ∀ r ∈ db.buddiesSettings.rows, r.userId ≠ id
  usersSettings : ∀ r ∈ db.usersSettings.rows, r.userId ≠ id

/-- The statements of `SQLite3Backend::removeUser`. -/
def SQLite3.removeUserStatements (id : Int) : List (Db → Db) :=
  [fun db => db.deleteUser id, fun db => db.deleteUserSettings id,
    fun db => db.deleteUserBuddies id, fun db => db.deleteUserBuddiesSettings id]

/-- The statements of `MySQLBackend::removeUser`. -/
def MySQL.removeUserStatements (id : Int) : List (Db → Db) :=
  [fun db => db.deleteUser id, fun db => db.deleteUserSettings id,
    fun db => db.deleteUserBuddies id, fun db => db.deleteUserBuddiesSettings id]

/-- The statements of `PQXXBackend::removeUser`. -/
def PQXX.removeUserStatements (id : Int) : List (Db → Db) :=
  [fun db => db.deleteUser id, fun db => db.deleteUserBuddies id,
    fun db => db.deleteUserSettings id, fun db => db.deleteUserBuddiesSettings id]

def removeUserStatements : Kind → Int → List (Db → Db)
  | .sqlite3 => SQLite3.removeUserStatements
  | .mysql => MySQL.removeUserStatements
  | .pqxx => PQXX.removeUserStatements

/-- `EXEC` starts the method again when the connection is lost. The other backends give up. -/
def Kind.again (kind : Kind) : Bool := decide (kind = .mysql)

/-- `removeUser` with statements that can fail: the tables and the answer. -/
def removeUser (kind : Kind) (id : Int) (outcomes : List Outcome) (db : Db) : Db × Bool :=
  let method := fun out => writes true out (removeUserStatements kind id)
  let r := attempt kind.again method false outcomes (method ()) db
  (r.1, r.2.2)

/-- The removal succeeds and leaves no row of the user, or fails and changes no table. -/
def RemovesAtomically (kind : Kind) (id : Int) (outcomes : List Outcome) (db : Db) : Prop :=
  (removeUser kind id outcomes db).2 = true ∧ (removeUser kind id outcomes db).1.Forgotten id ∨
    (removeUser kind id outcomes db).2 = false ∧ (removeUser kind id outcomes db).1.SameTables db

/-- The statements that are executed before the method gives up have nothing to delete. -/
def NothingLost (kind : Kind) (id : Int) (outcomes : List Outcome) (db : Db) : Prop :=
  ∀ before, executedBefore kind.again (removeUserStatements kind id) outcomes
      (removeUserStatements kind id) = some before →
    ∀ delete ∈ before, (delete db).SameTables db

/-! ## The statements -/

section Statements

variable {kind : Kind} {id : Int} {db : Db} {w v : Db → Db}

theorem Db.SameTables.equivalence : Equivalence Db.SameTables :=
  ⟨Db.SameTables.refl, fun h => h.symm, fun h h' => h.trans h'⟩

/-- The backends delete the same rows in different orders. -/
theorem mem_removeUserStatements (hw : w ∈ removeUserStatements kind id) :
    w ∈ MySQL.removeUserStatements id := by
  cases kind with
  | sqlite3 => exact hw
  | mysql => exact hw
  | pqxx =>
    simp only [removeUserStatements, PQXX.removeUserStatements, MySQL.removeUserStatements,
      List.mem_cons, List.not_mem_nil, or_false] at hw ⊢
    tauto

theorem delete_idem (hw : w ∈ removeUserStatements kind id) (db : Db) : w (w db) = w db := by
  have hw := mem_removeUserStatements hw
  simp only [MySQL.removeUserStatements, List.mem_cons, List.not_mem_nil, or_false] at hw
  rcases hw with rfl | rfl | rfl | rfl
  · exact MySQL.deleteUser_deleteUser id db
  · exact MySQL.deleteUserSettings_deleteUserSettings id db
  · exact MySQL.deleteUserBuddies_deleteUserBuddies id db
  · exact MySQL.deleteUserBuddiesSettings_deleteUserBuddiesSettings id db

theorem delete_comm (hw : w ∈ removeUserStatements kind id)
    (hv : v ∈ removeUserStatements kind id) (db : Db) : v (w db) = w (v db) := by
  have hw := mem_removeUserStatements hw
  have hv := mem_removeUserStatements hv
  simp only [MySQL.removeUserStatements, List.mem_cons, List.not_mem_nil, or_false] at hw hv
  rcases hw with rfl | rfl | rfl | rfl <;> rcases hv with rfl | rfl | rfl | rfl <;> rfl

theorem delete_congr (hw : w ∈ removeUserStatements kind id) (db db' : Db)
    (h : db.SameTables db') : (w db).SameTables (w db') := by
  have hw := mem_removeUserStatements hw
  simp only [MySQL.removeUserStatements, List.mem_cons, List.not_mem_nil, or_false] at hw
  rcases hw with rfl | rfl | rfl | rfl
  · exact ⟨congrArg (Table.delete _) h.users, h.buddies, h.buddiesSettings, h.usersSettings⟩
  · exact ⟨h.users, h.buddies, h.buddiesSettings, congrArg (Table.delete _) h.usersSettings⟩
  · exact ⟨h.users, congrArg (Table.delete _) h.buddies, h.buddiesSettings, h.usersSettings⟩
  · exact ⟨h.users, h.buddies, congrArg (Table.delete _) h.buddiesSettings, h.usersSettings⟩

/-- All statements together leave no row of the user. -/
theorem effect_forgotten (kind : Kind) (id : Int) (db : Db) :
    (effect (removeUserStatements kind id) db).Forgotten id := by
  have hkept : ∀ {ρ : Type} [Keyed ρ] (t : Table ρ) (user : ρ → Int),
      ∀ r ∈ (t.delete fun r => decide (user r = id)).rows, user r ≠ id := by
    intro ρ _ t user r hr
    simpa using (List.mem_filter.mp hr).2
  cases kind <;>
    exact ⟨hkept db.users UserRow.id, hkept db.buddies BuddyRow.userId,
      hkept db.buddiesSettings BuddySettingRow.userId,
      hkept db.usersSettings UserSettingRow.userId⟩

/-- Without failures this is the removal of the backends. -/
theorem removeUser_nil (kind : Kind) (c : Config) (open_ : MySQL.Undefined) (id : Int) (db : Db) :
    removeUser kind id [] db = ((createBackend c open_ kind).removeUser id db, true) := by
  cases kind <;> rfl

end Statements

/-! ## The removal -/

section Removal

variable {kind : Kind} {id : Int} {outcomes : List Outcome} {before : List (Db → Db)} {db : Db}

theorem removeUser_of_executedBefore_none
    (h : executedBefore kind.again (removeUserStatements kind id) outcomes
      (removeUserStatements kind id) = none) :
    removeUser kind id outcomes db = (effect (removeUserStatements kind id) db, true) := by
  have hrun : attempt kind.again (fun out => writes true out (removeUserStatements kind id)) false
      outcomes (writes true () (removeUserStatements kind id)) db =
        (effect (removeUserStatements kind id) db, (), true) :=
    attempt_of_executedBefore_none (fun w hw => delete_idem hw)
      (fun w hw v hv => delete_comm hw hv) h (List.nil_append _).symm nofun
  rw [removeUser, hrun]

theorem removeUser_of_executedBefore
    (h : executedBefore kind.again (removeUserStatements kind id) outcomes
      (removeUserStatements kind id) = some before) :
    removeUser kind id outcomes db = (effect before db, false) := by
  rw [removeUser, attempt_of_executedBefore h]

/-- The removal is atomic if and only if no statement fails or nothing was deleted before. -/
theorem removesAtomically_iff (kind : Kind) (id : Int) (outcomes : List Outcome) (db : Db) :
    RemovesAtomically kind id outcomes db ↔ NothingLost kind id outcomes db := by
  cases h : executedBefore kind.again (removeUserStatements kind id) outcomes
      (removeUserStatements kind id) with
  | none =>
    rw [RemovesAtomically, removeUser_of_executedBefore_none h]
    refine iff_of_true (Or.inl ⟨rfl, effect_forgotten kind id db⟩) fun before hbefore => ?_
    rw [h] at hbefore
    cases hbefore
  | some before =>
    have hmem := mem_of_executedBefore h fun w hw => hw
    have heffect := effect_related_iff (s := db) Db.SameTables.equivalence
      (fun w hw => delete_congr (hmem w hw)) (fun w hw => delete_idem (hmem w hw))
      fun w hw v hv => delete_comm (hmem w hw) (hmem v hv)
    rw [RemovesAtomically, removeUser_of_executedBefore h, NothingLost, h]
    constructor
    · rintro (⟨hfalse, -⟩ | ⟨-, hsame⟩)
      · cases hfalse
      · intro before' hbefore'
        obtain rfl := Option.some.inj hbefore'
        exact heffect.mp hsame
    · intro hnothing
      exact Or.inr ⟨rfl, heffect.mpr (hnothing before rfl)⟩

/-- The row of the user is deleted and the statement for his settings fails. -/
theorem not_forall_removesAtomically :
    ¬ ∀ kind id outcomes db, RemovesAtomically kind id outcomes db := by
  intro h
  let alice : UserRow :=
    { id := 1, jid := "alice@example.org", uin := "alice", password := [], language := "en",
      encoding := "utf8", vip := false }
  have hremoves := h .sqlite3 1 [.ok, .failed] (Db.empty.setUsers ⟨[alice], by decide⟩ 1)
  rcases hremoves with ⟨htrue, -⟩ | ⟨-, hsame⟩
  · cases htrue
  · have hrows := congrArg (fun t => t.rows.length) hsame.users
    cases hrows

end Removal

end Spectrum.Storage
