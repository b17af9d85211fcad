import Spectrum.Storage.Reconnect

/-!
# Lost transactions

`storeBuddies` adds and updates its buddies in a transaction, and nothing else is done in one. When
the connection is lost MySQL undoes what was written since the transaction began. The method that
lost it starts again outside of it, so what was written before is missing, unless it makes no
difference.
-/

namespace Spectrum.Storage

open Lib

/-- A transaction that `db` is in. -/
structure Transaction (db : Db) where
  begun : Db
  lastUser_le : begun.lastUser ≤ db.lastUser
  lastBuddy_le : begun.lastBuddy ≤ db.lastBuddy

/-- `START TRANSACTION`. -/
def Transaction.start (db : Db) : Transaction db := ⟨db, Int.le_refl _, Int.le_refl _⟩

namespace MySQL

open Script

/-! ## `updateBuddy` -/

section UpdateBuddy

variable {k : Columns} {userId : Int} {info : BuddyInfo} {begun db : Db} {fates : List Fate}

end UpdateBuddy

/-! ## The icon hash -/

section Icon

variable {k : Columns} {userId id : Int} {info : BuddyInfo} {begun db : Db}

end Icon

/-! ## `addBuddy` -/

section AddBuddy

variable {open_ : Undefined} {userId : Int} {info : BuddyInfo} {fates : List Fate}
  {begun db rolled : Db}

end AddBuddy

/-! ## All methods -/

section Methods

variable {c : Config} {mode : Mode} {fates : List Fate} {begun db : Db} {userId : Int}
  {info : BuddyInfo}

end Methods

end MySQL

end Spectrum.Storage
