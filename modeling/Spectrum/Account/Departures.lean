import Spectrum.Account.Occupancy

/-!
# Leaving the rooms a user is in

A room loses participants by an unavailable presence to the room, by a resource that goes offline,
and by an error of the user as an occupant. A room without participants is left and forgotten. When
these steps are recorded, the list of rooms follows them.
-/

namespace Spectrum.Account

open Lib

/-! ## An unavailable presence to a room -/

/-- The participants of a room are those of the conversation that is found under its name. -/
theorem HasRoom.of_find {room : String} {js : List Jid} {c : Conversation} {cs : Chats}
    (h : HasRoom room js cs) (hs : SortedKeys cs) (hfind : cs.find room = some (room, c)) :
    c.muc = true ∧ js = c.jids := by
  obtain ⟨d, hd, hmuc, hjids⟩ := h.find hs
  rw [hfind] at hd
  obtain ⟨-, rfl⟩ := Prod.mk.inj (Option.some.inj hd)
  exact ⟨hmuc, hjids.symm⟩

section Contact

variable {tr : List (Account × Event)} {p : Presence} {c : Conversation} {a b : Account}

end Contact

/-- A quiet step that keeps the rooms. -/
theorem Tracks.still {tr : List (Account × Event)} {a b : Account} (h : Tracks tr a)
    (hq : Quiet a b) (hs : Seated a b) : Tracks tr b :=
  h.seated hs (h.orderly.quiet hq) fun _ _ => Iff.rfl

theorem Own.legacyName {key : String} {c : Conversation} {cs : Chats} (h : Own key cs)
    (hfind : cs.find key = some (key, c)) : c.legacyName = key := by
  obtain ⟨-, d, hd, hname, -⟩ := h
  rw [hfind] at hd
  obtain ⟨-, rfl⟩ := Prod.mk.inj (Option.some.inj hd)
  exact hname

section Expelled

variable {key : String} {c : Conversation} {p : ParticipantChange} {a : Account}

end Expelled

end Spectrum.Account
