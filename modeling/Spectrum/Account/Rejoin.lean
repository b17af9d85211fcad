import Spectrum.Account.Departures

/-!
# The rooms that are joined again

A user who connects joins every room that is remembered. These should be the rooms he is in, once
each. A join adds a room to the list, or a resource to a stored room; connecting creates the rooms
that are not stored yet.
-/

namespace Spectrum.Account

open Lib

/-! ## A join -/

/-- A room that is not remembered is joined, and created when the user is connected. -/
theorem Tracks.enter {tr tr' : List (Account × Event)} {p : Presence} {a b : Account}
    (h : Tracks tr a) (hne : roomOf p a ≠ "") (hnew : ∀ q ∈ a.joinedRooms, roomOf q a ≠ roomOf p a)
    (henv : b.env = a.env) (hjoined : b.joinedRooms = a.joinedRooms ++ [p])
    (hconnected : b.connected = a.connected) (ho : Orderly b)
    (hrooms : ∀ name js', HasRoom name js' b.convs ↔ HasRoom name js' a.convs ∨
      a.connected = true ∧ name = roomOf p a ∧ js' = [p.fromJid])
    (hocc : ∀ name i, i ∈ occupants name tr' ↔
      i ∈ occupants name tr ∨ name = roomOf p a ∧ i = p.fromJid) : Tracks tr' b := by
  have hroom : ∀ q, roomOf q b = roomOf q a := roomOf_env henv
  refine ⟨ho, ?_, ?_, ?_, ?_, ?_, ?_⟩
  · simp only [hjoined, hroom, List.map_append, List.map_cons, List.map_nil]
    refine List.nodup_append.mpr ⟨h.once, by simp, ?_⟩
    intro name hname other hother
    obtain ⟨q, hq, rfl⟩ := List.mem_map.mp hname
    rw [List.mem_singleton.mp hother]
    exact hnew q hq
  · intro q hq
    rw [hroom]
    rw [hjoined] at hq
    rcases List.mem_append.mp hq with hq | hq
    · exact h.named q hq
    · rw [List.mem_singleton.mp hq]
      exact hne
  · intro name js' hjs'
    rcases (hrooms name js').mp hjs' with hold | ⟨-, rfl, rfl⟩
    · exact h.rooms name js' hold
    · exact ⟨hne, by simp⟩
  · intro hoff name js' hjs'
    rw [hconnected] at hoff
    rcases (hrooms name js').mp hjs' with hold | ⟨hon, -⟩
    · exact h.away hoff name js' hold
    · rw [hoff] at hon
      cases hon
  · intro hon name
    rw [hconnected] at hon
    have hpresent := h.present hon name
    simp only [hrooms, hjoined, hroom, List.mem_append, List.mem_singleton]
    constructor
    · rintro ⟨js', hold | ⟨-, rfl, -⟩⟩
      · obtain ⟨q, hq, heq⟩ := hpresent.mp ⟨js', hold⟩
        exact ⟨q, .inl hq, heq⟩
      · exact ⟨p, .inr rfl, rfl⟩
    · rintro ⟨q, hq | rfl, heq⟩
      · obtain ⟨js, hjs⟩ := hpresent.mpr ⟨q, hq, heq⟩
        exact ⟨js, .inl hjs⟩
      · exact ⟨[q.fromJid], .inr ⟨hon, heq.symm, rfl⟩⟩
  · intro name i
    rw [hocc, h.seats]
    simp only [Sits, hconnected, hrooms, hjoined, hroom, List.mem_append, List.mem_singleton]
    cases hon : a.connected with
    | false =>
      simp only [Bool.false_eq_true, if_false]
      constructor
      · rintro (⟨q, hq, hroom, hfrom⟩ | ⟨rfl, rfl⟩)
        · exact ⟨q, .inl hq, hroom, hfrom⟩
        · exact ⟨p, .inr rfl, rfl, rfl⟩
      · rintro ⟨q, hq | rfl, hroom, hfrom⟩
        · exact .inl ⟨q, hq, hroom, hfrom⟩
        · exact .inr ⟨hroom.symm, hfrom.symm⟩
    | true =>
      simp only [if_true, true_and]
      constructor
      · rintro (⟨js, hjs, hi⟩ | ⟨rfl, rfl⟩)
        · exact ⟨js, .inl hjs, hi⟩
        · exact ⟨[p.fromJid], .inr ⟨rfl, rfl⟩, by simp⟩
      · rintro ⟨js, hjs | ⟨rfl, rfl⟩, hi⟩
        · exact .inl ⟨js, hjs, hi⟩
        · exact .inr ⟨rfl, List.mem_singleton.mp hi⟩

/-- A resource that is in the room already joins it again. -/
theorem Tracks.again {tr tr' : List (Account × Event)} {room : String} {j : Jid} {a : Account}
    (h : Tracks tr a) (hsits : Sits a room j)
    (hocc : ∀ name i, i ∈ occupants name tr' ↔ i ∈ occupants name tr ∨ name = room ∧ i = j) :
    Tracks tr' a := by
  refine h.seated (Seated.refl a) h.orderly fun name i => ?_
  rw [hocc]
  refine or_iff_left_of_imp ?_
  rintro ⟨rfl, rfl⟩
  exact (h.seats name i).mpr hsits

section Join

variable {tr tr' : List (Account × Event)} {p : Presence} {c : Conversation} {a : Account}

end Join

/-! ## Connecting -/

theorem find_eq_none_iff {name : String} {cs : Chats} :
    cs.find name = none ↔ ∀ kc ∈ cs, kc.1 ≠ name := by
  unfold Chats.find
  rw [List.find?_eq_none]
  simp

namespace Sample

end Sample

end Spectrum.Account
