import Spectrum.Account.Seats

/-!
# The rooms a user is in

The rooms a user is in can be told from his stanzas alone: `occupants` is the list of resources
that have joined a room and not left it since. The program keeps a list of join presences instead,
one for each room and nickname, and the participants of the rooms that are stored. While the user
is not connected no room is stored, so that leaving a room or going offline does not reach the
list, and another nickname is a second entry. A user who is connected again is put back into a room
under the presence of the resource that joined first, also when this resource has left in the
meantime.

`Tracks` relates the two accounts. It holds in the runs whose steps are all `Recorded`.
-/

namespace Spectrum.Account

open Lib

/-! ## The account of the stanzas -/

/-- The resource that a presence to the transport takes away. -/
def departed (a : Account) (p : Presence) : Option Jid :=
  match (a.oracle.handleIncomingPresence p).2 with
  | none => none
  | some passed =>
    if passed.type = .unavailable ∧ passed.fromJid.isValid = true then some passed.fromJid else none

/-- The participants of a room after an event. -/
def attend (room : String) (a : Account) (js : List Jid) : Event → List Jid
  | .presence p =>
    if p.toJid.node = "" then js.filter fun i => departed a p ≠ some i
    else if roomOf p a ≠ room then js
    else if p.type = .unavailable then js.filter fun i => i ≠ p.fromJid
    else if p.type = .available ∧ p.isMUC = true then js ++ [p.fromJid]
    else js
  | .participant p =>
    match a.convs.getConversation p.room with
    | none => js
    | some kc => if expels p kc.2 = true ∧ kc.2.legacyName = room then [] else js
  | _ => js

/-- The resources that have joined a room and not left it since. -/
def occupants (room : String) : List (Account × Event) → List Jid
  | [] => []
  | (a, e) :: tr => attend room a (occupants room tr) e

/-- The room is not remembered otherwise, or it is stored as a room. -/
def JoinRecorded (p : Presence) (a : Account) : Prop :=
  roomOf p a ≠ "" ∧
  (a.convs.getConversation (roomOf p a) = none → ∀ q ∈ a.joinedRooms, roomOf q a = roomOf p a →
    q.toJid = p.toJid ∧ q.fromJid = p.fromJid) ∧
  ∀ kc ∈ (a.convs.getConversation (roomOf p a)).toList, kc.1 = roomOf p a ∧ kc.2.muc = true

/-- The resource does not leave a room that is only remembered. -/
def LeaveRecorded (p : Presence) (a : Account) : Prop :=
  (a.convs.getConversation (roomOf p a) = none → ∀ q ∈ a.joinedRooms, roomOf q a = roomOf p a →
    q.fromJid ≠ p.fromJid) ∧
  ∀ kc ∈ (a.convs.getConversation (roomOf p a)).toList, Own (roomOf p a) a.convs ∧
    (kc.2.muc = false → ∀ q ∈ a.joinedRooms, roomOf q a ≠ roomOf p a)

/-- What could be found under the name of a room that is remembered, besides the room. -/
def others (p : Presence) (a : Account) : Conversations :=
  ((a.convs.map Prod.fst ++ a.joinedRooms.map fun q => roomOf q a).filter
    fun name => name ≠ roomOf p a).map fun name => (name, { legacyName := name })

/-- A room that is remembered is stored with the resource that joined it, or it can be created. -/
def ReturnRecorded (p : Presence) (a : Account) : Prop :=
  (a.convs.find (roomOf p a) = none →
    Conversations.getConversation (roomOf p a) (others p a) = none) ∧
  ∀ kc ∈ (a.convs.find (roomOf p a)).toList, kc.2.muc = true ∧ p.fromJid ∈ kc.2.jids

/-- The condition. -/
def Recorded (a : Account) : Event → Prop
  | .presence p =>
    (p.toJid.node ≠ "" → p.isMUC = true → p.type = .available → JoinRecorded p a) ∧
    (p.toJid.node ≠ "" → p.type = .unavailable → LeaveRecorded p a) ∧
    (a.connected = false → ∀ q ∈ a.joinedRooms, departed a p ≠ some q.fromJid)
  | .participant p => ∀ kc ∈ (a.convs.getConversation p.room).toList, expels p kc.2 = true →
      Own kc.1 a.convs
  | .connected => ∀ p ∈ a.joinedRooms, ReturnRecorded p a
  | _ => True

instance (p : Presence) (a : Account) : Decidable (JoinRecorded p a) :=
  inferInstanceAs (Decidable (_ ∧ _ ∧ _))

instance (p : Presence) (a : Account) : Decidable (LeaveRecorded p a) :=
  inferInstanceAs (Decidable (_ ∧ _))

instance (p : Presence) (a : Account) : Decidable (ReturnRecorded p a) :=
  inferInstanceAs (Decidable (_ ∧ _))

instance (a : Account) (e : Event) : Decidable (Recorded a e) :=
  match e with
  | .presence _ => inferInstanceAs (Decidable (_ ∧ _ ∧ _))
  | .participant p =>
    inferInstanceAs (Decidable (∀ kc ∈ (a.convs.getConversation p.room).toList,
      expels p kc.2 = true → Own kc.1 a.convs))
  | .connected => inferInstanceAs (Decidable (∀ p ∈ a.joinedRooms, ReturnRecorded p a))
  | .caps _ _ | .connectingTimeout | .convMessage _ _ | .attention _ | .chatState _ _ | .ack _
  | .roomNickname _ _ | .message _ | .sessions _ | .roster _ => inferInstanceAs (Decidable True)

/-! ## The list of rooms -/

/-- A resource takes part in a room. -/
def Sits (a : Account) (room : String) (j : Jid) : Prop :=
  if a.connected then ∃ js, HasRoom room js a.convs ∧ j ∈ js
  else ∃ q ∈ a.joinedRooms, roomOf q a = room ∧ q.fromJid = j

/-- The rooms of the program are the rooms of the stanzas. -/
structure Tracks (tr : List (Account × Event)) (a : Account) : Prop where
  orderly : Orderly a
  once : (a.joinedRooms.map fun p => roomOf p a).Nodup
  named : ∀ p ∈ a.joinedRooms, roomOf p a ≠ ""
  rooms : ∀ room js, HasRoom room js a.convs → room ≠ "" ∧ js ≠ []
  away : a.connected = false → ∀ room js, ¬ HasRoom room js a.convs
  present : a.connected = true → ∀ room,
    (∃ js, HasRoom room js a.convs) ↔ ∃ p ∈ a.joinedRooms, roomOf p a = room
  seats : ∀ room j, j ∈ occupants room tr ↔ Sits a room j

theorem roomOf_env {a b : Account} (h : b.env = a.env) (p : Presence) :
    roomOf p b = roomOf p a := by
  unfold roomOf
  rw [h]

theorem Tracks.seated {tr tr' : List (Account × Event)} {a b : Account}
    (h : Tracks tr a) (hs : Seated a b) (ho : Orderly b)
    (hocc : ∀ room j, j ∈ occupants room tr' ↔ j ∈ occupants room tr) : Tracks tr' b := by
  have hroom : ∀ p, roomOf p b = roomOf p a := roomOf_env hs.env
  refine ⟨ho, ?_, ?_, ?_, ?_, ?_, ?_⟩
  · simpa only [hs.joinedRooms, hroom] using h.once
  · simpa only [hs.joinedRooms, hroom] using h.named
  · exact fun room js hjs => h.rooms room js ((hs.rooms room js).mp hjs)
  · intro hoff room js hjs
    exact h.away (hs.connected ▸ hoff) room js ((hs.rooms room js).mp hjs)
  · intro hon room
    simpa only [hs.rooms, hs.joinedRooms, hroom] using h.present (hs.connected ▸ hon) room
  · intro room j
    rw [hocc, h.seats]
    simp only [Sits, hs.connected, hs.rooms, hs.joinedRooms, hroom]

/-- Resources are taken out of rooms, which may be empty then. -/
structure Thinned (gone : String → Jid → Bool) (a b : Account) : Prop where
  env : b.env = a.env
  joinedRooms : b.joinedRooms = a.joinedRooms
  connected : b.connected = a.connected
  rooms : ∀ room js', HasRoom room js' b.convs ↔
    ∃ js, HasRoom room js a.convs ∧ js' = js.filter fun i => !gone room i

/-- Nobody who takes part in a room goes away. -/
theorem Thinned.seated {gone : String → Jid → Bool} {a b : Account} (h : Thinned gone a b)
    (hstay : ∀ room js, HasRoom room js a.convs → ∀ i ∈ js, gone room i = false) :
    Seated a b := by
  refine ⟨h.env, h.joinedRooms, h.connected, fun room js' => ?_⟩
  have hsame : ∀ js, HasRoom room js a.convs → (js.filter fun i => !gone room i) = js := by
    intro js hjs
    refine List.filter_eq_self.mpr fun i hi => ?_
    simp [hstay room js hjs i hi]
  rw [h.rooms]
  constructor
  · rintro ⟨js, hjs, rfl⟩
    rw [hsame js hjs]
    exact hjs
  · intro hjs
    exact ⟨js', hjs, (hsame js' hjs).symm⟩

end Spectrum.Account
