import Spectrum.Account.Keys

/-!
# One room

The life of one room: resources join and leave it, its occupants and the nickname of the user
change, and messages arrive. The steps are the methods of the conversation; each finds the parts of
the transport as they are then. The log records what was sent and when a subject was set. An error
of the user himself ends the stay in the room, and the end of the user destroys it.
-/

namespace Spectrum.Account

/-- One thing that happened in a room. -/
inductive Entry
  | sent (o : Output)
  | subject (text : String)

/-- A room with its log, newest first. -/
structure Room where
  conv : Conversation
  log : List Entry := []
  ended : Bool := false

namespace Room

/-- The log after something has been sent, oldest first. -/
def push (outs : List Output) (log : List Entry) : List Entry := outs.reverse.map .sent ++ log

/-- Call a method of the conversation. -/
def act (f : Conversation → Conversation × List Output) (r : Room) : Room :=
  { r with conv := (f r.conv).1, log := push (f r.conv).2 r.log }

/-- The part of `handleParticipantChanged` that sends the presence, with its type. -/
def announce (x : Context) (p : ParticipantChange) (r : Room) : PresenceType × Room :=
  let change := fun c : Conversation =>
    c.changeParticipant x p.nickname p.flag p.status p.statusMessage p.newname p.iconHash
      p.nickAlias
  ((change r.conv).1, r.act fun c => (change c).2)

/-- The last part of `handleParticipantChanged`. -/
def settle (x : Context) (type : PresenceType) (r : Room) : Room :=
  let r := r.act fun c => c.sendSubject x
  if type = .error then { r with ended := true } else r

/-- `handleParticipantChanged`. It is undefined when the change under the new name has deleted the
conversation already. -/
def change (x : Context) (p : ParticipantChange) (r : Room) : Option Room :=
  let outer := r.announce x p
  let r :=
    if p.newname = "" then outer.2
    else
      let inner := outer.2.announce x p.renamed
      inner.2.settle x inner.1
  if r.ended then none else some (r.settle x outer.1)

/-- What a change keeps: `Q` holds while the subject may be waiting, `P` when it has been sent. -/
theorem change_rule {P Q : Room → Prop} {x : Context} {p : ParticipantChange} {r r' : Room}
    (hannounce : ∀ p r, Q r → Q (r.announce x p).2) (hsettle : ∀ type r, Q r → P (r.settle x type))
    (hweaken : ∀ r, P r → Q r) (h : P r) (hr : r.change x p = some r') : P r' := by
  have houter : Q (r.announce x p).2 := hannounce p r (hweaken r h)
  have hinner : Q (if p.newname = "" then (r.announce x p).2
      else ((r.announce x p).2.announce x p.renamed).2.settle x
        ((r.announce x p).2.announce x p.renamed).1) := by
    split
    · exact houter
    · exact hweaken _ (hsettle _ _ (hannounce p.renamed _ houter))
  unfold change at hr
  dsimp only at hr
  generalize (if p.newname = "" then (r.announce x p).2
    else ((r.announce x p).2.announce x p.renamed).2.settle x
      ((r.announce x p).2.announce x p.renamed).1) = r₁ at hinner hr
  by_cases hended : r₁.ended = true
  · rw [if_pos hended] at hr
    cases hr
  · rw [if_neg hended] at hr
    cases hr
    exact hsettle _ _ hinner

/-- What happens to a conversation. The last six are `clearJIDs`, a message of the user, for a chat
`sendCachedMessages` and `setJID` when the resources of the user change, and `setRoom` when the room
of a private chat is removed, and `destroyRoom` in `deleteAllConversations`. -/
inductive Event
  | join (p : Presence)
  | leave (j : Jid)
  | participant (p : ParticipantChange)
  | nickname (nickname : String)
  | message (m : Head) (nickname : String) (carbon : Bool)
  | clear
  | said (m : Message)
  | flush
  | reset
  | orphan
  | destroy

/-- A message of the room that has a subject sets the subject. -/
def mark (m : Head) (carbon : Bool) (r : Room) : Room :=
  if m.subject ≠ "" ∧ carbon = false then { r with log := .subject m.subject :: r.log } else r

/-- The calls of an event, except for the change of an occupant. -/
def Event.calls (x : Context) : Event → Conversation → Conversation × List Output
  | .join p => addParticipant p x
  | .leave j => fun c => c.removeJid x j
  | .participant _ => fun c => (c, [])
  | .nickname nick => fun c => (c.setNickname nick, [])
  | .message m nick isCarbon => fun c => c.handleMessage x (.plain m) nick isCarbon
  | .clear => fun c => ({ c with jids := [] }, [])
  | .said m => fun c => ({ c with jid := m.head.fromJid }, [.toBackend c.legacyName m])
  | .flush => fun c => if c.muc then (c, []) else c.sendCachedMessages x none
  | .reset => fun c => if c.muc then (c, []) else ({ c with jid := x.env.user.toBare }, [])
  | .orphan => fun c => if c.muc then (c, []) else (c.setRoom "", [])
  | .destroy => fun c => (c, c.destroyRoom x)

/-- A resource joins only if it does not take part yet. -/
def Event.enabled (r : Room) : Event → Bool
  | .join p => p.fromJid ∉ r.conv.jids
  | _ => true

def step (r : Room) (e : Context × Event) : Option Room :=
  if r.ended = true ∨ e.2.enabled r = false then none
  else
    match e.2 with
    | .participant p => r.change e.1 p
    | .message m _ carbon => some ((r.mark m carbon).act (e.2.calls e.1))
    | .destroy => some { r.act (e.2.calls e.1) with ended := true }
    | _ => some (r.act (e.2.calls e.1))

/-- The life of a conversation. -/
def life (c : Conversation) : Lib.Machine Room (Context × Event) where
  init r := r = { conv := c }
  step := step

/-- All runs of a room, from its creation by the first join. -/
def machine : Lib.Machine Room (Context × Event) where
  init r := ∃ env p name, r = { conv := newRoom env p name }
  step := step

end Room

end Spectrum.Account
