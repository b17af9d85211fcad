import Spectrum.Account.Room
import Spectrum.Account.Cache

/-!
# The subject of a room

The subject of a room has to follow the presence of the user himself, the one with code 110, and
it has to follow it for every resource that takes part. The conversation remembers in one flag
whether such a presence was sent, and one copy of the subject with the receiver it was sent to
last. The flag speaks for all resources in the runs in which a second resource joins only after
it has been set (`Polite`), and there everybody gets the subject (`Settled`).
-/

namespace Spectrum.Account.Room

open Lib

/-! ## The property -/

/-- A presence that tells the receiver that it is his own. -/
def isSelf (j : Jid) : Entry → Bool
  | .sent (.presence p) => p.toJid = j ∧ 110 ∈ p.codes
  | _ => false

/-- A message to the receiver with the subject. -/
def isSubject (text : String) (j : Jid) : Entry → Bool
  | .sent (.message m _) => m.head.subject = text ∧ m.head.toJid = j
  | _ => false

def Greeted (j : Jid) (log : List Entry) : Prop := ∃ e ∈ log, isSelf j e = true

/-- A subject is sent only to receivers that got their own presence before. -/
def AfterSelf : List Entry → Prop
  | [] => True
  | e :: log => (∀ text j, text ≠ "" → isSubject text j e = true → Greeted j log) ∧ AfterSelf log

/-- The subject that was set last. -/
def topic : List Entry → Option String
  | [] => none
  | .subject text :: _ => some text
  | .sent _ :: log => topic log

/-- What was sent since a subject was set. -/
def since : List Entry → List Entry
  | [] => []
  | .subject _ :: _ => []
  | .sent o :: log => .sent o :: since log

def Told (text : String) (j : Jid) (log : List Entry) : Prop :=
  ∃ e ∈ since log, isSubject text j e = true

/-- The subject follows the own presence, for every resource that takes part. -/
structure Courteous (r : Room) : Prop where
  after : AfterSelf r.log
  told : ∀ text, topic r.log = some text → ∀ j ∈ r.conv.jids, Greeted j (since r.log) →
    Told text j r.log

/-! ## The condition -/

/-- Another resource joins or leaves only after the first own presence, and a subject finds
somebody in the room. -/
def InTurn (r : Room) : Context × Event → Prop
  | (_, .join _) => r.conv.sentInitialPresence = true ∨ r.conv.jids = []
  | (_, .leave j) => r.conv.sentInitialPresence = true ∨ ∀ i ∈ r.conv.jids, i = j
  | (_, .message m _ carbon) => m.subject = "" ∨ carbon = true ∨ r.conv.jids ≠ []
  | (_, .clear) => r.conv.sentInitialPresence = true ∨ r.conv.subject = none
  | _ => True

instance (r : Room) (e : Context × Event) : Decidable (InTurn r e) :=
  match e with
  | (_, .join _) => inferInstanceAs (Decidable (_ ∨ _))
  | (_, .leave j) =>
    inferInstanceAs (Decidable (r.conv.sentInitialPresence = true ∨ ∀ i ∈ r.conv.jids, i = j))
  | (_, .message _ _ _) => inferInstanceAs (Decidable (_ ∨ _ ∨ _))
  | (_, .clear) => inferInstanceAs (Decidable (_ ∨ _))
  | (_, .participant _) | (_, .nickname _) | (_, .said _) | (_, .flush) | (_, .reset) |
      (_, .orphan) | (_, .destroy) =>
    inferInstanceAs (Decidable True)

/-! ## The log -/

section Log

variable {outs : List Output} {log : List Entry} {j : Jid} {text : String}

theorem mem_push {e : Entry} : e ∈ push outs log ↔ (∃ o ∈ outs, e = .sent o) ∨ e ∈ log := by
  simp [push, eq_comm]

theorem Greeted.push (outs : List Output) (h : Greeted j log) : Greeted j (push outs log) := by
  obtain ⟨e, he, hself⟩ := h
  exact ⟨e, mem_push.mpr (.inr he), hself⟩

theorem greeted_push_iff : Greeted j (push outs log) ↔
    (∃ p, .presence p ∈ outs ∧ p.toJid = j ∧ 110 ∈ p.codes) ∨ Greeted j log := by
  constructor
  · rintro ⟨e, he, hself⟩
    rcases mem_push.mp he with ⟨o, ho, rfl⟩ | he
    · cases o with
      | presence p => exact .inl ⟨p, ho, of_decide_eq_true hself⟩
      | _ => cases hself
    · exact .inr ⟨e, he, hself⟩
  · rintro (⟨p, hp, hself⟩ | h)
    · exact ⟨.sent (.presence p), mem_push.mpr (.inl ⟨_, hp, rfl⟩), decide_eq_true hself⟩
    · exact h.push outs

theorem topic_push (outs : List Output) (log : List Entry) : topic (push outs log) = topic log := by
  unfold push
  induction outs.reverse with
  | nil => rfl
  | cons o outs ih => exact ih

theorem since_push (outs : List Output) (log : List Entry) :
    since (push outs log) = push outs (since log) := by
  unfold push
  induction outs.reverse with
  | nil => rfl
  | cons o outs ih =>
    simp only [List.map_cons, List.cons_append, since]
    rw [ih]

theorem Told.push (outs : List Output) (h : Told text j log) : Told text j (push outs log) := by
  obtain ⟨e, he, hsubject⟩ := h
  refine ⟨e, ?_, hsubject⟩
  rw [since_push]
  exact mem_push.mpr (.inr he)

theorem told_push {m : Message} {sessions : List Jid} (log : List Entry)
    (hm : .message m sessions ∈ outs) :
    Told m.head.subject m.head.toJid (push outs log) := by
  refine ⟨.sent (.message m sessions), ?_, by simp [isSubject]⟩
  rw [since_push]
  exact mem_push.mpr (.inl ⟨_, hm, rfl⟩)

/-- Subjects may be sent to those who got their own presence before. -/
theorem AfterSelf.push (h : AfterSelf log)
    (houts : ∀ m sessions, .message m sessions ∈ outs → m.head.subject ≠ "" →
      Greeted m.head.toJid log) : AfterSelf (push outs log) := by
  have hrev : ∀ m sessions, .message m sessions ∈ outs.reverse → m.head.subject ≠ "" →
      Greeted m.head.toJid log := fun m sessions hm => houts m sessions (List.mem_reverse.mp hm)
  unfold Room.push
  generalize outs.reverse = newest at hrev
  induction newest with
  | nil => exact h
  | cons o newest ih =>
    refine ⟨?_, ih fun m sessions hm => hrev m sessions (List.mem_cons_of_mem o hm)⟩
    intro text j htext hsubject
    cases o with
    | message m sessions =>
      obtain ⟨rfl, rfl⟩ := of_decide_eq_true hsubject
      obtain ⟨e, he, hself⟩ := hrev m sessions List.mem_cons_self htext
      exact ⟨e, List.mem_append_right _ he, hself⟩
    | _ => cases hsubject

end Log

/-! ## The flag and the copy of the subject -/

/-- The flag speaks for every resource that takes part. -/
structure Polite (c : Conversation) (log : List Entry) : Prop where
  muc : c.muc = true
  after : AfterSelf log
  shown : c.sentInitialPresence = true → ∀ j ∈ c.jids, Greeted j log
  unseen : c.sentInitialPresence = false →
    (∀ j, ¬ Greeted j log) ∧ (∀ i ∈ c.jids, ∀ j ∈ c.jids, i = j) ∧ c.sentInitialSubject = false
  unset : c.subject = none → topic log = none
  set : ∀ m, c.subject = some m → m.head.subject ≠ "" ∧ topic log = some m.head.subject
  receiver : ∀ m, c.subject = some m →
    if c.sentInitialPresence then Greeted m.head.toJid log else m.head.toJid ∈ c.jids
  cached : ∀ m ∈ c.cachedMessages, m.head.subject = ""

/-- Everybody has the subject, once the first own presence has been sent. -/
def Settled (c : Conversation) (log : List Entry) : Prop :=
  ∀ m, c.subject = some m → c.sentInitialPresence = true →
    ∀ j ∈ c.jids, Told m.head.subject j log

/-- Everybody has the subject, or the only resource is about to get it. -/
def Pending (c : Conversation) (log : List Entry) : Prop :=
  ∀ m, c.subject = some m → c.sentInitialPresence = true →
    (∀ j ∈ c.jids, Told m.head.subject j log) ∨
      c.sentInitialSubject = false ∧ ∀ j ∈ c.jids, j = m.head.toJid

theorem Polite.courteous {r : Room} (h : Polite r.conv r.log) (hs : Settled r.conv r.log) :
    Courteous r := by
  refine ⟨h.after, fun text htext j hj hgreeted => ?_⟩
  cases hsubject : r.conv.subject with
  | none =>
    rw [h.unset hsubject] at htext
    cases htext
  | some m =>
    rw [(h.set m hsubject).2] at htext
    cases htext
    have hsince : ∀ log : List Entry, since log ⊆ log := by
      intro log
      induction log with
      | nil => exact fun _ he => he
      | cons e log ih =>
        cases e with
        | subject text => exact fun _ he => nomatch he
        | sent o => exact List.cons_subset_cons _ ih
    have hever : Greeted j r.log := by
      obtain ⟨e, he, hself⟩ := hgreeted
      exact ⟨e, hsince r.log he, hself⟩
    cases hflag : r.conv.sentInitialPresence with
    | true => exact hs m hsubject hflag j hj
    | false => exact absurd hever ((h.unseen hflag).1 j)

/-! ## Presences -/

/-- A method that sends presences. If one of them is the user's own, the flag is set. -/
structure Presents (c : Conversation) (r : Conversation × List Output) : Prop where
  muc : r.1.muc = c.muc
  jids : r.1.jids = c.jids
  subject : r.1.subject = c.subject
  initial : r.1.sentInitialSubject = c.sentInitialSubject
  cached : r.1.cachedMessages = c.cachedMessages
  presences : ∀ m sessions, .message m sessions ∉ r.2
  flag : r.1.sentInitialPresence = true ∨
    r.1.sentInitialPresence = c.sentInitialPresence ∧ ∀ p, .presence p ∈ r.2 → 110 ∉ p.codes

section Presences

variable {x : Context} {c : Conversation} {log : List Entry}

theorem Polite.presents {r : Conversation × List Output} (h : Polite c log) (hr : Presents c r)
    (hall : c.sentInitialPresence = false → r.1.sentInitialPresence = true →
      ∀ j ∈ c.jids, Greeted j (push r.2 log)) : Polite r.1 (push r.2 log) := by
  -- a flag that is not set now was not set before, and no own presence has been sent
  have hunset : r.1.sentInitialPresence = false → c.sentInitialPresence = false ∧
      ∀ p, .presence p ∈ r.2 → 110 ∉ p.codes := by
    intro hno
    rcases hr.flag with hset | ⟨hsame, hother⟩
    · rw [hno] at hset
      cases hset
    · exact ⟨hsame ▸ hno, hother⟩
  refine ⟨hr.muc.trans h.muc, ?_, ?_, ?_, ?_, ?_, ?_, ?_⟩
  · exact h.after.push fun m sessions hm => absurd hm (hr.presences m sessions)
  · intro hset j hj
    rw [hr.jids] at hj
    cases hflag : c.sentInitialPresence with
    | true => exact (h.shown hflag j hj).push r.2
    | false => exact hall hflag hset j hj
  · intro hno
    obtain ⟨hflag, hother⟩ := hunset hno
    obtain ⟨hgreeted, hsingle, hinitial⟩ := h.unseen hflag
    refine ⟨fun j hj => ?_, hr.jids ▸ hsingle, hr.initial.trans hinitial⟩
    rcases greeted_push_iff.mp hj with ⟨p, hp, -, hcode⟩ | hj
    · exact hother p hp hcode
    · exact hgreeted j hj
  · rw [hr.subject, topic_push]
    exact h.unset
  · rw [hr.subject, topic_push]
    exact h.set
  · intro m hm
    rw [hr.subject] at hm
    have hreceiver := h.receiver m hm
    cases hflag : c.sentInitialPresence with
    | true =>
      rw [hflag, if_pos rfl] at hreceiver
      cases hno : r.1.sentInitialPresence with
      | true => exact hreceiver.push r.2
      | false =>
        rw [(hunset hno).1] at hflag
        cases hflag
    | false =>
      rw [hflag, if_neg (by simp)] at hreceiver
      cases hset : r.1.sentInitialPresence with
      | true => exact hall hflag hset _ hreceiver
      | false => simpa [hr.jids] using hreceiver
  · rw [hr.cached]
    exact h.cached

theorem Pending.presents {r : Conversation × List Output} (hp : Polite c log) (h : Pending c log)
    (hr : Presents c r) : Pending r.1 (push r.2 log) := by
  intro m hm _
  rw [hr.subject] at hm
  rw [hr.jids, hr.initial]
  cases hflag : c.sentInitialPresence with
  | true =>
    exact (h m hm hflag).imp (fun htold j hj => (htold j hj).push r.2) id
  | false =>
    obtain ⟨-, hsingle, hinitial⟩ := hp.unseen hflag
    have hreceiver := hp.receiver m hm
    rw [hflag, if_neg (by simp)] at hreceiver
    exact .inr ⟨hinitial, fun j hj => hsingle j hj _ hreceiver⟩

theorem Settled.pending (h : Settled c log) : Pending c log :=
  fun m hm hflag => .inl (h m hm hflag)

/-- The presence of the user himself, without an error. -/
theorem generatePresence_own (status : StatusType) (newname iconhash : String)
    (c : Conversation) :
    (c.generatePresence x c.nickname 0 status "" newname iconhash).2 =
        { c with nicknameChanged := false, sentInitialPresence := true } ∧
      110 ∈ (c.generatePresence x c.nickname 0 status "" newname iconhash).1.codes := by
  simp [Conversation.generatePresence, Conversation.roomError, Conversation.statusCodes]

theorem presents_changeParticipant (nick : String) (flag : BitVec 32) (status : StatusType)
    (statusMessage newname iconhash nickAlias : String) (c : Conversation) :
    Presents c
      (c.changeParticipant x nick flag status statusMessage newname iconhash nickAlias).2 := by
  have hcases := generatePresence_cases (x := x) (if nickAlias = "" then nick else nickAlias) flag
    status statusMessage newname iconhash c
  unfold Conversation.changeParticipant
  dsimp only
  generalize c.generatePresence x (if nickAlias = "" then nick else nickAlias) flag status
    statusMessage newname iconhash = g at hcases
  obtain ⟨p, d⟩ := g
  dsimp only at hcases ⊢
  rcases hcases with ⟨rfl, hcode⟩ | ⟨rfl, hcode⟩
  · refine ⟨rfl, rfl, rfl, rfl, rfl, by simp, .inr ⟨rfl, ?_⟩⟩
    intro q hq
    obtain ⟨j, -, heq⟩ := List.mem_map.mp hq
    cases heq
    exact hcode
  · exact ⟨rfl, rfl, rfl, rfl, rfl, by simp, .inl rfl⟩

/-- If the flag is set by the change of an occupant, everybody has got the presence. -/
theorem greeted_changeParticipant {nick : String} {flag : BitVec 32} {status : StatusType}
    {statusMessage newname iconhash nickAlias : String} (hno : c.sentInitialPresence = false)
    (hset : (c.changeParticipant x nick flag status statusMessage newname iconhash
      nickAlias).2.1.sentInitialPresence = true) {j : Jid} (hj : j ∈ c.jids) :
    Greeted j (push (c.changeParticipant x nick flag status statusMessage newname iconhash
      nickAlias).2.2 log) := by
  have hcases := generatePresence_cases (x := x) (if nickAlias = "" then nick else nickAlias) flag
    status statusMessage newname iconhash c
  unfold Conversation.changeParticipant at hset ⊢
  dsimp only at hset ⊢
  generalize c.generatePresence x (if nickAlias = "" then nick else nickAlias) flag status
    statusMessage newname iconhash = g at hcases hset
  obtain ⟨p, d⟩ := g
  dsimp only at hcases hset ⊢
  rcases hcases with ⟨rfl, -⟩ | ⟨rfl, hcode⟩
  · rw [hno] at hset
    cases hset
  · refine greeted_push_iff.mpr (.inl ⟨{ p with toJid := j }, ?_, rfl, hcode⟩)
    exact List.mem_map.mpr ⟨j, hj, rfl⟩

/-- What waits for the first own presence is sent. -/
theorem Polite.sendSubject (h : Polite c log) (hp : Pending c log) :
    Polite (c.sendSubject x).1 (push (c.sendSubject x).2 log) ∧
      Settled (c.sendSubject x).1 (push (c.sendSubject x).2 log) := by
  have hsame : c.sendSubject x = (c, []) →
      (∀ m, c.subject = some m → c.sentInitialPresence = true → c.sentInitialSubject = true) →
      Polite (c.sendSubject x).1 (push (c.sendSubject x).2 log) ∧
        Settled (c.sendSubject x).1 (push (c.sendSubject x).2 log) := by
    intro heq hdone
    rw [heq]
    refine ⟨h, fun m hm hflag => ?_⟩
    rcases hp m hm hflag with htold | ⟨hinitial, -⟩
    · exact htold
    · rw [hdone m hm hflag] at hinitial
      cases hinitial
  cases hsubject : c.subject with
  | none =>
    refine hsame (by simp [Conversation.sendSubject, hsubject]) fun m hm => ?_
    rw [hsubject] at hm
    cases hm
  | some m =>
    by_cases hwaits : c.sentInitialPresence = true ∧ c.sentInitialSubject = false
    · obtain ⟨hflag, hinitial⟩ := hwaits
      have hsent :
          c.sendSubject x = ({ c with sentInitialSubject := true }, [x.sendMessage m]) := by
        simp [Conversation.sendSubject, hsubject, hflag, hinitial]
      have hreceiver := h.receiver m hsubject
      rw [hflag, if_pos rfl] at hreceiver
      have htold : Told m.head.subject m.head.toJid (push [x.sendMessage m] log) :=
        told_push log List.mem_cons_self
      rw [hsent]
      refine ⟨⟨h.muc, ?_, ?_, ?_, ?_, ?_, ?_, h.cached⟩, ?_⟩
      · refine h.after.push fun m' sessions hm' _ => ?_
        cases List.mem_singleton.mp hm'
        exact hreceiver
      · exact fun _ j hj => (h.shown hflag j hj).push _
      · intro hno
        rw [show c.sentInitialPresence = false from hno] at hflag
        cases hflag
      · rw [topic_push]
        exact h.unset
      · rw [topic_push]
        exact h.set
      · intro m' hm'
        have hgreeted := h.receiver m' hm'
        rw [hflag, if_pos rfl] at hgreeted
        simpa [hflag] using hgreeted.push [x.sendMessage m]
      · intro m' hm' _ j hj
        obtain rfl : m = m' := Option.some.inj (hsubject.symm.trans hm')
        rcases hp m hsubject hflag with hall | ⟨-, hsingle⟩
        · exact (hall j hj).push _
        · rw [hsingle j hj]
          exact htold
    · refine hsame ?_ fun m' _ hflag => ?_
      · simp only [Conversation.sendSubject, hsubject]
        rw [if_neg]
        simpa using hwaits
      · by_contra hno
        exact hwaits ⟨hflag, by simpa using hno⟩

end Presences

/-! ## Joining and leaving -/

section Members

variable {x : Context} {c : Conversation} {log : List Entry}

theorem presents_renameTo (toJid : Jid) (nickname : String) (c : Conversation) :
    Presents c (c.renameTo x toJid nickname) := by
  unfold Conversation.renameTo
  split
  · simp only [Conversation.selfPresence]
    have hfirst := (generatePresence_own (x := x) (.ofShow .online) "" ""
      { c with nickname := nickname }).1
    have hsecond := fun d : Conversation =>
      (generatePresence_own (x := x) (.ofShow .online) c.nickname "" d).1
    dsimp only at hfirst
    rw [hfirst]
    have hagain := hsecond { c with
      nickname := nickname, nicknameChanged := true, sentInitialPresence := true }
    dsimp only at hagain ⊢
    rw [hagain]
    exact ⟨rfl, rfl, rfl, rfl, rfl, by simp, .inl rfl⟩
  · exact ⟨rfl, rfl, rfl, rfl, rfl, by simp, .inr ⟨rfl, by simp⟩⟩

/-- A resource that joins gets the presence of the user himself first. -/
theorem presents_sendParticipants (toJid : Jid) (nickname : String) (c : Conversation)
    (log : List Entry) :
    Presents c (c.sendParticipants x toJid nickname) ∧
      (c.sendParticipants x toJid nickname).1.sentInitialPresence = true ∧
      Greeted toJid (push (c.sendParticipants x toJid nickname).2 log) := by
  have hrename := presents_renameTo (x := x) toJid nickname c
  have hown := generatePresence_own (x := x) (.ofShow .online) "" ""
    (c.renameTo x toJid nickname).1
  unfold Conversation.sendParticipants
  simp only [Conversation.selfPresence]
  generalize (c.renameTo x toJid nickname).1.generatePresence x
    (c.renameTo x toJid nickname).1.nickname 0 (.ofShow .online) "" "" "" = g at hown
  generalize c.renameTo x toJid nickname = r at hrename hown
  obtain ⟨p, d⟩ := g
  obtain ⟨hd, hcode⟩ := hown
  dsimp only at hd hcode ⊢
  subst hd
  refine ⟨⟨hrename.muc, hrename.jids, hrename.subject, hrename.initial, hrename.cached, ?_,
    .inl rfl⟩, rfl, ?_⟩
  · intro m sessions hm
    rcases List.mem_append.mp hm with hm | hm
    · exact hrename.presences m sessions hm
    · rcases List.mem_cons.mp hm with hm | hm
      · cases hm
      · obtain ⟨np, -, heq⟩ := List.mem_map.mp hm
        cases heq
  · refine greeted_push_iff.mpr (.inl ⟨{ p with toJid := toJid }, ?_, rfl, hcode⟩)
    exact List.mem_append_right _ List.mem_cons_self

theorem push_append (outs outs' : List Output) (log : List Entry) :
    push (outs ++ outs') log = push outs' (push outs log) := by
  simp [push]

theorem subject_setTo (j : Jid) (m : Message) : (m.setTo j).head.subject = m.head.subject ∧
    (m.setTo j).head.toJid = j := by
  simp [Message.setTo]

/-- Joining is the first own presence, unless that was sent before. -/
theorem Polite.sendParticipants {j : Jid} (h : Polite c log)
    (hturn : c.sentInitialPresence = true ∨ c.jids = []) (nickname : String) :
    Polite ((c.addJid j).sendParticipants x j nickname).1
      (push ((c.addJid j).sendParticipants x j nickname).2 log) := by
  obtain ⟨hpresents, hset, hgreeted⟩ :=
    presents_sendParticipants (x := x) j nickname (c.addJid j) log
  generalize (c.addJid j).sendParticipants x j nickname = r at hpresents hset hgreeted
  have hold : ∀ i ∈ c.jids, c.sentInitialPresence = true := by
    intro i hi
    refine hturn.resolve_right fun hnil => ?_
    rw [hnil] at hi
    cases hi
  refine ⟨hpresents.muc.trans h.muc, ?_, ?_, ?_, ?_, ?_, ?_, ?_⟩
  · exact h.after.push fun m sessions hm => absurd hm (hpresents.presences m sessions)
  · intro _ i hi
    rw [show r.1.jids = c.jids ++ [j] from hpresents.jids] at hi
    rcases List.mem_append.mp hi with hi | hi
    · exact (h.shown (hold i hi) i hi).push r.2
    · rw [List.mem_singleton.mp hi]
      exact hgreeted
  · intro hno
    rw [hset] at hno
    cases hno
  · rw [hpresents.subject, topic_push]
    exact h.unset
  · rw [hpresents.subject, topic_push]
    exact h.set
  · intro m hm
    have hreceiver := h.receiver m (hpresents.subject ▸ hm)
    rw [if_pos hset]
    cases hflag : c.sentInitialPresence with
    | true =>
      rw [hflag, if_pos rfl] at hreceiver
      exact hreceiver.push r.2
    | false =>
      rw [hflag, if_neg (by simp)] at hreceiver
      rw [hold _ hreceiver] at hflag
      cases hflag
  · rw [hpresents.cached]
    exact h.cached

/-- The cached messages and the subject go to the resource that joins. -/
theorem receiver_sendCachedMessages {j : Jid} {m : Message} {sessions : List Jid}
    (hm : .message m sessions ∈ (c.sendCachedMessages x (some j)).2) : m.head.toJid = j := by
  obtain ⟨m', hm', heq⟩ := List.mem_map.mp hm
  cases heq
  rcases List.mem_append.mp hm' with hm' | hm'
  · obtain ⟨m'', -, rfl⟩ := List.mem_map.mp hm'
    exact (subject_setTo _ _).2
  · obtain ⟨m'', -, rfl⟩ := Option.map_eq_some_iff.mp (Option.mem_toList.mp hm')
    exact (subject_setTo _ _).2

theorem told_sendCachedMessages {j : Jid} {m : Message} (hm : c.subject = some m)
    (log : List Entry) :
    Told m.head.subject j (push (c.sendCachedMessages x (some j)).2 log) := by
  have hmem : x.sendMessage (m.setTo j) ∈ (c.sendCachedMessages x (some j)).2 := by
    refine List.mem_map.mpr ⟨m.setTo j, List.mem_append_right _ ?_, rfl⟩
    rw [hm]
    exact List.mem_singleton.mpr rfl
  have htold := told_push log hmem
  rwa [(subject_setTo _ m).1, (subject_setTo _ m).2] at htold

theorem Polite.sendCachedMessages {j : Jid} (h : Polite c log)
    (hset : c.sentInitialPresence = true) (hgreeted : Greeted j log) :
    Polite (c.sendCachedMessages x (some j)).1 (push (c.sendCachedMessages x (some j)).2 log) := by
  refine ⟨h.muc, ?_, ?_, ?_, ?_, ?_, ?_, ?_⟩
  · refine h.after.push fun m sessions hm _ => ?_
    rw [receiver_sendCachedMessages hm]
    exact hgreeted
  · exact fun _ i hi => (h.shown hset i hi).push _
  · intro hno
    rw [show c.sentInitialPresence = false from hno] at hset
    cases hset
  · intro hno
    rw [topic_push]
    exact h.unset (Option.map_eq_none_iff.mp hno)
  · intro m hm
    obtain ⟨m', hm', rfl⟩ := Option.map_eq_some_iff.mp hm
    rw [topic_push, (subject_setTo _ m').1]
    exact h.set m' hm'
  · intro m hm
    obtain ⟨m', -, rfl⟩ := Option.map_eq_some_iff.mp hm
    rw [if_pos (show (c.sendCachedMessages x (some j)).1.sentInitialPresence = true from hset)]
    rw [show ((some j).getD c.jid.toBare) = j from rfl, (subject_setTo _ m').2]
    exact hgreeted.push _
  · intro m hm
    cases hm

theorem settled_sendCachedMessages {j : Jid}
    (htold : ∀ m, c.subject = some m → ∀ i ∈ c.jids, i = j ∨ Told m.head.subject i log) :
    Settled (c.sendCachedMessages x (some j)).1 (push (c.sendCachedMessages x (some j)).2 log) := by
  intro m hm _ i hi
  obtain ⟨m', hm', rfl⟩ := Option.map_eq_some_iff.mp hm
  rw [(subject_setTo _ m').1]
  rcases htold m' hm' i hi with rfl | htold
  · exact told_sendCachedMessages hm' log
  · exact htold.push _

theorem polite_join {p : Presence} (h : Polite c log) (hs : Settled c log)
    (hturn : c.sentInitialPresence = true ∨ c.jids = []) :
    Polite (addParticipant p x c).1 (push (addParticipant p x c).2 log) ∧
      Settled (addParticipant p x c).1 (push (addParticipant p x c).2 log) := by
  obtain ⟨hpresents, hset, hgreeted⟩ :=
    presents_sendParticipants (x := x) p.fromJid p.toJid.resource (c.addJid p.fromJid) log
  have hpolite := h.sendParticipants (x := x) (j := p.fromJid) hturn p.toJid.resource
  unfold addParticipant
  dsimp only
  rw [push_append]
  generalize (c.addJid p.fromJid).sendParticipants x p.fromJid p.toJid.resource = r
    at hpresents hset hgreeted hpolite
  refine ⟨hpolite.sendCachedMessages hset hgreeted, settled_sendCachedMessages ?_⟩
  intro m hm i hi
  rw [show r.1.jids = c.jids ++ [p.fromJid] from hpresents.jids] at hi
  rcases List.mem_append.mp hi with hi | hi
  · have hflag : c.sentInitialPresence = true := by
      refine hturn.resolve_right fun hnil => ?_
      rw [hnil] at hi
      cases hi
    exact .inr ((hs m (hpresents.subject ▸ hm) hflag i hi).push r.2)
  · exact .inl (List.mem_singleton.mp hi)

/-- A resource that leaves gets an own presence, too. -/
theorem polite_leave {j : Jid} (h : Polite c log) (hs : Settled c log)
    (hturn : c.sentInitialPresence = true ∨ ∀ i ∈ c.jids, i = j) :
    Polite (c.removeJid x j).1 (push (c.removeJid x j).2 log) ∧
      Settled (c.removeJid x j).1 (push (c.removeJid x j).2 log) := by
  obtain ⟨hd, hcode⟩ := generatePresence_own (x := x) (.ofShow .none) "" "" c
  have heq : c.removeJid x j =
      ({ c with
          toConversation := c.toConversation.removeJid j, nicknameChanged := false,
          sentInitialPresence := true },
        [.presence { (c.generatePresence x c.nickname 0 (.ofShow .none) "" "" "").1 with
          toJid := j }]) := by
    simp only [Conversation.removeJid, h.muc, if_true, hd]
  have hgreeted : Greeted j (push (c.removeJid x j).2 log) := by
    rw [heq]
    exact greeted_push_iff.mpr (.inl ⟨_, List.mem_cons_self, rfl, hcode⟩)
  have hmem : ∀ i, i ∈ (c.removeJid x j).1.jids → i ∈ c.jids ∧ i ≠ j := by
    intro i hi
    rw [heq] at hi
    simpa [Spectrum.Conversation.removeJid] using hi
  have hflag : ∀ i, i ∈ (c.removeJid x j).1.jids → c.sentInitialPresence = true := by
    intro i hi
    obtain ⟨hin, hne⟩ := hmem i hi
    exact hturn.resolve_right fun hsingle => hne (hsingle i hin)
  have hset : (c.removeJid x j).1.sentInitialPresence = true := by rw [heq]
  have hsubject : (c.removeJid x j).1.subject = c.subject := by rw [heq]
  refine ⟨⟨?_, ?_, ?_, ?_, ?_, ?_, ?_, ?_⟩, ?_⟩
  · rw [heq]
    exact h.muc
  · refine h.after.push fun m sessions hm => ?_
    rw [heq] at hm
    cases List.mem_singleton.mp hm
  · exact fun _ i hi => (h.shown (hflag i hi) i (hmem i hi).1).push _
  · intro hno
    rw [hset] at hno
    cases hno
  · rw [hsubject, topic_push]
    exact h.unset
  · rw [hsubject, topic_push]
    exact h.set
  · intro m hm
    rw [hsubject] at hm
    rw [if_pos hset]
    have hreceiver := h.receiver m hm
    cases hold : c.sentInitialPresence with
    | true =>
      rw [hold, if_pos rfl] at hreceiver
      exact hreceiver.push _
    | false =>
      rw [hold, if_neg (by simp)] at hreceiver
      rcases hturn with hbad | hsingle
      · rw [hold] at hbad
        cases hbad
      · rw [hsingle _ hreceiver]
        exact hgreeted
  · rw [heq]
    exact h.cached
  · intro m hm _ i hi
    rw [hsubject] at hm
    exact (hs m hm (hflag i hi) i (hmem i hi).1).push _

end Members

/-! ## Messages -/

/-- A method that sends no subject and caches none. -/
structure Ordinary (c : Conversation) (r : Conversation × List Output) : Prop where
  same : ∃ cached, r.1 = { c with cachedMessages := cached } ∧
    ∀ m ∈ cached, m ∈ c.cachedMessages ∨ m.head.subject = ""
  presences : ∀ p, .presence p ∈ r.2 → 110 ∉ p.codes
  messages : ∀ m sessions, .message m sessions ∈ r.2 → m.head.subject = ""

section Messages

variable {x : Context} {c : Conversation} {log : List Entry}

theorem Ordinary.append {r r' : Conversation × List Output} (h : Ordinary c r)
    (h' : Ordinary r.1 r') :
    Ordinary c (r'.1, r.2 ++ r'.2) := by
  obtain ⟨cached, heq, hcached⟩ := h.same
  obtain ⟨cached', heq', hcached'⟩ := h'.same
  refine ⟨⟨cached', by rw [heq', heq], fun m hm => ?_⟩, fun p hp => ?_, fun m sessions hm => ?_⟩
  · rcases hcached' m hm with hm | hm
    · rw [heq] at hm
      exact hcached m hm
    · exact .inr hm
  · rcases List.mem_append.mp hp with hp | hp
    · exact h.presences p hp
    · exact h'.presences p hp
  · rcases List.mem_append.mp hm with hm | hm
    · exact h.messages m sessions hm
    · exact h'.messages m sessions hm

theorem Polite.ordinary {r : Conversation × List Output} (h : Polite c log) (hs : Settled c log)
    (hr : Ordinary c r) : Polite r.1 (push r.2 log) ∧ Settled r.1 (push r.2 log) := by
  obtain ⟨cached, heq, hcached⟩ := hr.same
  have hquiet : ∀ j, Greeted j (push r.2 log) ↔ Greeted j log := by
    intro j
    rw [greeted_push_iff]
    refine or_iff_right ?_
    rintro ⟨p, hp, -, hcode⟩
    exact hr.presences p hp hcode
  rw [heq]
  refine ⟨⟨h.muc, ?_, ?_, ?_, ?_, ?_, ?_, ?_⟩, ?_⟩
  · exact h.after.push fun m sessions hm hne => absurd (hr.messages m sessions hm) hne
  · simp only [hquiet]
    exact h.shown
  · simp only [hquiet]
    exact h.unseen
  · rw [topic_push]
    exact h.unset
  · rw [topic_push]
    exact h.set
  · simp only [hquiet]
    exact h.receiver
  · intro m hm
    rcases hcached m hm with hm | hm
    · exact h.cached m hm
    · exact hm
  · exact fun m hm hflag j hj => (hs m hm hflag j hj).push r.2

theorem ordinary_cacheMessage {m : Message} (hm : m.head.subject = "") (c : Conversation) :
    Ordinary c (c.cacheMessage m, []) := by
  have hnew : ∀ m' ∈ c.cachedMessages ++ [m.addPayload (.delay none)],
      m' ∈ c.cachedMessages ∨ m'.head.subject = "" := by
    intro m' hm'
    rcases List.mem_append.mp hm' with hm' | hm'
    · exact .inl hm'
    · rw [List.mem_singleton.mp hm']
      exact .inr (by simpa [Message.addPayload] using hm)
  refine ⟨⟨(c.cacheMessage m).cachedMessages, rfl, ?_⟩, by simp, by simp⟩
  unfold Conversation.cacheMessage
  dsimp only
  split
  · exact fun m' hm' => hnew m' (List.mem_of_mem_tail hm')
  · exact hnew

theorem ordinary_sendToJids {m : Message} (hm : m.head.subject = "") (js : List Jid)
    (c : Conversation) : Ordinary c (c.sendToJids x m js) := by
  induction js with
  | nil =>
    exact ⟨⟨c.cachedMessages, rfl, fun _ h => .inl h⟩, by simp [Conversation.sendToJids],
      by simp [Conversation.sendToJids]⟩
  | cons j js ih =>
    unfold Conversation.sendToJids
    rw [if_pos hm]
    refine ⟨ih.same, fun p hp => ?_, fun m' sessions hm' => ?_⟩
    · rcases List.mem_cons.mp hp with hp | hp
      · cases hp
      · exact ih.presences p hp
    · rcases List.mem_cons.mp hm' with hm' | hm'
      · cases hm'
        exact (subject_setTo j m).1.trans hm
      · exact ih.messages m' sessions hm'

theorem ordinary_handleRawMessage {m : Message} (hm : m.head.subject = "") (c : Conversation) :
    Ordinary c (c.handleRawMessage x m) := by
  unfold Conversation.handleRawMessage
  split
  · split
    · exact ordinary_cacheMessage hm c
    · refine ⟨⟨c.cachedMessages, rfl, fun _ h => .inl h⟩, fun p hp => ?_, fun m' sessions hm' => ?_⟩
      · cases List.mem_singleton.mp hp
      · cases List.mem_singleton.mp hm'
        exact hm
  · split
    · exact ordinary_cacheMessage hm c
    · exact ordinary_sendToJids hm _ c

theorem ordinary_handleRawMessages {ms : List Message} (hms : ∀ m ∈ ms, m.head.subject = "")
    (c : Conversation) : Ordinary c (c.handleRawMessages x ms) := by
  induction ms generalizing c with
  | nil =>
    exact ⟨⟨c.cachedMessages, rfl, fun _ h => .inl h⟩, by simp [Conversation.handleRawMessages],
      by simp [Conversation.handleRawMessages]⟩
  | cons m ms ih =>
    exact (ordinary_handleRawMessage (hms m List.mem_cons_self) c).append
      (ih (fun m' hm' => hms m' (List.mem_cons_of_mem m hm')) _)

theorem subject_address (nickname : String) (m : Message) :
    (c.address x nickname m).head.subject = m.head.subject := by
  unfold Conversation.address
  dsimp only
  split <;> simp [Message.setType, Message.setFrom, Message.setTo]

/-- A room hands a message on without copies. -/
theorem handleMessage_of_muc (hmuc : c.muc = true) (m : Message) (nickname : String) :
    c.handleMessage x m nickname false = c.handleRawMessage x (c.address x nickname m) := by
  simp [Conversation.handleMessage, hmuc]

theorem ordinary_handleMessage {m : Message} {carbon : Bool} (hmuc : c.muc = true)
    (hm : m.head.subject = "" ∨ carbon = true) (nickname : String) :
    Ordinary c (c.handleMessage x m nickname carbon) := by
  cases carbon with
  | true =>
    refine ordinary_handleRawMessages (fun m' hm' => ?_) c
    obtain ⟨j, -, rfl⟩ := List.mem_map.mp hm'
    unfold Conversation.forwardAsCarbonSent
    split <;> rfl
  | false =>
    rw [handleMessage_of_muc hmuc]
    refine ordinary_handleRawMessage ?_ c
    rw [subject_address]
    exact hm.resolve_right (by simp)

/-- The presences that kick the user out of his room are not the ones with code 110. -/
theorem ordinary_destroyRoom (x : Context) (c : Conversation) : Ordinary c (c, c.destroyRoom x) := by
  refine ⟨⟨c.cachedMessages, rfl, fun _ h => .inl h⟩, fun p hp => ?_, fun m sessions hm => ?_⟩
  · unfold Conversation.destroyRoom at hp
    dsimp only at hp
    split at hp
    · obtain ⟨j, -, heq⟩ := List.mem_map.mp hp
      obtain rfl := Output.presence.inj heq
      exact (by decide : 110 ∉ [332, 307])
    · cases hp
  · unfold Conversation.destroyRoom at hm
    dsimp only at hm
    split at hm
    · obtain ⟨j, -, heq⟩ := List.mem_map.mp hm
      cases heq
    · cases hm

/-- A subject is kept for the first resource, or sent to all. -/
theorem sendToJids_subject {m : Message} (hm : m.head.subject ≠ "") {js : List Jid}
    (hne : js ≠ []) (c : Conversation) :
    (c.sentInitialPresence = false ∧ ∃ j ∈ js,
      c.sendToJids x m js = ({ c with subject := some (m.setTo j) }, [])) ∨
    c.sentInitialPresence = true ∧ ∃ j ∈ js,
      c.sendToJids x m js =
        ({ c with subject := some (m.setTo j) }, js.map fun j => x.sendMessage (m.setTo j)) := by
  induction js generalizing c with
  | nil => exact absurd rfl hne
  | cons j js ih =>
    unfold Conversation.sendToJids
    simp only [hm, if_false]
    by_cases hflag : c.sentInitialPresence = false
    · exact .inl ⟨hflag, j, List.mem_cons_self, by rw [if_pos hflag]⟩
    · refine .inr ⟨by simpa using hflag, ?_⟩
      rw [if_neg hflag]
      by_cases hjs : js = []
      · subst hjs
        exact ⟨j, List.mem_cons_self, rfl⟩
      · rcases ih hjs { c with subject := some (m.setTo j) } with ⟨hno, -⟩ | ⟨-, i, hi, heq⟩
        · exact absurd hno hflag
        · refine ⟨i, List.mem_cons_of_mem j hi, ?_⟩
          rw [heq]
          rfl

theorem greeted_subject_iff {text : String} {j : Jid} :
    Greeted j (.subject text :: log) ↔ Greeted j log := by
  constructor
  · rintro ⟨e, he, hself⟩
    rcases List.mem_cons.mp he with rfl | he
    · cases hself
    · exact ⟨e, he, hself⟩
  · rintro ⟨e, he, hself⟩
    exact ⟨e, List.mem_cons_of_mem _ he, hself⟩

theorem AfterSelf.subject (text : String) (h : AfterSelf log) :
    AfterSelf (.subject text :: log) :=
  ⟨fun _ _ _ hno => (nomatch hno), h⟩

/-- The subject is kept until the first own presence is sent. -/
theorem Polite.keepSubject {m : Message} {j : Jid} (h : Polite c log) (hm : m.head.subject ≠ "")
    (hflag : c.sentInitialPresence = false) (hj : j ∈ c.jids) :
    Polite { c with subject := some (m.setTo j) } (.subject m.head.subject :: log) := by
  obtain ⟨hnever, hsingle, hinitial⟩ := h.unseen hflag
  refine ⟨h.muc, h.after.subject _, ?_, ?_, ?_, ?_, ?_, h.cached⟩
  · intro hset
    rw [show c.sentInitialPresence = true from hset] at hflag
    cases hflag
  · exact fun _ => ⟨fun i hi => hnever i (greeted_subject_iff.mp hi), hsingle, hinitial⟩
  · intro hno
    cases hno
  · intro n hn
    cases hn
    rw [(subject_setTo j m).1]
    exact ⟨hm, rfl⟩
  · intro n hn
    cases hn
    rw [(subject_setTo j m).2]
    simpa [hflag] using hj

/-- The subject is sent to everybody who takes part. -/
theorem Polite.spreadSubject {m : Message} {j : Jid} (h : Polite c log) (hm : m.head.subject ≠ "")
    (hflag : c.sentInitialPresence = true) (hj : j ∈ c.jids) :
    Polite { c with subject := some (m.setTo j) }
      (push (c.jids.map fun i => x.sendMessage (m.setTo i)) (.subject m.head.subject :: log)) := by
  have hall : ∀ i ∈ c.jids, Greeted i (.subject m.head.subject :: log) :=
    fun i hi => greeted_subject_iff.mpr (h.shown hflag i hi)
  refine ⟨h.muc, ?_, ?_, ?_, ?_, ?_, ?_, h.cached⟩
  · refine (h.after.subject _).push fun n sessions hn _ => ?_
    obtain ⟨i, hi, heq⟩ := List.mem_map.mp hn
    cases heq
    rw [(subject_setTo i m).2]
    exact hall i hi
  · exact fun _ i hi => (hall i hi).push _
  · intro hno
    rw [show c.sentInitialPresence = false from hno] at hflag
    cases hflag
  · intro hno
    cases hno
  · intro n hn
    cases hn
    rw [topic_push, (subject_setTo j m).1]
    exact ⟨hm, rfl⟩
  · intro n hn
    cases hn
    rw [(subject_setTo j m).2]
    simpa [hflag] using (hall j hj).push _

theorem polite_subject {m : Message} (h : Polite c log) (hm : m.head.subject ≠ "")
    (hne : c.jids ≠ []) (nickname : String) :
    Polite (c.handleMessage x m nickname false).1
        (push (c.handleMessage x m nickname false).2 (.subject m.head.subject :: log)) ∧
      Settled (c.handleMessage x m nickname false).1
        (push (c.handleMessage x m nickname false).2 (.subject m.head.subject :: log)) := by
  have hgroup : (c.address x nickname m).head.type = .groupchat :=
    (type_address nickname m).mpr h.muc
  have hsubject := subject_address (x := x) (c := c) nickname m
  rw [handleMessage_of_muc h.muc]
  have hraw : c.handleRawMessage x (c.address x nickname m) =
      c.sendToJids x (c.address x nickname m) c.jids := by
    simp [Conversation.handleRawMessage, hgroup, hne]
  rw [hraw]
  generalize c.address x nickname m = m' at hsubject
  rw [← hsubject] at hm ⊢
  rcases sendToJids_subject (x := x) hm hne c with ⟨hflag, j, hj, heq⟩ | ⟨hflag, j, hj, heq⟩
  · rw [heq]
    refine ⟨h.keepSubject hm hflag hj, ?_⟩
    intro n hn hset
    rw [show c.sentInitialPresence = true from hset] at hflag
    cases hflag
  · rw [heq]
    refine ⟨h.spreadSubject hm hflag hj, ?_⟩
    intro n hn _ i hi
    cases hn
    rw [(subject_setTo j m').1]
    have htold := told_push (.subject m'.head.subject :: log)
      (List.mem_map.mpr ⟨i, hi, rfl⟩ :
        x.sendMessage (m'.setTo i) ∈ c.jids.map fun j => x.sendMessage (m'.setTo j))
    rwa [(subject_setTo i m').1, (subject_setTo i m').2] at htold

end Messages

/-! ## Every run -/

theorem polite_announce {x : Context} {p : ParticipantChange} {r : Room} (h : Polite r.conv r.log)
    (hp : Pending r.conv r.log) :
    Polite (r.announce x p).2.conv (r.announce x p).2.log ∧
      Pending (r.announce x p).2.conv (r.announce x p).2.log := by
  have hpresents := presents_changeParticipant (x := x) p.nickname p.flag p.status p.statusMessage
    p.newname p.iconHash p.nickAlias r.conv
  exact ⟨h.presents hpresents fun hno hset j hj => greeted_changeParticipant hno hset hj,
    hp.presents h hpresents⟩

theorem polite_settle {x : Context} {type : PresenceType} {r : Room} (h : Polite r.conv r.log)
    (hp : Pending r.conv r.log) :
    Polite (r.settle x type).conv (r.settle x type).log ∧
      Settled (r.settle x type).conv (r.settle x type).log := by
  have hsent := h.sendSubject (x := x) hp
  unfold settle
  dsimp only
  split <;> exact hsent

theorem polite_change {x : Context} {p : ParticipantChange} {r r' : Room}
    (h : Polite r.conv r.log) (hs : Settled r.conv r.log) (hr : r.change x p = some r') :
    Polite r'.conv r'.log ∧ Settled r'.conv r'.log :=
  change_rule (P := fun r => Polite r.conv r.log ∧ Settled r.conv r.log)
    (Q := fun r => Polite r.conv r.log ∧ Pending r.conv r.log)
    (fun _ _ h => polite_announce h.1 h.2) (fun _ _ h => polite_settle h.1 h.2)
    (fun _ h => ⟨h.1, h.2.pending⟩) ⟨h, hs⟩ hr

theorem polite_message {x : Context} {m : Head} {nickname : String} {carbon : Bool} {r : Room}
    (h : Polite r.conv r.log) (hs : Settled r.conv r.log)
    (hturn : m.subject = "" ∨ carbon = true ∨ r.conv.jids ≠ []) :
    let r' := (r.mark m carbon).act ((Event.message m nickname carbon).calls x)
    Polite r'.conv r'.log ∧ Settled r'.conv r'.log := by
  by_cases hsubject : m.subject ≠ "" ∧ carbon = false
  · obtain ⟨hne, rfl⟩ := hsubject
    have hjids : r.conv.jids ≠ [] := by
      rcases hturn with hempty | hcarbon | hjids
      · exact absurd hempty hne
      · cases hcarbon
      · exact hjids
    simp only [mark, hne, ne_eq, not_false_eq_true, and_self, if_true]
    exact polite_subject (m := .plain m) h hne hjids nickname
  · have hplain : m.subject = "" ∨ carbon = true := by
      by_contra hno
      rw [not_or] at hno
      exact hsubject ⟨hno.1, by simpa using hno.2⟩
    rw [mark, if_neg hsubject]
    exact h.ordinary hs (ordinary_handleMessage (m := .plain m) h.muc hplain nickname)

/-- The conversation changes in nothing that concerns the subject. -/
theorem Polite.of_same {c d : Conversation} {log : List Entry} (h : Polite c log)
    (hs : Settled c log) (hmuc : d.muc = c.muc) (hjids : d.jids = c.jids)
    (hflag : d.sentInitialPresence = c.sentInitialPresence) (hsubject : d.subject = c.subject)
    (hinitial : d.sentInitialSubject = c.sentInitialSubject)
    (hcached : d.cachedMessages = c.cachedMessages) : Polite d log ∧ Settled d log := by
  refine ⟨⟨hmuc.trans h.muc, h.after, ?_, ?_, ?_, ?_, ?_, ?_⟩, ?_⟩
  · rw [hflag, hjids]
    exact h.shown
  · rw [hflag, hjids, hinitial]
    exact h.unseen
  · rw [hsubject]
    exact h.unset
  · rw [hsubject]
    exact h.set
  · rw [hsubject, hflag, hjids]
    exact h.receiver
  · rw [hcached]
    exact h.cached
  · unfold Settled
    rw [hsubject, hflag, hjids]
    exact hs

theorem polite_clear {c : Conversation} {log : List Entry} (h : Polite c log)
    (hturn : c.sentInitialPresence = true ∨ c.subject = none) :
    Polite { c with jids := [] } log ∧ Settled { c with jids := [] } log := by
  refine ⟨⟨h.muc, h.after, ?_, ?_, h.unset, h.set, ?_, h.cached⟩, ?_⟩
  · intro _ j hj
    cases hj
  · intro hno
    obtain ⟨hnever, -, hinitial⟩ := h.unseen hno
    refine ⟨hnever, ?_, hinitial⟩
    intro i hi
    cases hi
  · intro m hm
    have hreceiver := h.receiver m hm
    rcases hturn with hflag | hnone
    · rw [hflag, if_pos rfl] at hreceiver
      simpa [hflag] using hreceiver
    · rw [show c.subject = some m from hm] at hnone
      cases hnone
  · intro m _ _ j hj
    cases hj

theorem polite_step {r r' : Room} {e : Context × Event} (hturn : InTurn r e)
    (hs : step r e = some r') (h : Polite r.conv r.log ∧ Settled r.conv r.log) :
    Polite r'.conv r'.log ∧ Settled r'.conv r'.log := by
  obtain ⟨hpolite, hsettled⟩ := h
  obtain ⟨x, e⟩ := e
  unfold step at hs
  split at hs
  · cases hs
  · cases e with
    | participant p => exact polite_change hpolite hsettled hs
    | join p =>
      cases hs
      exact polite_join hpolite hsettled hturn
    | leave j =>
      cases hs
      exact polite_leave hpolite hsettled hturn
    | nickname nickname =>
      cases hs
      exact hpolite.of_same hsettled rfl rfl rfl rfl rfl rfl
    | message m nickname carbon =>
      cases hs
      exact polite_message hpolite hsettled hturn
    | clear =>
      cases hs
      exact polite_clear hpolite hturn
    | said m =>
      cases hs
      have hordinary : Ordinary r.conv (r.conv, [.toBackend r.conv.legacyName m]) :=
        ⟨⟨r.conv.cachedMessages, rfl, fun _ hm => .inl hm⟩, by simp, by simp⟩
      obtain ⟨hpolite', hsettled'⟩ := hpolite.ordinary hsettled hordinary
      exact hpolite'.of_same hsettled' rfl rfl rfl rfl rfl rfl
    | flush =>
      cases hs
      have hnone : Event.flush.calls x r.conv = (r.conv, []) := if_pos hpolite.muc
      simp only [act, hnone]
      exact ⟨hpolite, hsettled⟩
    | reset =>
      cases hs
      have hnone : Event.reset.calls x r.conv = (r.conv, []) := if_pos hpolite.muc
      simp only [act, hnone]
      exact ⟨hpolite, hsettled⟩
    | orphan =>
      cases hs
      have hnone : Event.orphan.calls x r.conv = (r.conv, []) := if_pos hpolite.muc
      simp only [act, hnone]
      exact ⟨hpolite, hsettled⟩
    | destroy =>
      cases hs
      exact hpolite.ordinary hsettled (ordinary_destroyRoom x r.conv)

/-- In every run in which the flag speaks for all resources, a subject follows the own presence of
its receiver, and everybody with an own presence gets the subject. -/
theorem courteous_of_inTurn {tr : List (Room × Context × Event)} {r : Room}
    (h : machine.Run tr r) (hturn : Machine.Meets InTurn tr) : Courteous r := by
  have hinvariant : Polite r.conv r.log ∧ Settled r.conv r.log := by
    refine h.invariant_of_steps (I := fun r => Polite r.conv r.log ∧ Settled r.conv r.log)
      (C := InTurn) ?_ (fun r e r' hc hs => polite_step hc hs) hturn
    rintro r ⟨env, p, name, rfl⟩
    refine ⟨⟨rfl, trivial, ?_, ?_, fun _ => rfl, ?_, ?_, ?_⟩, ?_⟩
    · intro hno
      cases hno
    · refine fun _ => ⟨?_, ?_, rfl⟩
      · rintro j ⟨e, he, -⟩
        cases he
      · intro i hi j hj
        have hone : (newRoom env p name).jids = [p.fromJid] := rfl
        rw [hone, List.mem_singleton] at hi hj
        rw [hi, hj]
    · intro m hm
      cases hm
    · intro m hm
      cases hm
    · intro m hm
      cases hm
    · intro m hm
      cases hm
  exact hinvariant.1.courteous hinvariant.2

namespace Sample

def context : Context := Account.Sample.occupant.toContext

/-- A resource of the user joins the room. -/
def joining (resource : String) : Presence where
  fromJid := ⟨"bob", "example.org", resource⟩
  toJid := ⟨"#room", "localhost", "bob"⟩
  muc := some none

def room : Room := { conv := newRoom context.env (joining "home") "#room" }

/-- The backend tells that the user is in the room. -/
def entered : ParticipantChange :=
  { room := "#room", nickname := "bob", flag := 0, status := .ofShow .online }

def subject : Event := .message { subject := "welcome" } "carol" false

end Sample

/-- The subject waits for the own presence, and the second resource gets it when it joins. -/
theorem courteous_of_inTurn_bob : ∃ tr r, machine.Run tr r ∧ Machine.Meets InTurn tr ∧
    topic r.log = some "welcome" ∧ Courteous r := by
  have hexec : ∃ r, (machine.restrict InTurn).exec Sample.room
      [(Sample.context, Sample.subject), (Sample.context, .participant Sample.entered),
        (Sample.context, .join (Sample.joining "work"))] = some r ∧
      topic r.log = some "welcome" := ⟨_, by rfl, by rfl⟩
  obtain ⟨r, hr, htopic⟩ := hexec
  have hinit : machine.init Sample.room := ⟨_, _, _, rfl⟩
  obtain ⟨tr, hrun, hmeets⟩ := Machine.exists_run_of_restrict hinit hr
  exact ⟨tr, r, hrun, hmeets, htopic, courteous_of_inTurn hrun hmeets⟩

/-- A second resource joins before the backend has told that the user is in the room. The subject
goes to both, and the first has no own presence yet. -/
theorem not_courteous_of_join :
    ¬ ∀ (tr : List (Room × Context × Event)) (r : Room), machine.Run tr r → Courteous r := by
  intro hall
  have hexec : ∃ r, machine.exec Sample.room
      [(Sample.context, .join (Sample.joining "work")), (Sample.context, Sample.subject)] = some r ∧
      ∃ e e' log, r.log = e :: e' :: log ∧
        isSubject "welcome" (Sample.joining "home").fromJid e' = true ∧
        (log.all fun e => !isSelf (Sample.joining "home").fromJid e) = true :=
    ⟨_, by rfl, _, _, _, by rfl, by rfl, by rfl⟩
  obtain ⟨r, hr, e, e', log, hlog, hsubject, hnever⟩ := hexec
  have hinit : machine.init Sample.room := ⟨_, _, _, rfl⟩
  obtain ⟨tr, hrun, -⟩ := Machine.exists_run_of_exec hinit hr
  have hafter := (hall tr r hrun).after
  rw [hlog] at hafter
  obtain ⟨e'', he'', hself⟩ := hafter.2.1 "welcome" _ (by decide) hsubject
  have hno := List.all_eq_true.mp hnever e'' he''
  rw [hself] at hno
  cases hno

end Spectrum.Account.Room
