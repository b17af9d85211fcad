import Mathlib.Data.List.Infix
import Mathlib.Data.List.Nodup
import Spectrum.Lib.Buckets
import Spectrum.Lib.Machine
import Spectrum.Model.Stanza

/-!
# The stanzas of the clients in server mode

`ServerStanzaChannel` keeps the sessions that have started in lists by bare JID, writes the stanzas of
the transport to them and hands on what they send. A session that the transport finishes is not heard
any more; its stream ends later. `sessions[...]` puts an empty list under a key that is not there, which
nothing can see.

* `send_of_run`: a stanza is written to the session with its full JID that started first, and without
  one to every session with its bare JID, as these are known from the history;
* `departed_of_run`: a session that left was finished by the transport or reported unavailable, and a
  session that is still there was reported only if it sent the end of its stream.
-/

namespace Spectrum

open Lib

/-- A session that has started, with `getRemoteJID`. -/
structure Stream where
  id : Nat
  jid : Jid
  deriving DecidableEq, Repr

namespace Channel

inductive IqType
  | get
  | set
  | result
  | error
  deriving DecidableEq, Repr

inductive Kind
  | message
  | presence
  | iq (type : IqType)
  deriving DecidableEq, Repr

/-- `Swift::Stanza`. What it carries besides its addresses is its text. -/
structure Stanza where
  kind : Kind
  fromJid : Jid
  toJid : Jid
  text : String
  deriving DecidableEq, Repr

/-- What is written to the sessions and what the listeners of the channel hear. -/
inductive Output
  | write (s : Stream) (x : Stanza)
  | writeElement (s : Stream) (element : String)
  | finish (s : Stream)
  | received (x : Stanza)
  | unavailable (s : Stream)
  deriving DecidableEq, Repr

/-- The channel, the sessions that it hears, and the sessions of the server. -/
structure State where
  sessions : SortedMap String (List Stream) := {}
  connected : List Nat := []
  opened : List Stream := []
  ended : List Nat := []
  log : List Output := []

/-- The key of a JID. -/
def keyOf (jid : Jid) : String := jid.toBare.toString

/-- The stanza as it is sent: with the JID of the transport, if it has no sender and is no answer. -/
def stamped (jid : Jid) (x : Stanza) : Stanza :=
  if !x.fromJid.isValid && !(x.kind = .iq .result || x.kind = .iq .error) then
    { x with fromJid := jid }
  else x

namespace State

variable (c : State)

def put (os : List Output) : State := { c with log := c.log ++ os }

def addSession (s : Stream) : State :=
  { c with
    sessions := c.sessions.set (keyOf s.jid) (c.sessions.bucket (keyOf s.jid) ++ [s])
    connected := c.connected ++ [s.id] }

/-- `Server::handleSessionStarted`, for the next session. -/
def handleSessionStarted (jid : Jid) : State :=
  let s : Stream := ⟨c.opened.length, jid⟩
  addSession { c with opened := c.opened ++ [s] } s

def removeSession (s : Stream) : State :=
  { c with
    connected := c.connected.filter (· ≠ s.id)
    sessions := c.sessions.set (keyOf s.jid) ((c.sessions.bucket (keyOf s.jid)).filter (· ≠ s)) }

/-- The loop of `finishSession`. -/
def finishSessions (element : Option String) (last : Bool) : List Stream → State → State
  | [], c => c
  | s :: ss, c =>
    let c := (c.removeSession s).put ((element.map (Output.writeElement s)).toList ++
      (if last && s.jid.isValid then [.unavailable s] else []) ++ [.finish s])
    if last then c else finishSessions element last ss c

def finishSession (toJid : Jid) (element : Option String) (last : Bool) : State :=
  finishSessions element last (c.sessions.bucket (keyOf toJid)) c

/-- `send`, with `m_jid`. None if the assertion fails. -/
def send (jid : Jid) (x : Stanza) : Option State :=
  if !x.toJid.isValid then none
  else
    let x := stamped jid x
    let candidates := c.sessions.bucket (keyOf x.toJid)
    match if x.toJid.isBare then none else candidates.find? (·.jid = x.toJid) with
    | some s => some (c.put [.write s x])
    | none =>
      some (c.put ((candidates.filter (·.jid.toBare = x.toJid.toBare)).map (Output.write · x)))

def handleSessionFinished (s : Stream) : State := (c.removeSession s).put [.unavailable s]

/-- `handleElement`, for a stanza. Other elements are dropped. -/
def handleElement (x : Stanza) (s : Stream) : State :=
  if s.jid.isValid then c.put [.received { x with fromJid := s.jid }] else c

def closingTag : List Char := "</stream:stream>".toList

def handleDataRead (data : List Char) (s : Stream) : State :=
  if closingTag <:+: data then c.put [.unavailable s] else c

end State

inductive Event
  | started (jid : Jid)
  | element (s : Stream) (x : Option Stanza)
  | dataRead (s : Stream) (data : List Char)
  | finished (s : Stream)
  | send (x : Stanza)
  | finishSession (toJid : Jid) (element : Option String) (last : Bool)
  deriving DecidableEq, Repr

/-- A session makes events until its stream has ended. The channel hears those of the sessions that it
is connected to. -/
def step (jid : Jid) (c : State) : Event → Option State
  | .started jid => some (c.handleSessionStarted jid)
  | .element s x =>
    if s ∈ c.opened ∧ s.id ∉ c.ended then
      some (if s.id ∈ c.connected then x.elim c (c.handleElement · s) else c)
    else none
  | .dataRead s data =>
    if s ∈ c.opened ∧ s.id ∉ c.ended then
      some (if s.id ∈ c.connected then c.handleDataRead data s else c)
    else none
  | .finished s =>
    if s ∈ c.opened ∧ s.id ∉ c.ended then
      let c := { c with ended := s.id :: c.ended }
      some (if s.id ∈ c.connected then c.handleSessionFinished s else c)
    else none
  | .send x => c.send jid x
  | .finishSession toJid element last => some (c.finishSession toJid element last)

def machine (jid : Jid) : Machine State Event where
  init c := c = {}
  step := step jid

/-! ## The history -/

/-- The sessions that have started, in order. The events of a history are listed newest first. -/
def opened : List Event → List Stream
  | [] => []
  | .started jid :: es => opened es ++ [⟨(opened es).length, jid⟩]
  | _ :: es => opened es

/-- The sessions that are still there: neither their stream has ended nor has the transport finished
them. -/
def live : List Event → List Stream
  | [] => []
  | .started jid :: es => live es ++ [⟨(opened es).length, jid⟩]
  | .finished s :: es => (live es).filter (· ≠ s)
  | .finishSession toJid _ false :: es => (live es).filter (keyOf ·.jid ≠ keyOf toJid)
  | .finishSession toJid _ true :: es =>
    ((live es).find? (keyOf ·.jid = keyOf toJid)).elim (live es) fun s => (live es).filter (· ≠ s)
  | _ :: es => live es

/-- The sessions that a stanza is for. -/
def recipients (ss : List Stream) (toJid : Jid) : List Stream :=
  match if toJid.isBare then none else ss.find? (·.jid = toJid) with
  | some s => [s]
  | none => ss.filter (·.jid.toBare = toJid.toBare)

/-! ## The lists -/

/-- The lists hold the sessions `l`, which are those that the channel hears. -/
structure Holds (c : State) (l : List Stream) : Prop where
  buckets : Buckets (keyOf ·.jid) c.sessions l
  connected : ∀ s ∈ c.opened, s.id ∈ c.connected ↔ s ∈ l
  opened : ∀ s ∈ l, s ∈ c.opened
  known : ∀ i ∈ c.connected, ∃ s ∈ c.opened, s.id = i
  numbered : ∀ s ∈ c.opened, s.id < c.opened.length
  distinct : ∀ s ∈ c.opened, ∀ t ∈ c.opened, s.id = t.id → s = t

variable {jid : Jid} {c c' : State} {l : List Stream} {s t : Stream} {es : List Event} {x : Stanza}

/-- What does not touch the lists keeps them. -/
theorem Holds.of_same (h : Holds c l) (hs : c'.sessions = c.sessions)
    (hc : c'.connected = c.connected) (ho : c'.opened = c.opened) : Holds c' l := by
  obtain ⟨hb, hcon, hsub, hk, hn, hd⟩ := h
  exact ⟨hs ▸ hb, by rwa [ho, hc], by rwa [ho], by rwa [ho, hc], by rwa [ho], by rwa [ho]⟩

theorem Holds.put (h : Holds c l) (os : List Output) : Holds (c.put os) l := h.of_same rfl rfl rfl

theorem Holds.started (h : Holds c l) (jid : Jid) :
    Holds (c.handleSessionStarted jid) (l ++ [⟨c.opened.length, jid⟩]) where
  buckets := h.buckets.push ⟨c.opened.length, jid⟩
  connected s hs := by
    change s.id ∈ c.connected ++ [c.opened.length] ↔ _
    rw [List.mem_append, List.mem_append, List.mem_singleton, List.mem_singleton]
    rcases List.mem_append.mp hs with hold | hnew
    · have hlt := h.numbered s hold
      refine or_congr (h.connected s hold) (iff_of_false hlt.ne ?_)
      rintro rfl
      exact hlt.ne rfl
    · obtain rfl := List.mem_singleton.mp hnew
      exact iff_of_true (.inr rfl) (.inr rfl)
  opened s hs := by
    rcases List.mem_append.mp hs with hold | hnew
    · exact List.mem_append_left _ (h.opened s hold)
    · exact List.mem_append_right _ hnew
  known i hi := by
    rcases List.mem_append.mp hi with hold | hnew
    · obtain ⟨s, hs, rfl⟩ := h.known i hold
      exact ⟨s, List.mem_append_left _ hs, rfl⟩
    · exact ⟨_, List.mem_append_right _ List.mem_cons_self, (List.mem_singleton.mp hnew).symm⟩
  numbered s hs := by
    change s.id < (c.opened ++ [_]).length
    rw [List.length_append]
    rcases List.mem_append.mp hs with hold | hnew
    · exact Nat.lt_succ_of_lt (h.numbered s hold)
    · obtain rfl := List.mem_singleton.mp hnew
      exact Nat.lt_succ_self _
  distinct s hs t ht heq := by
    rcases List.mem_append.mp hs with hs | hs <;> rcases List.mem_append.mp ht with ht | ht
    · exact h.distinct s hs t ht heq
    · obtain rfl := List.mem_singleton.mp ht
      exact absurd heq (h.numbered s hs).ne
    · obtain rfl := List.mem_singleton.mp hs
      exact absurd heq.symm (h.numbered t ht).ne
    · exact (List.mem_singleton.mp hs).trans (List.mem_singleton.mp ht).symm

theorem Holds.removeSession (h : Holds c l) (hs : s ∈ c.opened) :
    Holds (c.removeSession s) (l.filter (· ≠ s)) where
  buckets := by
    refine h.buckets.remove fun a _ ha => ?_
    have heq : a = s := by simpa using ha
    rw [heq]
  connected t ht := by
    change t.id ∈ c.connected.filter (· ≠ s.id) ↔ _
    rw [List.mem_filter, List.mem_filter, h.connected t ht]
    simp only [decide_eq_true_eq]
    exact and_congr_right fun _ => not_congr ⟨h.distinct t ht s hs, fun heq => by rw [heq]⟩
  opened t ht := h.opened t (List.mem_filter.mp ht).1
  known i hi := h.known i (List.mem_filter.mp hi).1
  numbered := h.numbered
  distinct := h.distinct

/-- The sessions that `finishSession` finishes. -/
def finished (last : Bool) (ss : List Stream) : List Stream := if last then ss.take 1 else ss

theorem Holds.finishSessions {element : Option String} {last : Bool} {ss : List Stream}
    (h : Holds c l) (hss : ∀ s ∈ ss, s ∈ c.opened) :
    Holds (State.finishSessions element last ss c) (l.filter (· ∉ finished last ss)) := by
  induction ss generalizing c l with
  | nil =>
    have hnone : finished last [] = [] := by cases last <;> rfl
    rw [hnone, List.filter_eq_self.mpr fun _ _ => by simp]
    exact h
  | cons s ss ih =>
    obtain ⟨hs, hrest⟩ := List.forall_mem_cons.mp hss
    have hone := (h.removeSession hs).put ((element.map (Output.writeElement s)).toList ++
      (if last && s.jid.isValid then [.unavailable s] else []) ++ [.finish s])
    unfold State.finishSessions
    cases last with
    | true =>
      refine cast (congrArg (Holds _) (List.filter_congr fun t _ => ?_)) hone
      simp [finished]
    | false =>
      refine cast (congrArg (Holds _) ?_) (ih hone hrest)
      rw [List.filter_filter]
      refine List.filter_congr fun t _ => ?_
      simp only [finished, Bool.false_eq_true, if_false, List.mem_cons, not_or]
      rw [← Bool.decide_and]
      exact decide_eq_decide.mpr and_comm

/-- The sessions of a bucket are the sessions with that key. -/
theorem Holds.finishSession (h : Holds c l) (toJid : Jid) (element : Option String) :
    Holds (c.finishSession toJid element false) (l.filter (keyOf ·.jid ≠ keyOf toJid)) ∧
    Holds (c.finishSession toJid element true)
      ((l.find? (keyOf ·.jid = keyOf toJid)).elim l fun s => l.filter (· ≠ s)) := by
  have hbucket := h.buckets (keyOf toJid)
  have hopened : ∀ s ∈ c.sessions.bucket (keyOf toJid), s ∈ c.opened := fun s hs => by
    rw [hbucket] at hs
    exact h.opened s (List.mem_filter.mp hs).1
  constructor
  · refine cast (congrArg (Holds _) (List.filter_congr fun t ht => ?_)) (h.finishSessions hopened)
    simp [finished, hbucket, ht]
  · have hall := @Holds.finishSessions c l element true _ h hopened
    rw [finished, if_pos rfl, hbucket] at hall
    rw [← List.head?_filter]
    unfold State.finishSession
    cases hfilter : l.filter fun s => decide (keyOf s.jid = keyOf toJid) with
    | nil =>
      rw [hfilter, List.take_nil, List.filter_eq_self.mpr fun _ _ => by simp] at hall
      rw [hbucket, hfilter]
      exact hall
    | cons s ss =>
      rw [hfilter] at hall
      rw [hbucket, hfilter]
      refine cast (congrArg (Holds _) (List.filter_congr fun t _ => ?_)) hall
      simp

/-! ## What a step does -/

theorem put_nil (c : State) : c.put [] = c := by
  unfold State.put
  rw [List.append_nil]

theorem step_element {x : Option Stanza} (hs : step jid c (.element s x) = some c') :
    s ∈ c.opened ∧ ∃ os, c' = c.put os ∧ ∀ o ∈ os, ∃ y, o = .received y := by
  simp only [step] at hs
  split at hs
  · rename_i hopen
    cases hs
    refine ⟨hopen.1, ?_⟩
    cases x with
    | none =>
      refine ⟨[], ?_, fun o ho => absurd ho List.not_mem_nil⟩
      rw [Option.elim_none, ite_self, put_nil]
    | some x =>
      rw [Option.elim_some, State.handleElement]
      split_ifs
      · exact ⟨_, rfl, fun o ho => ⟨_, List.mem_singleton.mp ho⟩⟩
      · exact ⟨[], (put_nil c).symm, fun o ho => absurd ho List.not_mem_nil⟩
      · exact ⟨[], (put_nil c).symm, fun o ho => absurd ho List.not_mem_nil⟩
  · cases hs

theorem step_dataRead {data : List Char} (hs : step jid c (.dataRead s data) = some c') :
    s ∈ c.opened ∧ c' = c.put
      (if s.id ∈ c.connected ∧ State.closingTag <:+: data then [.unavailable s] else []) := by
  simp only [step] at hs
  split at hs
  · rename_i hopen
    cases hs
    refine ⟨hopen.1, ?_⟩
    unfold State.handleDataRead
    by_cases hcon : s.id ∈ c.connected
    · by_cases htag : State.closingTag <:+: data
      · rw [if_pos hcon, if_pos htag, if_pos ⟨hcon, htag⟩]
      · rw [if_pos hcon, if_neg htag, if_neg fun h => htag h.2, put_nil]
    · rw [if_neg hcon, if_neg fun h => hcon h.1, put_nil]
  · cases hs

theorem step_finished (hs : step jid c (.finished s) = some c') :
    s ∈ c.opened ∧ (s.id ∈ c.connected →
      c' = State.handleSessionFinished { c with ended := s.id :: c.ended } s) ∧
      (s.id ∉ c.connected → c' = { c with ended := s.id :: c.ended }) := by
  simp only [step] at hs
  split at hs
  · rename_i hopen
    cases hs
    exact ⟨hopen.1, fun hcon => if_pos hcon, fun hcon => if_neg hcon⟩
  · cases hs

/-- What is written is written to the sessions it is for. -/
theorem send_eq (jid : Jid) (h : Holds c l) (x : Stanza) (hto : x.toJid.isValid = true) :
    c.send jid x = some (c.put ((recipients l x.toJid).map (Output.write · (stamped jid x)))) := by
  have htoJid : (stamped jid x).toJid = x.toJid := by
    unfold stamped
    split <;> rfl
  have hfind := @Buckets.find?_eq _ _ _ _ _ l (keyOf x.toJid) (fun s => decide (s.jid = x.toJid))
    h.buckets fun s _ hs => congrArg keyOf (of_decide_eq_true hs)
  have hfilter := @Buckets.filter_eq _ _ _ _ _ l (keyOf x.toJid)
    (fun s => decide (s.jid.toBare = x.toJid.toBare)) h.buckets fun s _ hs =>
      congrArg Jid.toString (of_decide_eq_true hs)
  unfold State.send recipients
  rw [hto]
  simp only [Bool.not_true, Bool.false_eq_true, if_false, htoJid, hfind, hfilter]
  cases x.toJid.isBare with
  | true => rfl
  | false =>
    simp only [Bool.false_eq_true, if_false]
    cases l.find? fun s => decide (s.jid = x.toJid) <;> rfl

theorem step_send (h : Holds c l) (hs : step jid c (.send x) = some c') :
    c' = c.put ((recipients l x.toJid).map (Output.write · (stamped jid x))) := by
  by_cases hto : x.toJid.isValid = true
  · have heq := send_eq jid h x hto
    rw [← show step jid c (.send x) = c.send jid x from rfl, hs] at heq
    exact Option.some_inj.mp heq
  · have hnone : c.send jid x = none := by
      unfold State.send
      rw [Bool.not_eq_true _ |>.mp hto]
      rfl
    rw [step, hnone] at hs
    cases hs

/-- What `finishSession` says: that every session is finished. -/
theorem finishSessions_log (element : Option String) (last : Bool) (ss : List Stream) (c : State) :
    ∃ os, (State.finishSessions element last ss c).log = c.log ++ os ∧
      (State.finishSessions element last ss c).opened = c.opened ∧
      ∀ t, (.finish t ∈ os ↔ t ∈ finished last ss) ∧ (.unavailable t ∈ os → t ∈ finished last ss) := by
  induction ss generalizing c with
  | nil =>
    refine ⟨[], (List.append_nil _).symm, rfl, fun t => ⟨?_, fun h => absurd h List.not_mem_nil⟩⟩
    cases last <;> simp [finished]
  | cons s ss ih =>
    let os := (element.map (Output.writeElement s)).toList ++
      (if last && s.jid.isValid then [.unavailable s] else []) ++ [.finish s]
    have hfinish : ∀ t, .finish t ∈ os ↔ t = s := by
      intro t
      cases element <;> simp only [os] <;> split <;> simp
    have hunavailable : ∀ t, .unavailable t ∈ os → t = s := by
      intro t
      cases element <;> simp only [os] <;> split <;> simp
    unfold State.finishSessions
    cases last with
    | true =>
      exact ⟨os, rfl, rfl, fun t => ⟨by simp [finished, hfinish],
        fun h => by simp [finished, hunavailable t h]⟩⟩
    | false =>
      obtain ⟨rest, hlog, hopened, hrest⟩ := ih ((c.removeSession s).put os)
      refine ⟨os ++ rest, ?_, hopened, fun t => ⟨?_, fun h => ?_⟩⟩
      · rw [← List.append_assoc]
        exact hlog
      · rw [List.mem_append, hfinish, (hrest t).1]
        simp [finished]
      · rcases List.mem_append.mp h with h | h
        · simp [finished, hunavailable t h]
        · have := (hrest t).2 h
          simp only [finished, Bool.false_eq_true, if_false] at this ⊢
          exact List.mem_cons_of_mem _ this

theorem holds_step {e : Event} (h : Holds c (live es)) (ho : c.opened = opened es)
    (hs : step jid c e = some c') : Holds c' (live (e :: es)) ∧ c'.opened = opened (e :: es) := by
  cases e with
  | started jid =>
    cases hs
    have hnew := h.started jid
    rw [ho] at hnew
    refine ⟨hnew, ?_⟩
    rw [opened, ← ho]
    rfl
  | element s x =>
    obtain ⟨-, os, rfl, -⟩ := step_element hs
    exact ⟨h.put os, ho⟩
  | dataRead s data =>
    obtain ⟨-, rfl⟩ := step_dataRead hs
    exact ⟨h.put _, ho⟩
  | finished s =>
    obtain ⟨hopen, hyes, hno⟩ := step_finished hs
    have hended : Holds { c with ended := s.id :: c.ended } (live es) := h.of_same rfl rfl rfl
    by_cases hcon : s.id ∈ c.connected
    · rw [hyes hcon]
      exact ⟨(hended.removeSession hopen).put _, ho⟩
    · rw [hno hcon]
      refine ⟨cast (congrArg (Holds _) (List.filter_eq_self.mpr fun t ht => ?_).symm) hended, ho⟩
      refine decide_eq_true fun heq => hcon ((h.connected s hopen).mpr (heq ▸ ht))
  | send x =>
    rw [step_send h hs]
    exact ⟨h.put _, ho⟩
  | finishSession toJid element last =>
    cases hs
    obtain ⟨-, -, hopened, -⟩ := finishSessions_log element last (c.sessions.bucket (keyOf toJid)) c
    obtain ⟨hall, hlast⟩ := h.finishSession toJid element
    refine ⟨?_, hopened.trans ho⟩
    cases last with
    | false => exact hall
    | true => exact hlast

/-! ## Every run -/

variable {tr : List (State × Event)}

theorem holds_init (h : (machine jid).init c) : Holds c [] ∧ c.opened = [] ∧ c.log = [] := by
  cases h
  exact ⟨⟨buckets_nil _, fun _ h => absurd h List.not_mem_nil, fun _ h => absurd h List.not_mem_nil,
    fun _ h => absurd h List.not_mem_nil, fun _ h => absurd h List.not_mem_nil,
    fun _ h => absurd h List.not_mem_nil⟩, rfl, rfl⟩

theorem holds_of_run (h : (machine jid).Run tr c) :
    Holds c (live (tr.map Prod.snd)) ∧ c.opened = opened (tr.map Prod.snd) := by
  induction h with
  | init h0 => exact ⟨(holds_init h0).1, (holds_init h0).2.1⟩
  | step _ hs ih => exact holds_step ih.1 ih.2 hs

/-- After every history a stanza with a valid recipient is written, with the sender filled in, to the
first session that started with its full JID and is still there; without one, or for a bare JID, once
to every session with its bare JID that is still there, in the order in which they started. -/
theorem send_of_run (h : (machine jid).Run tr c) (x : Stanza) (hto : x.toJid.isValid = true) :
    step jid c (.send x) = some (c.put
      ((recipients (live (tr.map Prod.snd)) x.toJid).map (Output.write · (stamped jid x)))) :=
  send_eq jid (holds_of_run h).1 x hto

/-- A session sent the end of its stream. -/
def SentEnd (t : Stream) (es : List Event) : Prop :=
  ∃ data, .dataRead t data ∈ es ∧ State.closingTag <:+: data

/-- What was said about the sessions. -/
structure Told (log : List Output) (es : List Event) : Prop where
  known : ∀ t, .finish t ∈ log ∨ .unavailable t ∈ log ∨ SentEnd t es → t ∈ opened es
  gone : ∀ t ∈ opened es, t ∉ live es → .finish t ∈ log ∨ .unavailable t ∈ log
  there : ∀ t ∈ live es, .finish t ∉ log ∧ (.unavailable t ∈ log ↔ SentEnd t es)

theorem sentEnd_cons {e : Event} : SentEnd t (e :: es) ↔
    (∃ data, e = .dataRead t data ∧ State.closingTag <:+: data) ∨ SentEnd t es := by
  simp only [SentEnd, List.mem_cons, or_and_right, exists_or, eq_comm (b := e)]

/-- Nothing is said about a session. -/
def Silent (os : List Output) : Prop := ∀ t, .finish t ∉ os ∧ .unavailable t ∉ os

theorem Told.silent {log os : List Output} {e : Event} (ht : Told log es) (hos : Silent os)
    (ho : opened (e :: es) = opened es) (hl : live (e :: es) = live es)
    (he : ∀ t data, e ≠ .dataRead t data) : Told (log ++ os) (e :: es) := by
  have hend : ∀ t, SentEnd t (e :: es) ↔ SentEnd t es := fun t => by
    rw [sentEnd_cons, or_iff_right]
    rintro ⟨data, hdata, -⟩
    exact he t data hdata
  have hfinish : ∀ t, .finish t ∈ log ++ os ↔ .finish t ∈ log := fun t => by
    rw [List.mem_append, or_iff_left (hos t).1]
  have hunavailable : ∀ t, .unavailable t ∈ log ++ os ↔ .unavailable t ∈ log := fun t => by
    rw [List.mem_append, or_iff_left (hos t).2]
  constructor
  · intro t h
    rw [hfinish, hunavailable, hend] at h
    exact ho ▸ ht.known t h
  · intro t hopen hlive
    rw [hfinish, hunavailable]
    exact ht.gone t (ho ▸ hopen) (hl ▸ hlive)
  · intro t hlive
    rw [hfinish, hunavailable, hend]
    exact ht.there t (hl ▸ hlive)

theorem told_started {log : List Output} (ht : Told log es)
    (hnew : ⟨(opened es).length, jid⟩ ∉ opened es) : Told log (.started jid :: es) := by
  have hend : ∀ t, SentEnd t (.started jid :: es) ↔ SentEnd t es := fun t => by
    simp [sentEnd_cons]
  constructor
  · intro t h
    rw [hend] at h
    exact List.mem_append_left _ (ht.known t h)
  · intro t hopen hlive
    obtain ⟨hgone, hother⟩ := not_or.mp (mt List.mem_append.mpr hlive)
    exact ht.gone t ((List.mem_append.mp hopen).resolve_right hother) hgone
  · intro t hlive
    rw [hend]
    rcases List.mem_append.mp hlive with hold | hsame
    · exact ht.there t hold
    · obtain rfl := List.mem_singleton.mp hsame
      have hunknown := fun h => hnew (ht.known _ h)
      exact ⟨fun h => hunknown (.inl h),
        iff_of_false (fun h => hunknown (.inr (.inl h))) fun h => hunknown (.inr (.inr h))⟩

theorem told_dataRead {data : List Char} (h : Holds c (live es)) (ho : c.opened = opened es)
    (ht : Told c.log es) (hopen : s ∈ c.opened) :
    Told (c.log ++ if s.id ∈ c.connected ∧ State.closingTag <:+: data then [.unavailable s] else [])
      (.dataRead s data :: es) := by
  have hend : ∀ t, SentEnd t (.dataRead s data :: es) ↔
      (t = s ∧ State.closingTag <:+: data) ∨ SentEnd t es := fun t => by
    rw [sentEnd_cons]
    refine or_congr_left ⟨?_, fun h => ⟨data, by rw [h.1], h.2⟩⟩
    rintro ⟨d, hd, htag⟩
    cases hd
    exact ⟨rfl, htag⟩
  have hfinish : ∀ t, .finish t ∈ c.log ++
      (if s.id ∈ c.connected ∧ State.closingTag <:+: data then [.unavailable s] else []) ↔
        .finish t ∈ c.log := fun t => by
    split <;> simp
  have hunavailable : ∀ t, .unavailable t ∈ c.log ++
      (if s.id ∈ c.connected ∧ State.closingTag <:+: data then [.unavailable s] else []) ↔
        .unavailable t ∈ c.log ∨ t = s ∧ s.id ∈ c.connected ∧ State.closingTag <:+: data := fun t => by
    split <;> simp [*]
  constructor
  · intro t hknown
    rw [hfinish, hunavailable, hend] at hknown
    rcases hknown with hf | (hu | ⟨rfl, -⟩) | ⟨rfl, -⟩ | he
    · exact ht.known t (.inl hf)
    · exact ht.known t (.inr (.inl hu))
    · exact ho ▸ hopen
    · exact ho ▸ hopen
    · exact ht.known t (.inr (.inr he))
  · intro t hto hlive
    rw [hfinish, hunavailable]
    exact (ht.gone t hto hlive).imp id .inl
  · intro t hlive
    rw [hfinish, hunavailable, hend, (ht.there t hlive).2, or_comm]
    refine ⟨(ht.there t hlive).1, or_congr_left (and_congr_right ?_)⟩
    rintro rfl
    exact and_iff_right ((h.connected t hopen).mpr hlive)

theorem told_finished {log : List Output} (ht : Told log es) (hopen : s ∈ opened es) :
    Told (log ++ [.unavailable s]) (.finished s :: es) ∧
      (s ∉ live es → Told log (.finished s :: es)) := by
  have hend : ∀ t, SentEnd t (.finished s :: es) ↔ SentEnd t es := fun t => by
    simp [sentEnd_cons]
  have hlive : ∀ t, t ∈ live (.finished s :: es) ↔ t ∈ live es ∧ t ≠ s := fun t => by
    simp [live]
  have hfinish : ∀ t, .finish t ∈ log ++ [.unavailable s] ↔ .finish t ∈ log := fun t => by simp
  have hunavailable : ∀ t, .unavailable t ∈ log ++ [.unavailable s] ↔
      .unavailable t ∈ log ∨ t = s := fun t => by simp
  constructor
  · constructor
    · intro t hknown
      rw [hfinish, hunavailable, hend] at hknown
      rcases hknown with hf | (hu | rfl) | he
      · exact ht.known t (.inl hf)
      · exact ht.known t (.inr (.inl hu))
      · exact hopen
      · exact ht.known t (.inr (.inr he))
    · intro t hto hgone
      rw [hfinish, hunavailable]
      by_cases heq : t = s
      · exact .inr (.inr heq)
      · exact (ht.gone t hto fun hold => hgone ((hlive t).mpr ⟨hold, heq⟩)).imp id .inl
    · intro t hthere
      obtain ⟨hold, hne⟩ := (hlive t).mp hthere
      rw [hfinish, hunavailable, hend, or_iff_left hne]
      exact ht.there t hold
  · intro hgone
    constructor
    · intro t hknown
      rw [hend] at hknown
      exact ht.known t hknown
    · intro t hto hnot
      by_cases heq : t = s
      · exact ht.gone t hto (heq ▸ hgone)
      · exact ht.gone t hto fun hold => hnot ((hlive t).mpr ⟨hold, heq⟩)
    · intro t hthere
      rw [hend]
      exact ht.there t ((hlive t).mp hthere).1

theorem mem_live_finishSession (h : Holds c (live es)) (toJid : Jid) (element : Option String)
    (last : Bool) (t : Stream) : t ∈ live (.finishSession toJid element last :: es) ↔
      t ∈ live es ∧ t ∉ finished last (c.sessions.bucket (keyOf toJid)) := by
  rw [h.buckets]
  cases last with
  | false =>
    simp only [live, finished, Bool.false_eq_true, if_false, List.mem_filter, decide_eq_true_eq]
    exact ⟨fun h => ⟨h.1, fun hmem => h.2 hmem.2⟩, fun h => ⟨h.1, fun heq => h.2 ⟨h.1, heq⟩⟩⟩
  | true =>
    rw [finished, if_pos rfl, live, ← List.head?_filter]
    cases (live es).filter fun s => decide (keyOf s.jid = keyOf toJid) with
    | nil => simp
    | cons s ss => simp

theorem told_finishSession (h : Holds c (live es)) (ho : c.opened = opened es)
    (ht : Told c.log es) (toJid : Jid) (element : Option String) (last : Bool) :
    Told (c.finishSession toJid element last).log (.finishSession toJid element last :: es) := by
  obtain ⟨os, hlog, -, hos⟩ :=
    finishSessions_log element last (c.sessions.bucket (keyOf toJid)) c
  have hlive := mem_live_finishSession h toJid element last
  have hopened : ∀ t ∈ finished last (c.sessions.bucket (keyOf toJid)), t ∈ opened es := by
    intro t hfinished
    have hbucket : t ∈ c.sessions.bucket (keyOf toJid) := by
      unfold finished at hfinished
      split at hfinished
      · exact List.mem_of_mem_take hfinished
      · exact hfinished
    rw [h.buckets] at hbucket
    exact ho ▸ h.opened t (List.mem_filter.mp hbucket).1
  have hend : ∀ t, SentEnd t (.finishSession toJid element last :: es) ↔ SentEnd t es := fun t => by
    simp [sentEnd_cons]
  rw [State.finishSession, hlog]
  constructor
  · intro t hknown
    rw [List.mem_append, List.mem_append, hend] at hknown
    rcases hknown with (hf | hf) | (hu | hu) | he
    · exact ht.known t (.inl hf)
    · exact hopened t ((hos t).1.mp hf)
    · exact ht.known t (.inr (.inl hu))
    · exact hopened t ((hos t).2 hu)
    · exact ht.known t (.inr (.inr he))
  · intro t hto hgone
    rw [List.mem_append, List.mem_append]
    by_cases hold : t ∈ live es
    · have hf : t ∈ finished last (c.sessions.bucket (keyOf toJid)) := by
        by_contra hnot
        exact hgone ((hlive t).mpr ⟨hold, hnot⟩)
      exact .inl (.inr ((hos t).1.mpr hf))
    · exact (ht.gone t hto hold).imp .inl .inl
  · intro t hthere
    obtain ⟨hold, hnot⟩ := (hlive t).mp hthere
    rw [List.mem_append, List.mem_append, hend, or_iff_left (mt (hos t).1.mp hnot),
      or_iff_left (mt (hos t).2 hnot)]
    exact ht.there t hold

theorem told_step {e : Event} (h : Holds c (live es)) (ho : c.opened = opened es)
    (ht : Told c.log es) (hs : step jid c e = some c') : Told c'.log (e :: es) := by
  cases e with
  | started jid =>
    cases hs
    refine told_started ht fun hmem => ?_
    rw [← ho] at hmem
    exact (h.numbered _ hmem).ne rfl
  | element s x =>
    obtain ⟨-, os, rfl, hos⟩ := step_element hs
    refine ht.silent (fun t => ⟨fun hf => ?_, fun hu => ?_⟩) rfl rfl fun _ _ => Event.noConfusion
    · obtain ⟨y, hy⟩ := hos _ hf
      cases hy
    · obtain ⟨y, hy⟩ := hos _ hu
      cases hy
  | dataRead s data =>
    obtain ⟨hopen, rfl⟩ := step_dataRead hs
    exact told_dataRead h ho ht hopen
  | finished s =>
    obtain ⟨hopen, hyes, hno⟩ := step_finished hs
    obtain ⟨htold, hquiet⟩ := told_finished ht (ho ▸ hopen)
    by_cases hcon : s.id ∈ c.connected
    · rw [hyes hcon]
      exact htold
    · rw [hno hcon]
      exact hquiet fun hlive => hcon ((h.connected s hopen).mpr hlive)
  | send x =>
    rw [step_send h hs]
    exact ht.silent (fun t => ⟨by simp, by simp⟩) rfl rfl fun _ _ => Event.noConfusion
  | finishSession toJid element last =>
    cases hs
    exact told_finishSession h ho ht toJid element last

theorem told_of_run (h : (machine jid).Run tr c) : Told c.log (tr.map Prod.snd) := by
  induction h with
  | init h0 =>
    rw [(holds_init h0).2.2]
    refine ⟨fun t hknown => ?_, fun t hopen => absurd hopen List.not_mem_nil,
      fun t hlive => absurd hlive List.not_mem_nil⟩
    rcases hknown with hf | hu | ⟨_, hd, -⟩
    · exact absurd hf List.not_mem_nil
    · exact absurd hu List.not_mem_nil
    · exact absurd hd List.not_mem_nil
  | step hrun hs ih =>
    obtain ⟨hholds, hopened⟩ := holds_of_run hrun
    exact told_step hholds hopened ih hs

/-- A session that has left was finished by the transport, or the transport was told that it is
unavailable. About a session that is still there nothing of this was said, unless it sent the end of
its stream. -/
theorem departed_of_run (h : (machine jid).Run tr c) (t : Stream)
    (ht : t ∈ opened (tr.map Prod.snd)) :
    (t ∉ live (tr.map Prod.snd) → .finish t ∈ c.log ∨ .unavailable t ∈ c.log) ∧
    (t ∈ live (tr.map Prod.snd) →
      .finish t ∉ c.log ∧ (.unavailable t ∈ c.log ↔ SentEnd t (tr.map Prod.snd))) :=
  ⟨(told_of_run h).gone t ht, (told_of_run h).there t⟩

namespace Sample

def transport : Jid := ⟨"", "icq.capulet.lit", ""⟩

def balcony : Jid := ⟨"juliet", "capulet.lit", "balcony"⟩

def chamber : Jid := ⟨"juliet", "capulet.lit", "chamber"⟩

/-- Two sessions of a user, of which the transport finishes the first. -/
def left : List Event := [.started balcony, .started chamber, .finishSession balcony none true]

/-- A message without a sender to the session that has left. -/
def hello : Stanza := ⟨.message, Jid.empty, balcony, "hello"⟩

end Sample

theorem send_of_run_left : ∃ tr c, (machine Sample.transport).Run tr c ∧
    step Sample.transport c (.send Sample.hello) = some (c.put
      [.write ⟨1, Sample.chamber⟩ { Sample.hello with fromJid := Sample.transport }]) := by
  have hexec : ((machine Sample.transport).exec {} Sample.left).any (fun c => decide (
      c.connected = [1])) = true := by
    decide +kernel
  obtain ⟨c, hc, -⟩ := (Option.any_eq_true _ _).mp hexec
  obtain ⟨tr, hrun, htr⟩ := Machine.exists_run_of_exec rfl hc
  have hsend := send_of_run hrun Sample.hello rfl
  rw [htr] at hsend
  exact ⟨tr, c, hrun, hsend⟩

theorem departed_of_run_left : ∃ tr c, (machine Sample.transport).Run tr c ∧
    (.finish ⟨0, Sample.balcony⟩ ∈ c.log ∨ .unavailable ⟨0, Sample.balcony⟩ ∈ c.log) ∧
    .finish ⟨1, Sample.chamber⟩ ∉ c.log := by
  have hexec : ((machine Sample.transport).exec {} Sample.left).any (fun c => decide (
      c.connected = [1])) = true := by
    decide +kernel
  obtain ⟨c, hc, -⟩ := (Option.any_eq_true _ _).mp hexec
  obtain ⟨tr, hrun, htr⟩ := Machine.exists_run_of_exec rfl hc
  refine ⟨tr, c, hrun, (departed_of_run hrun ⟨0, Sample.balcony⟩ ?_).1 ?_,
    ((departed_of_run hrun ⟨1, Sample.chamber⟩ ?_).2 ?_).1⟩
  all_goals
    rw [htr]
    decide +kernel

end Channel

end Spectrum
