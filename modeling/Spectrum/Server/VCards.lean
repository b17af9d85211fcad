import Mathlib.Algebra.Group.Int.Defs
import Mathlib.Data.List.Nodup
import Spectrum.Lib.Machine
import Spectrum.Lib.SortedMap
import Spectrum.Model.Stanza
import Spectrum.Wire.Message

/-!
# VCardResponder

A request for a vCard is kept under a counter until a backend answers with the same number, or until
the timer finds it too old. The counter is incremented before the backend is asked, so an answer may
come while the request is still being handled. The requests that were accepted and the replies are
recorded; a request has a number of its own, which does not wrap around.
-/

namespace Spectrum.VCards

open Lib Wire

/-! ## Requests and answers -/

/-- `Swift::VCard`, as far as `handleVCardPayload` fills it in. -/
structure Card where
  fullName : Bytes := []
  nickname : Bytes := []
  photo : Bytes := []
  deriving DecidableEq, Repr

/-- `pbnetwork::VCard`. -/
structure Payload where
  id : Int
  fullname : Bytes := []
  nickname : Bytes := []
  photo : Bytes := []
  deriving DecidableEq, Repr

/-- The `int32` of the payload as an `unsigned int`. -/
def Payload.number (p : Payload) : Nat := (p.id % 2 ^ 32).toNat

/-- `VCardData`. -/
structure Request where
  fromJid : Jid
  toJid : Jid
  id : String
  received : Int
  deriving DecidableEq, Repr

structure Query extends Request where
  number : Nat
  deriving DecidableEq, Repr

structure Reply where
  number : Nat
  fromJid : Jid
  toJid : Jid
  id : String
  card : Card
  deriving DecidableEq, Repr

/-- The arguments of `onVCardRequired`. -/
structure Required where
  user : Jid
  name : String
  id : Nat
  deriving DecidableEq, Repr

/-- `m_id` and `m_queries`, and what has happened. -/
structure State where
  id : Nat := 0
  queries : SortedMap Nat Query := {}
  accepted : List Request := []
  required : List Required := []
  replies : List Reply := []

/-- `getUnescapedNode` of Swiften and `utf8::replace_invalid` with `_`. -/
structure Env where
  unescapedNode : String → String := id
  replaceInvalid : Bytes → Bytes := id

/-- A request as it arrives: the user that `getUser` finds, the names that `JIDToLegacyName` finds in
his roster, and the time. Some answers can come at once. -/
structure Get where
  fromJid : Jid
  toJid : Jid
  id : String
  user : Option Jid
  legacyName : Jid → String
  now : Int
  answers : List Payload := []

namespace State

variable (env : Env) (s : State)

/-- `VCardResponder::sendVCard`. -/
def sendVCard (id : Nat) (card : Card) : State :=
  match s.queries.get id with
  | none => s
  | some q =>
    { s with
      replies := s.replies ++ [⟨q.number, q.fromJid, q.toJid, q.id, card⟩]
      queries := s.queries.erase id }

/-- `VCardResponder::collectTimeouted`. -/
def collectTimeouted (now : Int) : State :=
  let candidates := (s.queries.entries.filter fun e => decide (now - e.2.received > 40)).map Prod.fst
  candidates.foldl (fun s id => s.sendVCard id {}) s

/-- `NetworkPluginServer::handleVCardPayload`. -/
def handleVCardPayload (p : Payload) : State :=
  s.sendVCard p.number
    { fullName := env.replaceInvalid p.fullname, nickname := env.replaceInvalid p.nickname,
      photo := p.photo }

/-- The name of the contact, or of the occupant of a room. -/
def requestedName (r : Get) (user : Jid) : String :=
  r.legacyName (if env.unescapedNode r.toJid.node = "" then user else r.toJid) ++
    if r.toJid.resource = "" then "" else "/" ++ r.toJid.resource

/-- The request gets the number `m_id`, and the backend is asked. -/
def accept (r : Get) (user : Jid) : State :=
  { s with
    id := (s.id + 1) % 2 ^ 32
    queries := s.queries.set s.id
      { fromJid := r.fromJid, toJid := r.toJid, id := r.id, received := r.now,
        number := s.accepted.length }
    accepted := s.accepted ++
      [{ fromJid := r.fromJid, toJid := r.toJid, id := r.id, received := r.now }]
    required := s.required ++ [⟨user, requestedName env r user, s.id⟩] }

/-- `VCardResponder::handleGetRequest`. -/
def handleGetRequest (r : Get) : State :=
  match r.user with
  | none => s
  | some user => r.answers.foldl (handleVCardPayload env) (s.accept env r user)

end State

inductive Event
  | get (r : Get)
  | answer (p : Payload)
  | tick (now : Int)

def step (env : Env) (s : State) : Event → Option State
  | .get r => some (s.handleGetRequest env r)
  | .answer p => some (s.handleVCardPayload env p)
  | .tick now => some (s.collectTimeouted now)

def machine (env : Env) : Machine State Event where
  init s := s = {}
  step := step env

/-! ## Matching -/

/-- The request has no reply yet. -/
def Outstanding (s : State) (i : Nat) : Prop :=
  i < s.accepted.length ∧ i ∉ s.replies.map Reply.number

/-- The reply goes to the sender of the request. -/
def Answers (r : Reply) (q : Request) : Prop :=
  r.fromJid = q.fromJid ∧ r.toJid = q.toJid ∧ r.id = q.id

/-- The queries are the requests without a reply. -/
structure Matched (s : State) : Prop where
  id : s.id = s.accepted.length % 2 ^ 32
  query : ∀ i q, s.queries.get i = some q →
    q.number = i ∧ s.accepted[i]? = some q.toRequest ∧ i ∉ s.replies.map Reply.number
  waiting : ∀ i, Outstanding s i → s.queries.get i ≠ none
  once : (s.replies.map Reply.number).Nodup
  reply : ∀ r ∈ s.replies, ∃ q, s.accepted[r.number]? = some q ∧ Answers r q
  asked : s.required.map Required.id = List.range s.accepted.length

section Matching

variable {env : Env} {s s' : State} {i : Nat} {card : Card}

theorem matched_empty : Matched {} where
  id := rfl
  query := nofun
  waiting i h := absurd h.1 (Nat.not_lt_zero i)
  once := List.nodup_nil
  reply := nofun
  asked := rfl

theorem Matched.query_of_outstanding (h : Matched s) (hi : Outstanding s i) :
    ∃ q, s.queries.get i = some q := Option.ne_none_iff_exists'.mp (h.waiting i hi)

theorem Matched.outstanding_of_query (h : Matched s) {q : Query} (hq : s.queries.get i = some q) :
    Outstanding s i := by
  obtain ⟨-, haccepted, hfree⟩ := h.query i q hq
  exact ⟨(List.getElem?_eq_some_iff.mp haccepted).1, hfree⟩

/-- An answer to nothing. -/
theorem sendVCard_of_none (h : s.queries.get i = none) : s.sendVCard i card = s := by
  rw [State.sendVCard, h]

theorem sendVCard_of_some {q : Query} (h : s.queries.get i = some q) :
    s.sendVCard i card =
      { s with
        replies := s.replies ++ [⟨q.number, q.fromJid, q.toJid, q.id, card⟩]
        queries := s.queries.erase i } := by
  rw [State.sendVCard, h]

theorem sendVCard_accepted : (s.sendVCard i card).accepted = s.accepted := by
  unfold State.sendVCard
  split <;> rfl

theorem sendVCard_get (k : Nat) :
    (s.sendVCard i card).queries.get k = if k = i then none else s.queries.get k := by
  cases hi : s.queries.get i with
  | none =>
    rw [sendVCard_of_none hi]
    split
    · rename_i hk
      rw [hk, hi]
    · rfl
  | some q =>
    rw [sendVCard_of_some hi]
    exact SortedMap.get_erase _ _ _

theorem Matched.sendVCard (h : Matched s) (i : Nat) (card : Card) :
    Matched (s.sendVCard i card) := by
  cases hi : s.queries.get i with
  | none =>
    rw [sendVCard_of_none hi]
    exact h
  | some q =>
    obtain ⟨hnumber, haccepted, hfree⟩ := h.query i q hi
    have hreplies : (s.replies ++ [(⟨q.number, q.fromJid, q.toJid, q.id, card⟩ : Reply)]).map
        Reply.number = s.replies.map Reply.number ++ [i] := by
      rw [List.map_append, ← hnumber]
      rfl
    rw [sendVCard_of_some hi]
    constructor
    · exact h.id
    · intro k q' hk
      rw [SortedMap.get_erase] at hk
      split at hk
      · cases hk
      · rename_i hne
        obtain ⟨hnumber', haccepted', hfree'⟩ := h.query k q' hk
        refine ⟨hnumber', haccepted', ?_⟩
        rw [hreplies, List.mem_append, List.mem_singleton]
        rintro (hmem | heq)
        · exact hfree' hmem
        · exact hne heq
    · intro k hk
      obtain ⟨hlt, hnot⟩ := hk
      rw [hreplies, List.mem_append, List.mem_singleton, not_or] at hnot
      rw [SortedMap.get_erase, if_neg hnot.2]
      exact h.waiting k ⟨hlt, hnot.1⟩
    · rw [hreplies]
      refine List.nodup_append.mpr ⟨h.once, List.nodup_singleton i, ?_⟩
      intro k hk k' hk' heq
      rw [List.mem_singleton.mp hk'] at heq
      exact hfree (heq ▸ hk)
    · intro r hr
      rcases List.mem_append.mp hr with hr | hr
      · exact h.reply r hr
      · rw [List.mem_singleton.mp hr, hnumber]
        exact ⟨q.toRequest, haccepted, rfl, rfl, rfl⟩
    · exact h.asked

/-- The request gets a number that no other one has, as long as the counter has not come round. -/
theorem Matched.accept (h : Matched s) (hfew : s.accepted.length < 2 ^ 32) (r : Get) (user : Jid) :
    Matched (s.accept env r user) := by
  have hid : s.id = s.accepted.length := by
    rw [h.id, Nat.mod_eq_of_lt hfew]
  have hnew : s.accepted.length ∉ s.replies.map Reply.number := by
    intro hmem
    obtain ⟨reply, hreply, heq⟩ := List.mem_map.mp hmem
    obtain ⟨q, hq, -⟩ := h.reply reply hreply
    have hlt := (List.getElem?_eq_some_iff.mp hq).1
    omega
  constructor
  · change (s.id + 1) % 2 ^ 32 = (s.accepted ++ _).length % 2 ^ 32
    rw [hid, List.length_append]
    rfl
  · intro i q hi
    have hi' : (s.queries.set s.id _).get i = some q := hi
    rw [SortedMap.get_set] at hi'
    split at hi'
    · rename_i heq
      cases hi'
      rw [hid] at heq
      rw [heq]
      exact ⟨rfl, List.getElem?_concat_length, hnew⟩
    · obtain ⟨hnumber, haccepted, hfree⟩ := h.query i q hi'
      have hlt := (List.getElem?_eq_some_iff.mp haccepted).1
      exact ⟨hnumber, (List.getElem?_append_left hlt).trans haccepted, hfree⟩
  · intro i hi
    obtain ⟨hlt, hfree⟩ := hi
    have hlt' : i < s.accepted.length + 1 := by
      simpa [State.accept] using hlt
    change (s.queries.set s.id _).get i ≠ none
    rw [SortedMap.get_set]
    split
    · nofun
    · rename_i hne
      rw [hid] at hne
      exact h.waiting i ⟨by omega, hfree⟩
  · exact h.once
  · intro reply hreply
    obtain ⟨q, hq, hanswers⟩ := h.reply reply hreply
    have hlt := (List.getElem?_eq_some_iff.mp hq).1
    exact ⟨q, (List.getElem?_append_left hlt).trans hq, hanswers⟩
  · change (s.required ++ [_]).map Required.id = List.range (s.accepted ++ [_]).length
    rw [List.map_append, h.asked, List.length_append, List.length_singleton, List.range_succ, ← hid]
    rfl

/-- The answers that come at once. -/
theorem handleGetRequest_eq {r : Get} {user : Jid} (h : r.user = some user) :
    s.handleGetRequest env r = (r.answers.map fun p => (p.number,
      ({ fullName := env.replaceInvalid p.fullname, nickname := env.replaceInvalid p.nickname,
         photo := p.photo } : Card))).foldl (fun s e => s.sendVCard e.1 e.2)
      (s.accept env r user) := by
  rw [State.handleGetRequest, h, List.foldl_map]
  rfl

/-- The empty vCards for the requests that are too old. -/
theorem collectTimeouted_eq (s : State) (now : Int) :
    s.collectTimeouted now = (((s.queries.entries.filter fun e =>
      decide (now - e.2.received > 40)).map Prod.fst).map fun id => (id, ({} : Card))).foldl
      (fun s e => s.sendVCard e.1 e.2) s := by
  rw [List.foldl_map]
  rfl

theorem Matched.sends (h : Matched s) (l : List (Nat × Card)) :
    Matched (l.foldl (fun s e => s.sendVCard e.1 e.2) s) := by
  induction l generalizing s with
  | nil => exact h
  | cons e l ih => exact ih (h.sendVCard e.1 e.2)

theorem sends_accepted (l : List (Nat × Card)) (s : State) :
    (l.foldl (fun s e => s.sendVCard e.1 e.2) s).accepted = s.accepted := by
  induction l generalizing s with
  | nil => rfl
  | cons e l ih => exact (ih _).trans sendVCard_accepted

theorem sends_get (l : List (Nat × Card)) (s : State) (k : Nat) :
    (l.foldl (fun s e => s.sendVCard e.1 e.2) s).queries.get k =
      if k ∈ l.map Prod.fst then none else s.queries.get k := by
  induction l generalizing s with
  | nil => rfl
  | cons e l ih =>
    rw [List.foldl_cons, ih, sendVCard_get, List.map_cons]
    by_cases hk : k = e.1
    · rw [if_pos hk, ite_self, if_pos (List.mem_cons.mpr (Or.inl hk))]
    · rw [if_neg hk]
      simp only [List.mem_cons, hk, false_or]

end Matching

/-! ## Runs -/

section Runs

variable {env : Env} {s s' : State} {e : Event}

theorem accepted_length_le (hs : step env s e = some s') :
    s.accepted.length ≤ s'.accepted.length := by
  cases e with
  | get r =>
    cases hs
    cases huser : r.user with
    | none => simp only [State.handleGetRequest, huser, le_refl]
    | some user =>
      rw [handleGetRequest_eq huser, sends_accepted, State.accept, List.length_append]
      exact Nat.le_add_right _ _
  | answer p =>
    cases hs
    rw [State.handleVCardPayload, sendVCard_accepted]
  | tick now =>
    cases hs
    rw [collectTimeouted_eq, sends_accepted]

theorem Matched.step (h : Matched s) (hfew : s.accepted.length < 2 ^ 32)
    (hs : step env s e = some s') : Matched s' := by
  cases e with
  | get r =>
    cases hs
    cases huser : r.user with
    | none =>
      rw [State.handleGetRequest, huser]
      exact h
    | some user =>
      rw [handleGetRequest_eq huser]
      exact (h.accept hfew r user).sends _
  | answer p =>
    cases hs
    exact h.sendVCard _ _
  | tick now =>
    cases hs
    rw [collectTimeouted_eq]
    exact h.sends _

theorem matched_of_run {tr : List (State × Event)} (h : (machine env).Run tr s) :
    s.accepted.length < 2 ^ 32 → Matched s := by
  refine Machine.Run.invariant (I := fun s => s.accepted.length < 2 ^ 32 → Matched s)
    (fun s hinit _ => ?_) (fun s e s' hs ih hfew => ?_) h
  · rw [hinit]
    exact matched_empty
  · have hfew' := Nat.lt_of_le_of_lt (accepted_length_le hs) hfew
    exact (ih hfew').step hfew' hs

/-- A request that is too old is answered. -/
theorem not_outstanding_collectTimeouted (h : Matched s) {now : Int} {i : Nat} {q : Request}
    (hq : s.accepted[i]? = some q) (hold : now - q.received > 40) :
    ¬ Outstanding (s.collectTimeouted now) i := by
  intro houtstanding
  have hmatched : Matched (s.collectTimeouted now) := by
    rw [collectTimeouted_eq]
    exact h.sends _
  obtain ⟨query, hget⟩ := hmatched.query_of_outstanding houtstanding
  rw [collectTimeouted_eq, sends_get] at hget
  split at hget
  · cases hget
  · rename_i hkept
    obtain ⟨-, haccepted, -⟩ := h.query i query hget
    rw [hq] at haccepted
    cases haccepted
    refine hkept ?_
    simp only [List.map_map, List.mem_map, List.mem_filter]
    exact ⟨(i, query), ⟨SortedMap.mem_entries_iff.mpr hget, decide_eq_true hold⟩, rfl⟩

/-- In every run with fewer than 2³² requests a request is answered at most once and with its own
addresses and id, the backend is asked with the number under which its answer is looked up, an answer
to a number that is not outstanding sends nothing, and a tick ends the requests that are too old. -/
theorem replies_of_run {tr : List (State × Event)} (h : (machine env).Run tr s)
    (hfew : s.accepted.length < 2 ^ 32) :
    (s.replies.map Reply.number).Nodup ∧
    (∀ r ∈ s.replies, ∃ q, s.accepted[r.number]? = some q ∧ r.fromJid = q.fromJid ∧
      r.toJid = q.toJid ∧ r.id = q.id) ∧
    s.required.map Required.id = List.range s.accepted.length ∧
    (∀ p : Payload, (¬ Outstanding s p.number → s.handleVCardPayload env p = s) ∧
      (Outstanding s p.number → ∃ r, (s.handleVCardPayload env p).replies = s.replies ++ [r] ∧
        r.number = p.number)) ∧
    ∀ now i q, s.accepted[i]? = some q → now - q.received > 40 →
      ¬ Outstanding (s.collectTimeouted now) i := by
  have hmatched := matched_of_run h hfew
  refine ⟨hmatched.once, hmatched.reply, hmatched.asked, fun p => ⟨fun hnot => ?_, fun hout => ?_⟩,
    fun now i q => not_outstanding_collectTimeouted hmatched⟩
  · refine sendVCard_of_none (Option.eq_none_iff_forall_ne_some.mpr fun q hq => hnot ?_)
    exact hmatched.outstanding_of_query hq
  · obtain ⟨q, hq⟩ := hmatched.query_of_outstanding hout
    rw [State.handleVCardPayload, sendVCard_of_some hq]
    exact ⟨_, rfl, (hmatched.query _ q hq).1⟩

end Runs

namespace Sample

def romeo : Jid := ⟨"romeo", "localhost", "home"⟩

def bob : Jid := ⟨"bob", "icq.localhost", ""⟩

def asks (id : String) (now : Int) (answers : List Payload) : Event :=
  .get { fromJid := romeo, toJid := bob, id, user := some romeo.toBare,
         legacyName := Jid.node, now, answers }

/-- A request that is answered at once, one that is answered twice, one that is too old. -/
def events : List Event :=
  [asks "a" 100 [{ id := 0 }], asks "b" 101 [], asks "c" 102 [], .answer { id := 1 },
   .answer { id := 1 }, .answer { id := 7 }, .tick 150]

end Sample

theorem replies_of_run_romeo : ∃ tr s, (machine {}).Run tr s ∧
    s.replies.map (fun r => (r.number, r.id)) = [(0, "a"), (1, "b"), (2, "c")] ∧
    (s.replies.map Reply.number).Nodup := by
  have hexec : ((machine {}).exec {} Sample.events).any (fun s => decide (
      s.accepted.length < 2 ^ 32 ∧
      s.replies.map (fun r => (r.number, r.id)) = [(0, "a"), (1, "b"), (2, "c")])) = true := by
    decide +kernel
  obtain ⟨s, hs, hfacts⟩ := (Option.any_eq_true _ _).mp hexec
  obtain ⟨hfew, hreplies⟩ := of_decide_eq_true hfacts
  obtain ⟨tr, hrun, -⟩ := Machine.exists_run_of_exec rfl hs
  exact ⟨tr, s, hrun, hreplies, (replies_of_run hrun hfew).1⟩

end Spectrum.VCards
