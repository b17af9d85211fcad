import Mathlib.Data.List.Induction
import Spectrum.Account.Keys

/-!
# Cached messages as objects

`Conversation::cacheMessage` keeps pointers to messages and changes the messages behind them, as
`sendCachedMessages` does. Here a message object has a number, `heap` holds the objects, and the cache
is a list of numbers. The cache is a bounded queue: the last hundred of the messages since it was sent.
`view` gives the conversation of the model, whose cache holds the messages themselves.
-/

namespace Spectrum.Account

open Lib

/-- The members of a conversation that the two methods use, with the message objects. -/
structure Shared where
  heap : Nat → Message
  cached : List Nat
  subject : Option Nat
  jid : Jid

namespace Shared

/-- A conversation that has cached nothing yet. -/
def start (heap : Nat → Message) (subject : Option Nat) (jid : Jid) : Shared where
  heap := heap
  cached := []
  subject := subject
  jid := jid

/-- Change the object of a pointer. -/
def modify (r : Nat) (f : Message → Message) (s : Shared) : Shared :=
  { s with heap := Function.update s.heap r (f (s.heap r)) }

def cacheMessage (r : Nat) (s : Shared) : Shared :=
  let s := s.modify r (Message.addPayload (.delay none))
  let cached := s.cached ++ [r]
  { s with cached := if 100 < cached.length then cached.tail else cached }

/-- The objects are addressed and sent one after the other, each as it is then. -/
def sendAll (target : Jid) : List Nat → Shared → Shared × List Message
  | [], s => (s, [])
  | r :: rs, s =>
    let s := s.modify r (Message.setTo target)
    let rest := sendAll target rs s
    (rest.1, s.heap r :: rest.2)

/-- An absent JID stands for the invalid one. -/
def sendCachedMessages (toJid : Option Jid) (s : Shared) : Shared × List Message :=
  let target := toJid.getD s.jid.toBare
  let sent := sendAll target s.cached s
  let subject := sendAll target s.subject.toList sent.1
  ({ subject.1 with cached := [] }, sent.2 ++ subject.2)

inductive Call
  | cacheMessage (r : Nat)
  | sendCachedMessages (toJid : Option Jid)

def Call.run (s : Shared) : Call → Shared
  | .cacheMessage r => s.cacheMessage r
  | .sendCachedMessages toJid => (s.sendCachedMessages toJid).1

def runAll (calls : List Call) (s : Shared) : Shared := calls.foldl Call.run s

/-! ## What should be in the cache -/

/-- The messages that have been cached since the last flush. -/
def since (calls : List Call) : List Nat :=
  calls.foldl (fun rs call => match call with
    | .cacheMessage r => rs ++ [r]
    | .sendCachedMessages _ => []) []

/-- The last `n` of a list, or all if there are fewer. -/
def lastOf {α : Type} (n : Nat) (l : List α) : List α := l.drop (l.length - n)

/-- A message without its receiver and without the delays that caching adds. -/
def original (m : Message) : Message :=
  m.mapHead fun h =>
    { h with toJid := Jid.empty, payloads := h.payloads.filter fun p => p ≠ .delay none }

/-- A bounded queue keeps the last elements. -/
theorem lastOf_concat {α : Type} (n : Nat) (l : List α) (a : α) :
    (if n < (lastOf n l ++ [a]).length then (lastOf n l ++ [a]).tail else lastOf n l ++ [a]) =
      lastOf n (l ++ [a]) := by
  have hlength : (lastOf n l ++ [a]).length = l.length - (l.length - n) + 1 := by
    rw [lastOf, List.length_append, List.length_drop, List.length_singleton]
  have hkeep : lastOf n l ++ [a] = (l ++ [a]).drop (l.length - n) := by
    rw [lastOf, List.drop_append_of_le_length (Nat.sub_le _ _)]
  rw [hlength]
  split
  · rw [hkeep, List.tail_drop, lastOf, List.length_append, List.length_singleton]
    congr 1
    omega
  · rw [hkeep, lastOf, List.length_append, List.length_singleton]
    congr 1
    omega

section Objects

variable {s : Shared} {m : Message}

@[simp]
theorem setTo_setTo (j : Jid) (m : Message) : (m.setTo j).setTo j = m.setTo j := by
  cases m with
  | plain h => rfl
  | wrapped w h stanza => rfl

theorem original_setTo (j : Jid) (m : Message) : original (m.setTo j) = original m := by
  cases m with
  | plain h => rfl
  | wrapped w h stanza => rfl

theorem original_addPayload (m : Message) :
    original (m.addPayload (.delay none)) = original m := by
  have hfilter : ∀ ps : List Payload, (ps ++ [Payload.delay none]).filter (fun p => p ≠ .delay none) =
      ps.filter fun p => p ≠ .delay none := by
    intro ps
    rw [List.filter_append]
    exact List.append_nil _
  cases m with
  | plain h => simp only [original, Message.addPayload, Message.mapHead, hfilter]
  | wrapped w h stanza => simp only [original, Message.addPayload, Message.mapHead, hfilter]

theorem heap_modify (r : Nat) (f : Message → Message) (s : Shared) (i : Nat) :
    (s.modify r f).heap i = if i = r then f (s.heap r) else s.heap i :=
  Function.update_apply _ _ _ _

theorem original_modify {f : Message → Message} (hf : ∀ m, original (f m) = original m) (r : Nat)
    (s : Shared) (i : Nat) : original ((s.modify r f).heap i) = original (s.heap i) := by
  rw [heap_modify]
  split
  · rename_i h
    rw [hf, h]
  · rfl

/-- What the loop of `sendCachedMessages` leaves: the objects have the receiver. -/
theorem sendAll_eq (target : Jid) (rs : List Nat) (s : Shared) :
    sendAll target rs s =
      ({ s with heap := fun i => if i ∈ rs then (s.heap i).setTo target else s.heap i },
        rs.map fun r => (s.heap r).setTo target) := by
  induction rs generalizing s with
  | nil => simp [sendAll]
  | cons r rs ih =>
    have hsame : ∀ i, ((s.modify r (Message.setTo target)).heap i).setTo target =
        (s.heap i).setTo target := by
      intro i
      rw [heap_modify]
      split
      · rename_i h
        rw [setTo_setTo, h]
      · rfl
    have hheap : ∀ i, (if i ∈ rs then (s.heap i).setTo target
        else (s.modify r (Message.setTo target)).heap i) =
          if i ∈ r :: rs then (s.heap i).setTo target else s.heap i := by
      intro i
      rw [heap_modify]
      by_cases hi : i ∈ rs
      · rw [if_pos hi, if_pos (List.mem_cons_of_mem r hi)]
      · by_cases hr : i = r
        · rw [if_neg hi, if_pos hr, hr, if_pos List.mem_cons_self]
        · rw [if_neg hi, if_neg hr, if_neg fun h => (List.mem_cons.mp h).elim hr hi]
    have hfirst : (s.modify r (Message.setTo target)).heap r = (s.heap r).setTo target := by
      rw [heap_modify, if_pos rfl]
    rw [sendAll, ih]
    simp only [hsame, hheap, hfirst, List.map_cons]
    rfl

/-- The messages that a flush sends, and what it leaves. -/
theorem sendCachedMessages_eq (toJid : Option Jid) (s : Shared) :
    s.sendCachedMessages toJid =
      ({ s with
          heap := fun i => if i ∈ s.cached ++ s.subject.toList then
            (s.heap i).setTo (toJid.getD s.jid.toBare) else s.heap i
          cached := [] },
        (s.cached ++ s.subject.toList).map fun r => (s.heap r).setTo (toJid.getD s.jid.toBare)) := by
  have htwice : ∀ i, (if i ∈ s.cached then (s.heap i).setTo (toJid.getD s.jid.toBare)
      else s.heap i).setTo (toJid.getD s.jid.toBare) = (s.heap i).setTo (toJid.getD s.jid.toBare) := by
    intro i
    split
    · exact setTo_setTo _ _
    · rfl
  have hheap : ∀ i, (if i ∈ s.subject.toList then (s.heap i).setTo (toJid.getD s.jid.toBare)
      else if i ∈ s.cached then (s.heap i).setTo (toJid.getD s.jid.toBare) else s.heap i) =
        if i ∈ s.cached ++ s.subject.toList then (s.heap i).setTo (toJid.getD s.jid.toBare)
        else s.heap i := by
    intro i
    simp only [List.mem_append]
    by_cases hcached : i ∈ s.cached <;> by_cases hsubject : i ∈ s.subject.toList <;>
      simp only [hcached, hsubject, true_or, or_true, or_self, if_true, if_false]
  rw [sendCachedMessages]
  simp only [sendAll_eq, htwice, hheap, List.map_append]

theorem original_sendCachedMessages (toJid : Option Jid) (s : Shared) (i : Nat) :
    original ((s.sendCachedMessages toJid).1.heap i) = original (s.heap i) := by
  rw [sendCachedMessages_eq]
  dsimp only
  split
  · exact original_setTo _ _
  · rfl

end Objects

/-- What the calls keep. -/
theorem runAll_eq (heap : Nat → Message) (subject : Option Nat) (jid : Jid) (calls : List Call) :
    (runAll calls (start heap subject jid)).cached = lastOf 100 (since calls) ∧
      (runAll calls (start heap subject jid)).subject = subject ∧
      (runAll calls (start heap subject jid)).jid = jid ∧
      ∀ r, original ((runAll calls (start heap subject jid)).heap r) = original (heap r) := by
  induction calls using List.reverseRecOn with
  | nil => exact ⟨rfl, rfl, rfl, fun _ => rfl⟩
  | append_singleton calls call ih =>
    obtain ⟨hcached, hsubject, hjid, hheap⟩ := ih
    have hrun : runAll (calls ++ [call]) (start heap subject jid) =
        Call.run (runAll calls (start heap subject jid)) call := by
      rw [runAll, List.foldl_append]
      rfl
    rw [hrun]
    generalize runAll calls (start heap subject jid) = s at hcached hsubject hjid hheap
    cases call with
    | cacheMessage r =>
      have hsince : since (calls ++ [.cacheMessage r]) = since calls ++ [r] := by
        rw [since, List.foldl_append]
        rfl
      refine ⟨?_, hsubject, hjid, fun i => ?_⟩
      · rw [hsince, ← lastOf_concat, ← hcached]
        rfl
      · exact (original_modify original_addPayload r s i).trans (hheap i)
    | sendCachedMessages toJid =>
      have hsince : since (calls ++ [.sendCachedMessages toJid]) = [] := by
        rw [since, List.foldl_append]
        rfl
      have hsent := sendCachedMessages_eq toJid s
      refine ⟨?_, ?_, ?_, fun i => (original_sendCachedMessages toJid s i).trans (hheap i)⟩
      · rw [hsince, Call.run, hsent]
        rfl
      · rw [Call.run, hsent]
        exact hsubject
      · rw [Call.run, hsent]
        exact hjid

/-- After any calls the cache holds the last hundred messages since the last flush, and a flush sends
these and then the subject. -/
theorem sendCachedMessages_runAll (heap : Nat → Message) (subject : Option Nat) (jid : Jid)
    (calls : List Call) (toJid : Option Jid) :
    (runAll calls (start heap subject jid)).cached = lastOf 100 (since calls) ∧
    ((runAll calls (start heap subject jid)).sendCachedMessages toJid).2 =
      (lastOf 100 (since calls) ++ subject.toList).map (fun r =>
        ((runAll calls (start heap subject jid)).heap r).setTo (toJid.getD jid.toBare)) ∧
    ((runAll calls (start heap subject jid)).sendCachedMessages toJid).1.cached = [] ∧
    ∀ r, original ((runAll calls (start heap subject jid)).heap r) = original (heap r) := by
  obtain ⟨hcached, hsubject, hjid, hheap⟩ := runAll_eq heap subject jid calls
  refine ⟨hcached, ?_, ?_, hheap⟩
  · rw [sendCachedMessages_eq, hcached, hsubject, hjid]
  · rw [sendCachedMessages_eq]

/-! ## The conversation -/

/-- The conversation with the messages in place of their numbers. -/
def view (s : Shared) (c : Conversation) : Conversation :=
  { c with jid := s.jid, cachedMessages := s.cached.map s.heap, subject := s.subject.map s.heap }

/-- A new message object is cached as the model caches the message. -/
theorem view_cacheMessage (s : Shared) (c : Conversation) {r : Nat} (hcached : r ∉ s.cached)
    (hsubject : s.subject ≠ some r) :
    (s.cacheMessage r).view c = (s.view c).cacheMessage (s.heap r) := by
  have hold : ∀ i, i ≠ r → (s.modify r (Message.addPayload (.delay none))).heap i = s.heap i := by
    intro i h
    rw [heap_modify, if_neg h]
  have hmap : (s.cached ++ [r]).map (s.modify r (Message.addPayload (.delay none))).heap =
      s.cached.map s.heap ++ [(s.heap r).addPayload (.delay none)] := by
    rw [List.map_append, List.map_singleton, heap_modify, if_pos rfl]
    refine congrArg (· ++ _) (List.map_congr_left fun i hi => hold i ?_)
    rintro rfl
    exact hcached hi
  have hmapSubject : s.subject.map (s.modify r (Message.addPayload (.delay none))).heap =
      s.subject.map s.heap := by
    refine Option.map_congr fun i hi => hold i ?_
    rintro rfl
    exact hsubject hi
  have hcache : (if 100 < (s.cached ++ [r]).length then (s.cached ++ [r]).tail else s.cached ++ [r]).map
        (s.modify r (Message.addPayload (.delay none))).heap =
      ((s.view c).cacheMessage (s.heap r)).cachedMessages := by
    rw [apply_ite (List.map _), List.map_tail, hmap]
    simp only [Conversation.cacheMessage, view, List.length_append, List.length_map,
      List.length_singleton]
  have hview : (s.cacheMessage r).view c =
      { s.view c with
        cachedMessages := ((s.view c).cacheMessage (s.heap r)).cachedMessages
        subject := s.subject.map s.heap } := by
    rw [← hcache, ← hmapSubject]
    rfl
  rw [hview]
  rfl

theorem view_sendCachedMessages (x : Context) (s : Shared) (c : Conversation) (toJid : Option Jid) :
    (s.view c).sendCachedMessages x toJid =
      ((s.sendCachedMessages toJid).1.view c, (s.sendCachedMessages toJid).2.map x.sendMessage) := by
  rw [sendCachedMessages_eq, Conversation.sendCachedMessages]
  refine Prod.ext ?_ ?_
  · simp only [view]
    cases s.subject with
    | none => rfl
    | some r => simp
  · simp only [view]
    cases s.subject with
    | none => simp
    | some r => simp

end Shared

/-! ## A room with a subject -/

namespace Sample

/-- An occupant who stays connected without a client. -/
def guest : Account :=
  start { occupant.toContext with env := { user := ⟨"bob", "example.org", ""⟩, stayConnected := true } }
    fun _ => false

end Sample

/-- A room whose subject is known sends it behind the cached message. -/
theorem sendCachedMessages_subject : ∃ tr a c, machine.Run tr a ∧ ("#room", c) ∈ a.convs ∧
    c.cachedMessages.length = 1 ∧ (c.sendCachedMessages a.toContext none).2.length = 2 := by
  have hexec : ∃ a c, machine.exec Sample.guest
      [.connected, .presence (Sample.roomPresence .available),
        .convMessage { buddyname := "#room", message := "topic" } true,
        .presence (Sample.roomPresence .unavailable),
        .convMessage { buddyname := "#room", message := "hi", nickname := "carol" } false] = some a ∧
      a.convs = [("#room", c)] ∧ c.cachedMessages.length = 1 ∧
        (c.sendCachedMessages a.toContext none).2.length = 2 :=
    ⟨_, _, by rfl, by rfl, by rfl, by rfl⟩
  obtain ⟨a, c, ha, hconvs, hcached, hsent⟩ := hexec
  have hinit : machine.init Sample.guest := ⟨_, _, rfl⟩
  obtain ⟨tr, hrun, -⟩ := Machine.exists_run_of_exec hinit ha
  refine ⟨tr, a, c, hrun, ?_, hcached, hsent⟩
  rw [hconvs]
  exact List.mem_cons_self

end Spectrum.Account
