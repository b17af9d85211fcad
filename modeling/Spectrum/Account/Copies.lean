import Mathlib.Data.List.Perm.Subperm
import Spectrum.Account.Conversation
import Spectrum.Transport.Presences

/-!
# One copy for every session

In server mode an incoming message goes to one resource and the others get a carbon of it. The
conversation decides whom the message is delivered to, and copies it to everybody else; the
stanza channel decides again where the message goes, and sends a message for a bare JID, or for
a full JID without a session, to all sessions. The two agree when the conversation is bound to
the JID of a session, or when there is only one session.
-/

namespace Spectrum.Account

open Spectrum.Oracle

/-- The messages that a session gets. -/
def stanzasFor (j : Jid) (outs : List Output) : List Message :=
  outs.flatMap fun o =>
    match o with
    | .message m sessions => (sessions.filter fun i => i = j).map fun _ => m
    | _ => []

/-- The sessions of the user are online, each with its available presence in the oracle. -/
structure SessionsOnline (x : Context) (bareJid : Jid) : Prop where
  nodup : x.sessions.Nodup
  full : ∀ j ∈ x.sessions, j.isBare = false ∧ j.toBare = bareJid
  perm : ((x.oracle.getAllPresence bareJid).map Presence.fromJid).Perm x.sessions
  available : ∀ p ∈ x.oracle.getAllPresence bareJid, p.type = .available

/-- Every session gets one stanza for the message `m`: the message itself or a carbon of it. -/
def OneCopyEach (x : Context) (m : Message) (nickname : String) (c : Conversation) : Prop :=
  ∀ j ∈ x.sessions, ∃ s, stanzasFor j (c.handleMessage x m nickname false).2 = [s] ∧
    (s = c.address x nickname m ∨
      s = Conversation.carbon .received (c.address x nickname m) c j)

theorem stanzasFor_cons (j : Jid) (m : Message) (sessions : List Jid) (outs : List Output) :
    stanzasFor j (.message m sessions :: outs) =
      (sessions.filter fun i => i = j).map (fun _ => m) ++ stanzasFor j outs := rfl

/-! ## Raw messages -/

section Raw

variable {x : Context} {c : Conversation}

theorem handleRawMessages_cached (hmode : x.env.serverMode = true) (hcache : x.cacheMessages = true)
    {ms : List Message} (hms : ∀ m ∈ ms, m.head.type ≠ .groupchat) :
    (c.handleRawMessages x ms).2 = [] := by
  induction ms generalizing c with
  | nil => rfl
  | cons m ms ih =>
    have hm := hms m List.mem_cons_self
    have hrest := ih (c := c.cacheMessage m) fun m' h => hms m' (List.mem_cons_of_mem m h)
    simp only [Conversation.handleRawMessages, Conversation.handleRawMessage, hmode, hcache,
      ne_eq, hm, not_false_eq_true, if_true, Bool.and_self, List.nil_append]
    exact hrest

theorem handleRawMessages_sent (hcache : x.cacheMessages = false) {ms : List Message}
    (hms : ∀ m ∈ ms, m.head.type ≠ .groupchat) :
    c.handleRawMessages x ms = (c, ms.map x.sendMessage) := by
  induction ms with
  | nil => rfl
  | cons m ms ih =>
    have hm := hms m List.mem_cons_self
    have hrest := ih fun m' h => hms m' (List.mem_cons_of_mem m h)
    have hone : c.handleRawMessage x m = (c, [x.sendMessage m]) := by
      simp [Conversation.handleRawMessage, hm, hcache]
    simp [Conversation.handleRawMessages, hone, hrest]

/-- In a conversation that is no room every message is a chat message or a headline. -/
theorem address_type (hmuc : c.muc = false) (nickname : String) (m : Message) :
    (c.address x nickname m).head.type ≠ .groupchat := by
  have htype : c.messageType x.env m.head.type ≠ .groupchat := by
    simp only [Conversation.messageType, hmuc, Bool.false_eq_true, if_false]
    split <;> simp
  simp [Conversation.address, Message.setType, Message.setTo, Message.setFrom, htype]

theorem address_to (hmuc : c.muc = false) (nickname : String) (m : Message) :
    (c.address x nickname m).head.toJid = c.jid := by
  have htype : c.messageType x.env m.head.type ≠ .groupchat := by
    simp only [Conversation.messageType, hmuc, Bool.false_eq_true, if_false]
    split <;> simp
  simp [Conversation.address, Message.setType, Message.setTo, Message.setFrom, htype]

end Raw

/-! ## Where the stanzas go -/

section Delivery

variable {x : Context} {c : Conversation} {j : Jid}

theorem route_session {sessions : List Jid} (hj : j ∈ sessions) (hfull : j.isBare = false) :
    route sessions j = [j] := by
  have hfind : (sessions.find? fun i => i = j) = some j := by
    cases h : sessions.find? fun i => i = j with
    | none => exact absurd (List.find?_eq_none.mp h j hj) (by simp)
    | some i =>
      have hi := List.find?_some h
      rw [of_decide_eq_true hi]
  simp [route, hfull, hfind]

/-- A message for a JID that is not the one of a session goes to all sessions. -/
theorem route_all {sessions : List Jid} (hall : ∀ i ∈ sessions, i.toBare = j.toBare)
    (hj : j.isBare = true ∨ j ∉ sessions) : route sessions j = sessions := by
  have hfilter : (sessions.filter fun i => decide (i.toBare = j.toBare)) = sessions := by
    rw [List.filter_eq_self]
    intro i hi
    exact decide_eq_true (hall i hi)
  unfold route
  rw [hfilter]
  split
  · rfl
  · rename_i hbare
    have hnot := hj.resolve_left hbare
    have hfind : (sessions.find? fun i => i = j) = none := by
      rw [List.find?_eq_none]
      rintro i hi
      have hne : i ≠ j := fun heq => hnot (heq ▸ hi)
      simpa using hne
    rw [hfind]

theorem filter_eq_of_nodup {sessions : List Jid} (hnodup : sessions.Nodup) :
    (sessions.filter fun i => i = j) = if j ∈ sessions then [j] else [] := by
  induction sessions with
  | nil => rfl
  | cons i sessions ih =>
    obtain ⟨hi, hrest⟩ := List.nodup_cons.mp hnodup
    rw [List.filter_cons, ih hrest]
    by_cases hij : i = j
    · subst hij
      simp [hi]
    · have hji : j ≠ i := fun h => hij h.symm
      simp [hij, hji]

/-- A stanza for each of a list of distinct sessions. -/
theorem stanzasFor_map (hmode : x.env.serverMode = true) {targets : List Jid}
    (hnodup : targets.Nodup) (htargets : ∀ i ∈ targets, i ∈ x.sessions ∧ i.isBare = false)
    (f : Jid → Message) (hf : ∀ i, (f i).head.toJid = i) :
    stanzasFor j (targets.map fun i => x.sendMessage (f i)) =
      if j ∈ targets then [f j] else [] := by
  induction targets with
  | nil => rfl
  | cons i targets ih =>
    obtain ⟨hi, hrest⟩ := List.nodup_cons.mp hnodup
    obtain ⟨hmem, hfull⟩ := htargets i List.mem_cons_self
    have hroute : x.sendMessage (f i) = .message (f i) [i] := by
      simp [Context.sendMessage, hmode, hf, route_session hmem hfull]
    rw [List.map_cons, hroute, stanzasFor_cons,
      ih hrest fun i' h => htargets i' (List.mem_cons_of_mem i h)]
    by_cases hij : i = j
    · subst hij
      simp [hi]
    · have hji : j ≠ i := fun h => hij h.symm
      simp [hij, hji]

theorem SessionsOnline.mem_iff (hx : SessionsOnline x c.jid.toBare) :
    (∃ p ∈ x.oracle.getAllPresence c.jid.toBare, p.fromJid = j) ↔ j ∈ x.sessions := by
  rw [← hx.perm.mem_iff, List.mem_map]

/-- Without caching a session gets the message if the channel routes it there, and a carbon if
the conversation does not deliver to it. -/
theorem stanzasFor_handleMessage (hx : SessionsOnline x c.jid.toBare)
    (hmode : x.env.serverMode = true) (hmuc : c.muc = false) (hcache : x.cacheMessages = false)
    (m : Message) (nickname : String) (hj : j ∈ x.sessions) :
    stanzasFor j (c.handleMessage x m nickname false).2 =
      (if j ∈ route x.sessions c.jid then [c.address x nickname m] else []) ++
        if j = c.getDeliveryJid x then []
        else [Conversation.carbon .received (c.address x nickname m) c j] := by
  have htype := address_type (x := x) hmuc nickname m
  have hroute : (route x.sessions c.jid).Nodup := by
    by_cases hbound : c.jid.isBare = false ∧ c.jid ∈ x.sessions
    · rw [route_session hbound.2 hbound.1]
      exact List.pairwise_singleton _ _
    · have hunbound : c.jid.isBare = true ∨ c.jid ∉ x.sessions := by
        cases hbare : c.jid.isBare with
        | true => exact .inl rfl
        | false => exact .inr fun hmem => hbound ⟨hbare, hmem⟩
      rw [route_all (fun i hi => (hx.full i hi).2) hunbound]
      exact hx.nodup
  -- the carbons go to the JIDs of the presences, which are those of the sessions
  have hcopies : (c.handleMessage x m nickname false).2 =
      x.sendMessage (c.address x nickname m) ::
        (((x.oracle.getAllPresence c.jid.toBare).map Presence.fromJid).filter fun i =>
          i ≠ c.getDeliveryJid x).map fun i =>
            x.sendMessage (Conversation.carbon .received (c.address x nickname m) c i) := by
    have hraw : c.handleRawMessage x (c.address x nickname m) =
        (c, [x.sendMessage (c.address x nickname m)]) := by
      simp [Conversation.handleRawMessage, htype, hcache]
    have hcarbons : ∀ s ∈ (((x.oracle.getAllPresence c.jid.toBare).filter fun p =>
        p.fromJid ≠ c.getDeliveryJid x).map fun p =>
          Conversation.carbon .received (c.address x nickname m) c p.fromJid),
        s.head.type ≠ .groupchat := by
      intro s hs
      obtain ⟨p, -, rfl⟩ := List.mem_map.mp hs
      exact htype
    simp only [Conversation.handleMessage, Conversation.forwardReceivedCopies, hraw, hmode, hmuc,
      handleRawMessages_sent hcache hcarbons]
    simp [htype, List.filter_map, Function.comp_def]
  have hnodup : (((x.oracle.getAllPresence c.jid.toBare).map Presence.fromJid).filter fun i =>
      i ≠ c.getDeliveryJid x).Nodup := (hx.perm.nodup_iff.mpr hx.nodup).filter _
  rw [hcopies, Context.sendMessage, if_pos hmode, stanzasFor_cons, address_to hmuc,
    filter_eq_of_nodup hroute, stanzasFor_map hmode hnodup ?_ _ fun _ => rfl]
  · have hfilter : (j ∈ (((x.oracle.getAllPresence c.jid.toBare).map Presence.fromJid).filter
        fun i => i ≠ c.getDeliveryJid x)) ↔ j ≠ c.getDeliveryJid x := by
      rw [List.mem_filter, hx.perm.mem_iff]
      simp [hj]
    by_cases hdelivered : j = c.getDeliveryJid x
    · rw [if_neg (fun h => hfilter.mp h hdelivered), if_pos hdelivered]
      split <;> rfl
    · rw [if_pos (hfilter.mpr hdelivered), if_neg hdelivered]
      split <;> rfl
  · intro i hi
    have hmem := hx.perm.mem_iff.mp (List.mem_filter.mp hi).1
    exact ⟨hmem, (hx.full i hmem).1⟩

theorem forwardReceivedCopies_cached (hmode : x.env.serverMode = true)
    (hcache : x.cacheMessages = true) {copy : Message} (htype : copy.head.type ≠ .groupchat)
    (delivered : Jid) (d : Conversation) : (d.forwardReceivedCopies x copy delivered).2 = [] := by
  refine handleRawMessages_cached hmode hcache ?_
  intro s hs
  obtain ⟨p, -, rfl⟩ := List.mem_map.mp hs
  exact htype

theorem handleMessage_cached (hmode : x.env.serverMode = true) (hmuc : c.muc = false)
    (hcache : x.cacheMessages = true) (m : Message) (nickname : String) :
    (c.handleMessage x m nickname false).2 = [] := by
  have htype := address_type (x := x) hmuc nickname m
  have hraw : c.handleRawMessage x (c.address x nickname m) =
      (c.cacheMessage (c.address x nickname m), []) := by
    simp [Conversation.handleRawMessage, htype, hcache, hmode]
  simp [Conversation.handleMessage, hraw, hmode, hmuc, htype,
    forwardReceivedCopies_cached hmode hcache htype]

/-- A bare conversation delivers to one of the sessions. -/
theorem getDeliveryJid_mem (hx : SessionsOnline x c.jid.toBare) (hbare : c.jid.isBare = true)
    (hj : j ∈ x.sessions) : c.getDeliveryJid x ∈ x.sessions := by
  obtain ⟨p, hp, -⟩ := hx.mem_iff.mpr hj
  obtain ⟨highest, hhighest⟩ := exists_getHighestPriorityPresence hp
  have hmem := getHighestPriorityPresence_mem hhighest
  simp only [Conversation.getDeliveryJid, hbare, if_true, hhighest]
  exact hx.mem_iff.mp ⟨highest, hmem, rfl⟩

end Delivery

/-! ## The two layers together -/

/-- The conversation is bound to a session, or there is at most one session. -/
def Agreed (x : Context) (c : Conversation) : Prop :=
  c.jid ∈ x.sessions ∨ c.jid.isBare = true ∧ x.sessions.length ≤ 1

/-- In server mode every session gets exactly one stanza for an incoming message if and only if
no session is online, or messages are not cached and the two layers agree. -/
theorem oneCopyEach_iff {x : Context} {c : Conversation} (hx : SessionsOnline x c.jid.toBare)
    (hmode : x.env.serverMode = true) (hmuc : c.muc = false) (m : Message) (nickname : String) :
    OneCopyEach x m nickname c ↔ x.sessions = [] ∨ x.cacheMessages = false ∧ Agreed x c := by
  by_cases hnone : x.sessions = []
  · simp [OneCopyEach, hnone]
  obtain ⟨i, hi⟩ := List.exists_mem_of_ne_nil _ hnone
  cases hcache : x.cacheMessages with
  | true =>
    have hout := handleMessage_cached hmode hmuc hcache m nickname
    simp only [hnone, Bool.true_eq_false, false_and, or_false, iff_false]
    intro hone
    obtain ⟨s, hs, -⟩ := hone i hi
    rw [hout] at hs
    cases hs
  | false =>
    simp only [hnone, true_and, false_or]
    have hstanzas := fun j hj =>
      stanzasFor_handleMessage (j := j) hx hmode hmuc hcache m nickname hj
    by_cases hbound : c.jid ∈ x.sessions
    · -- the channel and the conversation both choose the session of the conversation
      have hfull := (hx.full _ hbound).1
      have hdelivery : c.getDeliveryJid x = c.jid := by simp [Conversation.getDeliveryJid, hfull]
      refine iff_of_true (fun j hj => ?_) (.inl hbound)
      rw [hstanzas j hj, route_session hbound hfull, hdelivery]
      by_cases hjc : j = c.jid
      · exact ⟨_, by simp [hjc], .inl rfl⟩
      · exact ⟨_, by simp [hjc], .inr rfl⟩
    · -- the channel sends the message to all sessions
      have hroute := route_all (fun i hi => (hx.full i hi).2) (.inr hbound)
      have hboth : ∀ j ∈ x.sessions, j ≠ c.getDeliveryJid x →
          (stanzasFor j (c.handleMessage x m nickname false).2).length = 2 := by
        intro j hj hne
        rw [hstanzas j hj, hroute, if_pos hj, if_neg hne]
        rfl
      constructor
      · intro hone
        have hdelivered : ∀ j ∈ x.sessions, j = c.getDeliveryJid x := by
          intro j hj
          by_contra hne
          obtain ⟨s, hs, -⟩ := hone j hj
          have hlen := hboth j hj hne
          rw [hs] at hlen
          cases hlen
        refine .inr ⟨?_, ?_⟩
        · by_contra hbare
          have hself : c.getDeliveryJid x = c.jid := by simp [Conversation.getDeliveryJid, hbare]
          rw [hdelivered i hi, hself] at hi
          exact hbound hi
        · have hsub : x.sessions ⊆ [c.getDeliveryJid x] := fun j hj =>
            List.mem_singleton.mpr (hdelivered j hj)
          exact (hx.nodup.subperm hsub).length_le
      · intro hagreed j hj
        obtain ⟨hbare, hlen⟩ := hagreed.resolve_left hbound
        have hdelivery := getDeliveryJid_mem hx hbare hj
        obtain ⟨k, hk⟩ := List.length_eq_one_iff.mp
          (Nat.le_antisymm hlen (List.length_pos_of_mem hj))
        rw [hk] at hj hdelivery
        have heq : j = c.getDeliveryJid x :=
          (List.mem_singleton.mp hj).trans (List.mem_singleton.mp hdelivery).symm
        have hmem : j ∈ x.sessions := by simpa [hk] using hj
        exact ⟨_, by rw [hstanzas j hmem, hroute, if_pos hmem, if_pos heq]; rfl, .inl rfl⟩

namespace Sample

def resource (r : String) : Jid := ⟨"alice", "localhost", r⟩

def available (r : String) (priority : Int) : Presence where
  fromJid := resource r
  toJid := ⟨"", "localhost", ""⟩
  priority := priority

/-- Two clients in server mode. -/
def context : Context where
  env := { serverMode := true, user := resource "" }
  oracle := fun j => if j = resource "" then [available "home" 0, available "work" 5] else []
  sessions := [resource "home", resource "work"]
  getBuddy := fun _ => none
  cacheMessages := false

theorem context_online : SessionsOnline context (resource "") where
  nodup := by decide
  full := by decide
  perm := List.Perm.refl _
  available := by decide

def bob : Conversation where
  legacyName := "bob"
  jid := resource "home"

end Sample

/-- The conversation is bound to one of two clients. -/
theorem oneCopyEach_iff_home : SessionsOnline Sample.context Sample.bob.jid.toBare ∧
    OneCopyEach Sample.context (.plain { body := "hi" }) "" Sample.bob :=
  ⟨Sample.context_online, (oneCopyEach_iff Sample.context_online rfl rfl _ _).mpr
    (.inr ⟨rfl, .inl (by decide)⟩)⟩

/-- While the conversation is bare, the client with the lower priority gets the message and a
carbon of it. -/
theorem not_oneCopyEach_of_bare :
    ¬ ∀ (x : Context) (c : Conversation) (m : Message) (nickname : String),
      SessionsOnline x c.jid.toBare → x.env.serverMode = true → c.muc = false →
        OneCopyEach x m nickname c := by
  intro hall
  have hone := hall Sample.context { Sample.bob with jid := Sample.resource "" }
    (.plain { body := "hi" }) "" Sample.context_online rfl rfl
  obtain ⟨s, hs, -⟩ := hone (Sample.resource "home") (by decide)
  have htwo : (stanzasFor (Sample.resource "home")
      (Conversation.handleMessage Sample.context (.plain { body := "hi" }) "" false
        { Sample.bob with jid := Sample.resource "" }).2).length = 2 := by decide
  rw [hs] at htwo
  cases htwo

end Spectrum.Account
