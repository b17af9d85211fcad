import Spectrum.Account.Steps
import Spectrum.Account.Lookup

/-!
# Joining a room

After a connected user has joined a room, the room should be stored as a room with his JID, and
the backend should have been told since the room was left the last time. A stored room has always
been announced (`Announced`). But a join is not forwarded when the lookup of the name finds any
conversation: a chat of the same name, or, for a name with a slash, another conversation that
stands for its last part.
-/

namespace Spectrum.Account

/-- The room has been joined since it was left the last time. The log is newest first. -/
def JoinedSince (room : String) : List Output → Bool
  | [] => false
  | .roomJoined _ r _ _ :: log => r = room || JoinedSince room log
  | .roomLeft r :: log => r ≠ room && JoinedSince room log
  | _ :: log => JoinedSince room log

/-- The room of a presence. -/
def roomOf (p : Presence) (a : Account) : String := legacyName a.env.toConfig p.toJid

/-- The room of the presence is stored with the JID of the sender, and announced. -/
structure Joined (p : Presence) (a : Account) : Prop where
  stored : ∃ c, a.convs.find (roomOf p a) = some (roomOf p a, c) ∧ c.freed = false ∧
    c.muc = true ∧ p.fromJid ∈ c.jids
  announced : JoinedSince (roomOf p a) a.log = true

/-- The lookup of the room finds nothing, or the room itself. -/
def Open (p : Presence) (a : Account) : Prop :=
  ∀ kc, a.convs.getConversation (roomOf p a) = some kc → kc.1 = roomOf p a ∧ kc.2.muc = true

/-! ## Stored rooms have been announced -/

def Announced (a : Account) : Prop :=
  ∀ kc ∈ a.convs, kc.2.muc = true → kc.2.freed = false → JoinedSince kc.1 a.log = true

theorem joinedSince_append {room : String} {outs log : List Output}
    (houts : ∀ o ∈ outs, o.isLeft = false) (h : JoinedSince room log = true) :
    JoinedSince room (outs ++ log) = true := by
  induction outs with
  | nil => exact h
  | cons o outs ih =>
    have hrest := ih fun o' ho' => houts o' (List.mem_cons_of_mem o ho')
    cases o with
    | roomLeft r => cases houts _ List.mem_cons_self
    | roomJoined who r nickname password => simp [JoinedSince, hrest]
    | _ => exact hrest

theorem Announced.quiet {a b : Account} (ha : Announced a) (h : Quiet a b) : Announced b := by
  intro kc hkc hmuc hfreed
  obtain ⟨c, hc, htag⟩ := Chats.exists_of_tags h.tags hkc
  obtain ⟨outs, hlog, hleft⟩ := h.log
  simp only [Conversation.tag, Tag.mk.injEq] at htag
  have hold := ha (kc.1, c) hc (htag.2.2.1.trans hmuc) (htag.2.2.2.trans hfreed)
  rw [hlog]
  exact joinedSince_append hleft hold

theorem Announced.add {a : Account} (ha : Announced a) {c : Conversation} (hc : Newborn a.env c) :
    Announced (a.addConversation c) := by
  intro kc hkc hmuc
  rcases Chats.mem_of_mem_addConversation hkc with rfl | hkc
  · cases hc <;> cases hmuc
  · exact ha kc hkc hmuc

theorem Announced.createRoom {a : Account} (ha : Announced a) (p : Presence) :
    Announced (a.createRoom p) := by
  have hlog : (a.createRoom p).log = [joinedSignal a.env p] ++ a.log := rfl
  intro kc hkc hmuc hfreed
  rw [hlog]
  rcases Chats.mem_of_mem_addConversation hkc with rfl | hkc
  · simp [JoinedSince, joinedSignal, newRoom, Conversation.create, Conversation.setNickname,
      Conversation.addJid, Spectrum.Conversation.addJid]
  · exact joinedSince_append (by simp [joinedSignal, Output.isLeft]) (ha kc hkc hmuc hfreed)

/-- Leaving a room forgets it, whatever the lookup of its name finds. -/
theorem Announced.leaveRoom {a : Account} (ha : Announced a) (room : String) :
    (a.leaveRoom room).fault = true ∨ Announced (a.leaveRoom room) := by
  have hother : ∀ kc ∈ a.convs, kc.1 ≠ room → kc.2.muc = true → kc.2.freed = false →
      JoinedSince kc.1 (a.leaveRoom room).log = true := by
    intro kc hkc hne hmuc hfreed
    simp [JoinedSince, Ne.symm hne, ha kc hkc hmuc hfreed]
  -- an entry under the name of the room is the one the lookup finds
  have hexact : ∀ kd ∈ a.convs, kd.1 = room →
      ∃ c, a.convs.getConversation room = some (room, c) := by
    rintro kd hkd rfl
    obtain ⟨c, hfind⟩ := Chats.exists_find_of_mem hkd
    exact ⟨c, Chats.getConversation_of_find hfind⟩
  unfold Announced
  generalize hcs : (a.leaveRoom room).convs = cs
  generalize hfault : (a.leaveRoom room).fault = fault
  have hleft := left_leaveRoom room a
  rw [hcs, hfault] at hleft
  cases hleft with
  | unknown hnone =>
    refine .inr fun kc hkc hmuc hfreed => hother kc hkc ?_ hmuc hfreed
    intro heq
    obtain ⟨c, hsome⟩ := hexact kc hkc heq
    rw [hnone] at hsome
    cases hsome
  | removed hsome _ =>
    refine .inr fun kc hkc hmuc hfreed => ?_
    obtain ⟨d, hd, hdmuc, hlive⟩ := Chats.mem_of_mem_delete hkc
    obtain ⟨hkey, hdfreed⟩ := hlive hfreed
    refine hother (kc.1, d) hd ?_ (hdmuc ▸ hmuc) hdfreed
    intro heq
    obtain ⟨c, hfound⟩ := hexact (kc.1, d) hd heq
    rw [hsome] at hfound
    cases hfound
    exact hkey heq
  | fault => exact .inl rfl

theorem Path.announced {leaving : Bool} {a b : Account} (h : Path leaving a b)
    (ha : Announced a) : b.fault = true ∨ Announced b := by
  induction h with
  | refl => exact .inr ha
  | quiet _ hq ih => exact ih.imp hq.fault fun h => h.quiet hq
  | add _ hc ih => exact ih.imp id fun h => h.add hc
  | postpone _ _ ih => exact ih
  | @join _ p _ _ ih => exact ih.imp id fun h => h.createRoom p
  | @leave b room _ _ ih =>
    rcases ih with hfault | h
    · exact .inl ((left_leaveRoom room b).of_fault hfault)
    · exact h.leaveRoom room

theorem announced {tr : List (Account × Event)} {a : Account} (h : machine.Run tr a) :
    Announced a := by
  induction h with
  | init h0 =>
    obtain ⟨x, caps, rfl⟩ := h0
    intro kc hkc
    cases hkc
  | @step tr a a' e h hs ih =>
    obtain ⟨-, rfl, hfault⟩ := step_eq hs
    have hpath := (path_run (roomsJoined h) e).announced ih
    exact hpath.resolve_left (by simp [hfault])

/-! ## One join -/

section Join

variable {x : Context}

@[simp] theorem jids_generatePresence (nickname : String) (flag : BitVec 32) (status : StatusType)
    (statusMessage newname iconhash : String) (c : Conversation) :
    (c.generatePresence x nickname flag status statusMessage newname iconhash).2.jids = c.jids := by
  rcases @generatePresence_cases x nickname flag status statusMessage newname iconhash c with
    ⟨h, -⟩ | ⟨h, -⟩
  · rw [h]
  · rw [h]

theorem jids_addParticipant (p : Presence) (c : Conversation) :
    (addParticipant p x c).1.jids = c.jids ++ [p.fromJid] := by
  have hrename : ∀ d : Conversation,
      (d.renameTo x p.fromJid p.toJid.resource).1.jids = d.jids := by
    intro d
    unfold Conversation.renameTo
    split
    · simp [Conversation.selfPresence]
    · rfl
  simp [addParticipant, Conversation.sendCachedMessages, Conversation.sendParticipants,
    Conversation.selfPresence, hrename, Conversation.addJid, Spectrum.Conversation.addJid]

end Join

/-- A presence of a connected user that joins a room. -/
theorem presenceReceived_join {p : Presence} (hp : IsJoin p) (htype : p.type = .available)
    {a : Account} (hconnected : a.connected = true) :
    a.presenceReceived p = a.joinRoom p false := by
  have hnode := hp.node
  have hnot : p.type ≠ .unavailable := hp.type
  have horacle : a.oracle.handleIncomingPresence p = (a.oracle, none) := by
    simp [Oracle.handleIncomingPresence, hnode]
  have hready : a.checkReady p = a := by simp [checkReady, hconnected]
  calc a.presenceReceived p = a.handlePresence p false := by
        unfold presenceReceived
        rw [horacle]
        exact if_pos ⟨hnode, .inl htype⟩
    _ = a.joinRoom p false := by
        unfold handlePresence
        rw [hready]
        simp [hnode, hnot, hp.muc]

/-- The ways a join of a connected user can end. -/
inductive JoinOutcome (p : Presence) (a : Account) : Account → Prop
  | created {b : Account} (h : a.convs.getConversation (roomOf p a) = none) (hb : b.env = a.env)
      (hconvs : b.convs = a.convs) : JoinOutcome p a (b.createRoom p)
  | found {b : Account} {key : String} {c : Conversation}
      (h : a.convs.getConversation (roomOf p a) = some (key, c)) (hfreed : c.freed = false)
      (hb : b.env = a.env)
      (hconvs : b.convs = a.convs ∧ p.fromJid ∈ c.jids ∨
        ∃ x : Context, b.convs = a.convs.update key fun c => (addParticipant p x c).1) :
      JoinOutcome p a b
  | fault {b : Account} (h : b.fault = true) : JoinOutcome p a b

theorem joinRoom_outcome (p : Presence) {a : Account} (hconnected : a.connected = true) :
    JoinOutcome p a (a.joinRoom p false) := by
  obtain ⟨b, hb, hjoins⟩ := joinRoom_joins p false a
  obtain ⟨henv, hconvs, hconn⟩ : b.env = a.env ∧ b.convs = a.convs ∧ b.connected = true := by
    rcases hb with rfl | rfl
    · exact ⟨rfl, rfl, hconnected⟩
    · exact ⟨rfl, rfl, hconnected⟩
  have hroom : b.convs.getConversation (legacyName b.env.toConfig p.toJid) =
      a.convs.getConversation (roomOf p a) := by
    rw [henv, hconvs]
    rfl
  generalize a.joinRoom p false = r at hjoins ⊢
  cases hjoins with
  | @known key c d hsome hd =>
    rw [hroom] at hsome
    simp only [Bool.false_eq_true, if_false]
    cases hd with
    | freed => exact .fault rfl
    | present hlive hmem => exact .found hsome hlive henv (.inl ⟨hconvs, hmem⟩)
    | added hlive =>
      have hfind : b.convs.find key = some (key, c) := by
        rw [hconvs]
        exact (Chats.mem_of_getConversation hsome).2
      have hcall := call_of_find (addParticipant p) hfind hlive
      refine .found hsome hlive ?_ (.inr ⟨b.toContext, ?_⟩)
      · rw [hcall]
        exact henv
      · rw [hcall, ← hconvs]
        rfl
  | postponed hnone hd hoff =>
    have hstill : b.connected = false := by
      rcases hd with rfl | rfl
      · exact hoff
      · exact hoff
    rw [hconn] at hstill
    cases hstill
  | created hnone hd =>
    rw [hroom] at hnone
    rcases hd with rfl | rfl
    · exact .created hnone henv hconvs
    · exact .created hnone henv hconvs

/-! ## Every run -/

/-- After any history the join of a connected user is forwarded and stored if and only if the
lookup of the room finds nothing, or the room itself. -/
theorem joined_iff_open {tr : List (Account × Event)} {a a' : Account} {p : Presence}
    (h : machine.Run tr a) (hconnected : a.connected = true) (hp : IsJoin p)
    (htype : p.type = .available) (hs : step a (.presence p) = some a') :
    Joined p a' ↔ Open p a := by
  have hannounced : Announced a' := announced (h.step hs)
  obtain ⟨-, heq, hfault⟩ := step_eq hs
  have houtcome := joinRoom_outcome p hconnected
  rw [← presenceReceived_join hp htype hconnected] at houtcome
  change JoinOutcome p a ((Event.presence p).run a) at houtcome
  rw [← heq] at houtcome
  have hjoined : ∀ c, a'.convs.find (roomOf p a') = some (roomOf p a', c) → c.freed = false →
      c.muc = true → p.fromJid ∈ c.jids → Joined p a' := by
    intro c hfind hfreed hmuc hjids
    exact ⟨⟨c, hfind, hfreed, hmuc, hjids⟩,
      hannounced _ (Chats.mem_of_find hfind).1 hmuc hfreed⟩
  cases houtcome with
  | @created b hnone hb hconvs =>
    have hroom : roomOf p (b.createRoom p) = legacyName b.env.toConfig p.toJid := rfl
    have hfind : (b.createRoom p).convs.find (legacyName b.env.toConfig p.toJid) =
        some (legacyName b.env.toConfig p.toJid,
          newRoom b.env p (legacyName b.env.toConfig p.toJid)) :=
      Chats.find_addConversation (newRoom b.env p (legacyName b.env.toConfig p.toJid)) b.convs
    refine iff_of_true (hjoined _ (hroom ▸ hfind) rfl rfl ?_) fun kc hkc => ?_
    · simp [newRoom, Conversation.create, Conversation.setNickname, Conversation.addJid,
        Spectrum.Conversation.addJid]
    · rw [hnone] at hkc
      cases hkc
  | @found _ key c hsome hfreed hb hconvs =>
    have hroom : roomOf p a' = roomOf p a := by simp [roomOf, hb]
    -- the conversation that is found keeps its tag
    have hkey : ∃ d, a'.convs.find key = some (key, d) ∧ d.tag = c.tag ∧ p.fromJid ∈ d.jids := by
      have hfind := (Chats.mem_of_getConversation hsome).2
      rcases hconvs with ⟨hconvs, hjids⟩ | ⟨x, hconvs⟩
      · exact ⟨c, by rw [hconvs, hfind], rfl, hjids⟩
      · refine ⟨(addParticipant p x c).1, ?_, (plain_addParticipant p c).tag, ?_⟩
        · rw [hconvs, Chats.find_update, hfind]
          rfl
        · simp [jids_addParticipant]
    obtain ⟨d, hd, htag, hjids⟩ := hkey
    simp only [Conversation.tag, Tag.mk.injEq] at htag
    constructor
    · rintro ⟨⟨e, he, -, hmuc, -⟩, -⟩ kc hkc
      have htags : a'.convs.tags = a.convs.tags := by
        rcases hconvs with ⟨hconvs, -⟩ | ⟨x, hconvs⟩
        · rw [hconvs]
        · rw [hconvs]
          exact Chats.tags_update key (fun c => (plain_addParticipant p c).tag) _
      obtain ⟨e', he', -⟩ := Chats.exists_of_tags htags (Chats.mem_of_find he).1
      obtain ⟨f, hf⟩ := Chats.exists_find_of_mem he'
      rw [hroom] at hf he
      have hlookup := Chats.getConversation_of_find hf
      rw [hsome] at hlookup hkc
      cases hlookup
      cases hkc
      rw [he] at hd
      cases hd
      exact ⟨rfl, htag.2.2.1 ▸ hmuc⟩
    · intro hopen
      obtain ⟨hkey, hmuc⟩ := hopen _ hsome
      dsimp only at hkey hmuc
      rw [hkey, ← hroom] at hd
      exact hjoined d hd (htag.2.2.2.trans hfreed) (htag.2.2.1.trans hmuc) hjids
  | fault hbad =>
    rw [hfault] at hbad
    cases hbad

namespace Sample

def alice (resource : String) : Jid := ⟨"alice", "example.org", resource⟩

/-- A user of a gateway who has just been created. -/
def account : Account :=
  start
    { env := { user := alice "" }, oracle := fun _ => [], sessions := []
      getBuddy := fun _ => none, cacheMessages := false }
    fun _ => false

def joinPresence : Presence where
  fromJid := alice "home"
  toJid := ⟨"#room", "localhost", "alice"⟩
  muc := some none

theorem isJoin_joinPresence : IsJoin joinPresence where
  node := by decide
  muc := by decide
  type := by decide

end Sample

theorem joined_iff_open_room :
    ∃ tr a a', machine.Run tr a ∧ step a (.presence Sample.joinPresence) = some a' ∧
      Joined Sample.joinPresence a' := by
  have hexec : ∃ a, machine.exec Sample.account [.connected] = some a ∧ a.connected = true ∧
      (∃ a', step a (.presence Sample.joinPresence) = some a') ∧ Open Sample.joinPresence a := by
    refine ⟨_, by rfl, by rfl, ⟨_, by rfl⟩, ?_⟩
    intro kc hkc
    cases hkc
  obtain ⟨a, ha, hconnected, ⟨a', hs⟩, hopen⟩ := hexec
  have hinit : machine.init Sample.account := ⟨_, _, rfl⟩
  obtain ⟨tr, hrun, -⟩ := Lib.Machine.exists_run_of_exec hinit ha
  exact ⟨tr, a, a', hrun, hs,
    (joined_iff_open hrun hconnected Sample.isJoin_joinPresence rfl hs).mpr hopen⟩

/-- A message of the backend under the name of the room creates a chat, and the join after it is
swallowed. -/
theorem not_joined_of_chat :
    ¬ ∀ (tr : List (Account × Event)) (a a' : Account) (p : Presence), machine.Run tr a →
      a.connected = true → IsJoin p → p.type = .available → step a (.presence p) = some a' →
        Joined p a' := by
  intro hall
  have hexec : ∃ a, machine.exec Sample.account
      [.connected, .convMessage { buddyname := "#room", message := "hi" } false] = some a ∧
      a.connected = true ∧
      ∃ a', step a (.presence Sample.joinPresence) = some a' ∧
        ∃ c, a'.convs.find (roomOf Sample.joinPresence a') = some ("#room", c) ∧ c.muc = false := by
    exact ⟨_, by rfl, by rfl, _, by rfl, _, by rfl, by rfl⟩
  obtain ⟨a, ha, hconnected, a', hs, c, hc, hmuc⟩ := hexec
  have hinit : machine.init Sample.account := ⟨_, _, rfl⟩
  obtain ⟨tr, hrun, -⟩ := Lib.Machine.exists_run_of_exec hinit ha
  have hjoined := hall tr a a' Sample.joinPresence hrun hconnected Sample.isJoin_joinPresence rfl hs
  obtain ⟨d, hd, -, hroom, -⟩ := hjoined.stored
  rw [hc] at hd
  obtain ⟨-, rfl⟩ := Prod.mk.inj (Option.some.inj hd)
  rw [hmuc] at hroom
  cases hroom

end Spectrum.Account
