import Spectrum.Account.Room
import Spectrum.Account.Cache
import Spectrum.Lib.Escape

/-!
# The node of a room

A user joins a room under a node. The node is decoded to the name the backend knows, and every
stanza of the room encodes the name again, under a flag that is read from the whole JID. The
stanzas of a conversation all carry one node (`Anchored`); it is the node the user joined when the
name is `Reencodable`, and only then.
-/

namespace Spectrum

/-! ## Replaced characters -/

section Replaced

variable {a b : Char}

theorem replaceLast_of_not_mem {s : String} (h : a ∉ s.toList) : replaceLast a b s = s := by
  simp [replaceLast, h]

/-- The last occurrence, with what stands behind it in reverse order. -/
theorem exists_last {s : String} (h : a ∈ s.toList) :
    ∃ after before, a ∉ after ∧ s = String.ofList (after ++ a :: before).reverse := by
  obtain ⟨after, before, heq, hno⟩ := List.eq_append_cons_of_mem (List.mem_reverse.mpr h)
  refine ⟨after, before, hno, ?_⟩
  rw [← heq, List.reverse_reverse, String.ofList_toList]

theorem replaceLast_last {after : List Char} (h : a ∉ after) (before : List Char) :
    replaceLast a b (String.ofList (after ++ a :: before).reverse) =
      String.ofList (after ++ b :: before).reverse := by
  have htake : (after ++ a :: before).takeWhile (fun c => decide (c ≠ a)) = after := by
    rw [List.takeWhile_append_of_pos]
    · simp
    · intro c hc
      simpa using fun heq : c = a => h (heq ▸ hc)
  have hdrop : (after ++ a :: before).dropWhile (fun c => decide (c ≠ a)) = a :: before := by
    rw [List.dropWhile_append_of_pos]
    · simp
    · intro c hc
      simpa using fun heq : c = a => h (heq ▸ hc)
  unfold replaceLast
  simp only [String.toList_ofList, List.reverse_reverse]
  rw [if_pos (by simp), htake, hdrop]
  rfl

theorem length_replaceLast (a b : Char) (s : String) :
    (replaceLast a b s).length = s.length := by
  by_cases hs : a ∈ s.toList
  · obtain ⟨after, before, hno, rfl⟩ := exists_last hs
    rw [replaceLast_last hno]
    simp
  · rw [replaceLast_of_not_mem hs]

/-- A replaced character is put back if it is the only one of its kind. -/
theorem replaceLast_replaceLast {s : String} (h : b ∉ s.toList) :
    replaceLast b a (replaceLast a b s) = s := by
  by_cases ha : a ∈ s.toList
  · obtain ⟨after, before, hno, rfl⟩ := exists_last ha
    rw [replaceLast_last hno]
    have hb : b ∉ after := by
      intro hb
      exact h (by simp [hb])
    exact replaceLast_last hb before
  · rw [replaceLast_of_not_mem ha, replaceLast_of_not_mem h]

theorem replaceLast_ne {s : String} (hab : a ≠ b) (h : a ∈ s.toList) : replaceLast a b s ≠ s := by
  obtain ⟨after, before, hno, rfl⟩ := exists_last h
  rw [replaceLast_last hno]
  intro heq
  simp only [String.ofList_inj, List.reverse_inj, List.append_cancel_left_eq, List.cons.injEq,
    and_true] at heq
  exact hab heq.symm

end Replaced

end Spectrum

namespace Spectrum.Account.Room

open Lib

/-! ## The property -/

/-- The JID of the room in a message. A copy of what the user said has it as the receiver. -/
def roomSide : Message → Jid
  | .plain h => h.fromJid
  | .wrapped .sent _ m => m.head.toJid
  | .wrapped _ _ m => roomSide m

/-- A stanza that comes from the node. -/
def From (node : String) : Output → Prop
  | .presence p => p.fromJid.node = node
  | .message m _ => (roomSide m).node = node
  | _ => True

def SentFrom (node : String) (log : List Entry) : Prop := ∀ o, .sent o ∈ log → From node o

/-- The text functions stay the same, the settings of the user may change. -/
def Fixed (env : Env) (_ : Room) (e : Context × Event) : Prop :=
  e.1.env.prep = env.prep ∧ e.1.env.escapedNode = env.escapedNode

/-- The conversation stays a private one: nobody joins it as if it were a room, its nickname is
not emptied, and its room is not removed. -/
def Private : Event → Prop
  | .join _ => False
  | .nickname n => n ≠ ""
  | .orphan => False
  | _ => True

/-- The stanzas of the room and of its private conversations come from the node the user joined. -/
def Stable (env : Env) (p : Presence) : Prop :=
  let room := legacyName env.toConfig p.toJid
  (∀ tr r, (life (newRoom env p room)).Run tr r → Machine.Meets (Fixed env) tr →
    SentFrom p.toJid.node r.log) ∧
  ∀ nick tr r, (life (privateChat env room nick)).Run tr r →
    Machine.Meets (fun r e => Fixed env r e ∧ Private e.2) tr → SentFrom p.toJid.node r.log

/-! ## The condition -/

/-- `getEscapedNode` and `getUnescapedNode` of Swiften, as in XEP-0106. -/
structure Escaping (env : Env) : Prop where
  inverse : ∀ s, env.unescapedNode (env.escapedNode s) = s
  empty : env.escapedNode "" = ""

/-- The node of a room is in canonical form, and stringprep leaves its name as it is, with the
sign `@` escaped or written as `%`. -/
structure Canonical (env : Env) (j : Jid) : Prop where
  nonempty : j.node ≠ ""
  sign : '@' ∉ j.node.toList
  canonical : env.escapedNode (env.unescapedNode j.node) = j.node
  prepared : ∀ s, s = legacyName env.toConfig j ∨
      s = replaceLast '@' '%' (legacyName env.toConfig j) →
    env.prep.node (env.escapedNode s) = env.escapedNode s

/-- A node with the sign `%` is joined without an escaped sign in the JID, and an escaped node has
no escaped sign `@`. -/
def Reencodable (env : Env) (j : Jid) : Prop :=
  if env.unescapedNode j.node = j.node then
    '%' ∈ j.node.toList → ¬ "\\40".toList <:+: j.toString.toList
  else '@' ∉ (env.unescapedNode j.node).toList

/-! ## One node -/

/-- The stanzas a conversation keeps, and the ones it will build, carry the node. -/
structure Anchored (env : Env) (node : String) (muc : Bool) (c : Conversation) : Prop where
  kind : c.muc = muc
  room : c.muc = true → env.prep.node (c.roomNode env c.legacyName) = node
  occupants : c.muc = true → ∀ np ∈ c.participants, np.2.presence.fromJid.node = node
  chat : c.muc = false → env.prep.node (c.roomNode env c.room) = node ∧ c.room ≠ "" ∧
    c.nickname ≠ "" ∧ c.jids = []
  cached : ∀ m ∈ c.cachedMessages, (roomSide m).node = node
  subject : ∀ m, c.subject = some m → (roomSide m).node = node

/-- A method that keeps the conversation anchored and sends from the node. -/
def Steady (env : Env) (node : String) (muc : Bool) (r : Conversation × List Output) : Prop :=
  Anchored env node muc r.1 ∧ ∀ o ∈ r.2, From node o

theorem roomSide_setTo (j : Jid) (m : Message) : roomSide (m.setTo j) = roomSide m := by
  cases m with
  | plain h => rfl
  | wrapped w h m => cases w <;> rfl

theorem roomSide_addPayload (p : Payload) (m : Message) :
    roomSide (m.addPayload p) = roomSide m := by
  cases m with
  | plain h => rfl
  | wrapped w h m => cases w <;> rfl

theorem sentFrom_push {node : String} {outs : List Output} {log : List Entry}
    (h : SentFrom node log) (houts : ∀ o ∈ outs, From node o) : SentFrom node (push outs log) := by
  intro o ho
  simp only [push, List.mem_append, List.mem_map, List.mem_reverse] at ho
  rcases ho with ⟨o', ho', heq⟩ | ho
  · cases heq
    exact houts o ho'
  · exact h o ho

section Messages

variable {env : Env} {node : String} {muc : Bool} {x : Context} {c : Conversation}

theorem steady_cacheMessage (h : Anchored env node muc c) {m : Message}
    (hm : (roomSide m).node = node) : Anchored env node muc (c.cacheMessage m) := by
  have hnew : ∀ m' ∈ c.cachedMessages ++ [m.addPayload (.delay none)],
      (roomSide m').node = node := by
    intro m' hm'
    rcases List.mem_append.mp hm' with hm' | hm'
    · exact h.cached m' hm'
    · rw [List.mem_singleton.mp hm', roomSide_addPayload]
      exact hm
  refine ⟨h.kind, h.room, h.occupants, h.chat, ?_, h.subject⟩
  unfold Conversation.cacheMessage
  dsimp only
  split
  · exact fun m' hm' => hnew m' (List.mem_of_mem_tail hm')
  · exact hnew

theorem from_sendMessage {m : Message} (j : Jid) (hm : (roomSide m).node = node) :
    From node (x.sendMessage (m.setTo j)) := by
  show (roomSide (m.setTo j)).node = node
  rw [roomSide_setTo]
  exact hm

theorem steady_sendToJids {m : Message} (hm : (roomSide m).node = node) (js : List Jid)
    (h : Anchored env node muc c) : Steady env node muc (c.sendToJids x m js) := by
  induction js generalizing c with
  | nil => exact ⟨h, fun o ho => absurd ho List.not_mem_nil⟩
  | cons j js ih =>
    have hkept : Anchored env node muc { c with subject := some (m.setTo j) } := by
      refine ⟨h.kind, h.room, h.occupants, h.chat, h.cached, ?_⟩
      intro m' hm'
      cases hm'
      rw [roomSide_setTo]
      exact hm
    have hrest : ∀ {d : Conversation}, Anchored env node muc d →
        Steady env node muc ((d.sendToJids x m js).1,
          x.sendMessage (m.setTo j) :: (d.sendToJids x m js).2) := by
      intro d hd
      obtain ⟨hanchored, houts⟩ := ih hd
      refine ⟨hanchored, fun o ho => ?_⟩
      rcases List.mem_cons.mp ho with rfl | ho
      · exact from_sendMessage j hm
      · exact houts o ho
    unfold Conversation.sendToJids
    split
    · exact hrest h
    · dsimp only
      split
      · exact ⟨hkept, fun o ho => absurd ho List.not_mem_nil⟩
      · exact hrest hkept

theorem steady_handleRawMessage (h : Anchored env node muc c) {m : Message}
    (hm : (roomSide m).node = node) : Steady env node muc (c.handleRawMessage x m) := by
  unfold Conversation.handleRawMessage
  split
  · split
    · exact ⟨steady_cacheMessage h hm, fun o ho => nomatch ho⟩
    · refine ⟨h, fun o ho => ?_⟩
      rw [List.mem_singleton.mp ho]
      exact hm
  · split
    · exact ⟨steady_cacheMessage h hm, fun o ho => nomatch ho⟩
    · exact steady_sendToJids hm _ h

theorem steady_handleRawMessages {ms : List Message} (h : Anchored env node muc c)
    (hms : ∀ m ∈ ms, (roomSide m).node = node) :
    Steady env node muc (c.handleRawMessages x ms) := by
  induction ms generalizing c with
  | nil => exact ⟨h, fun o ho => nomatch ho⟩
  | cons m ms ih =>
    obtain ⟨hfirst, houts⟩ := steady_handleRawMessage (x := x) h (hms m List.mem_cons_self)
    obtain ⟨hrest, houts'⟩ := ih hfirst fun m' hm' => hms m' (List.mem_cons_of_mem m hm')
    refine ⟨hrest, fun o ho => ?_⟩
    rcases List.mem_append.mp ho with ho | ho
    · exact houts o ho
    · exact houts' o ho

/-- The sender of every message of the conversation carries the node. -/
theorem node_address (h : Anchored env node muc c) (hx : x.env.prep = env.prep)
    (hesc : x.env.escapedNode = env.escapedNode) (nickname : String) (m : Message) :
    (c.address x nickname m).head.fromJid.node = node := by
  have hnode : ∀ name resource : String,
      (x.env.contact (c.roomNode x.env name) resource).node =
        env.prep.node (c.roomNode env name) := by
    intro name resource
    simp only [Env.contact, StringPrep.fullJid, Conversation.roomNode, hx, hesc]
  have htype : (m.setType (c.messageType x.env m.head.type)).head.type = .groupchat ↔
      c.muc = true := by
    simp only [Message.setType, Message.head_mapHead]
    exact messageType_eq_groupchat_iff
  unfold Conversation.address
  dsimp only
  cases hmuc : c.muc with
  | true =>
    rw [if_pos (htype.mpr hmuc)]
    simp only [Message.setFrom, Message.head_mapHead]
    exact (hnode _ _).trans (h.room hmuc)
  | false =>
    obtain ⟨hroom, hne, hnickname, -⟩ := h.chat hmuc
    rw [if_neg (by rw [htype, hmuc]; simp)]
    simp only [Message.setFrom, Message.head_mapHead, Conversation.chatSender]
    have hsome :
        (if nickname = "" ∧ c.room ≠ "" ∧ c.muc = false then c.nickname else nickname) ≠ "" := by
      split
      · exact hnickname
      · intro hempty
        exact ‹¬ (nickname = "" ∧ c.room ≠ "" ∧ c.muc = false)› ⟨hempty, hne, hmuc⟩
    rw [if_neg hsome, if_neg hne]
    exact (hnode _ _).trans hroom

theorem steady_forwardReceivedCopies (h : Anchored env node muc c) {copy : Message}
    (hcopy : (roomSide copy).node = node) (delivered : Jid) :
    Steady env node muc (c.forwardReceivedCopies x copy delivered) := by
  refine steady_handleRawMessages h fun m hm => ?_
  obtain ⟨p, -, rfl⟩ := List.mem_map.mp hm
  exact hcopy

theorem steady_handleMessage (h : Anchored env node muc c) (hx : x.env.prep = env.prep)
    (hesc : x.env.escapedNode = env.escapedNode) (m : Head) (nickname : String) (carbon : Bool) :
    Steady env node muc (c.handleMessage x (.plain m) nickname carbon) := by
  have haddress := node_address h hx hesc nickname (.plain m)
  have hplain : ∃ head, c.address x nickname (.plain m) = .plain head := by
    unfold Conversation.address
    dsimp only
    split <;> exact ⟨_, rfl⟩
  obtain ⟨head, heq⟩ := hplain
  rw [heq] at haddress
  unfold Conversation.handleMessage
  dsimp only
  rw [heq]
  split
  · refine steady_handleRawMessages h fun m' hm' => ?_
    obtain ⟨j, -, rfl⟩ := List.mem_map.mp hm'
    unfold Conversation.forwardAsCarbonSent
    split <;> exact haddress
  · have hraw := steady_handleRawMessage (x := x) (m := .plain head) h haddress
    split
    · have hcopy : (roomSide (.plain head)).node = node := haddress
      have hcopies := steady_forwardReceivedCopies (x := x) hraw.1 hcopy (c.getDeliveryJid x)
      refine ⟨hcopies.1, fun o ho => ?_⟩
      rcases List.mem_append.mp ho with ho | ho
      · exact hraw.2 o ho
      · exact hcopies.2 o ho
    · exact hraw

theorem steady_sendCachedMessages (h : Anchored env node muc c) (toJid : Option Jid) :
    Steady env node muc (c.sendCachedMessages x toJid) := by
  have hsubject : ∀ m ∈ c.subject.map (Message.setTo (toJid.getD c.jid.toBare)),
      (roomSide m).node = node := by
    intro m hm
    obtain ⟨m', hm', rfl⟩ := Option.map_eq_some_iff.mp hm
    rw [roomSide_setTo]
    exact h.subject m' hm'
  refine ⟨⟨h.kind, h.room, h.occupants, h.chat, fun m hm => (nomatch hm), hsubject⟩, fun o ho => ?_⟩
  obtain ⟨m, hm, rfl⟩ := List.mem_map.mp ho
  rcases List.mem_append.mp hm with hm | hm
  · obtain ⟨m', hm', rfl⟩ := List.mem_map.mp hm
    exact from_sendMessage _ (h.cached m' hm')
  · exact hsubject m (Option.mem_toList.mp hm)

theorem steady_sendSubject (h : Anchored env node muc c) :
    Steady env node muc (c.sendSubject x) := by
  unfold Conversation.sendSubject
  split
  case h_1 m hm =>
    split
    · refine ⟨⟨h.kind, h.room, h.occupants, h.chat, h.cached, h.subject⟩, fun o ho => ?_⟩
      rw [List.mem_singleton.mp ho]
      exact h.subject m hm
    · exact ⟨h, fun o ho => nomatch ho⟩
  · exact ⟨h, fun o ho => nomatch ho⟩

end Messages

/-! ## Presences -/

section Presences

variable {env : Env} {node : String} {muc : Bool} {x : Context} {c : Conversation}

/-- A presence of the room carries the node, and only flags of the conversation change. -/
theorem node_generatePresence (h : Anchored env node muc c) (hx : x.env.prep = env.prep)
    (hesc : x.env.escapedNode = env.escapedNode) (nickname : String) (flag : BitVec 32)
    (status : StatusType) (statusMessage newname iconhash : String) :
    (c.muc = true →
      (c.generatePresence x nickname flag status statusMessage newname iconhash).1.fromJid.node =
        node) ∧
    ∃ changed initial,
      (c.generatePresence x nickname flag status statusMessage newname iconhash).2 =
        { c with nicknameChanged := changed, sentInitialPresence := initial } := by
  have hnode : c.muc = true →
      (x.env.contact (if c.muc then c.roomNode x.env c.legacyName else c.legacyName)
        nickname).node = node := by
    intro hmuc
    have hroom := h.room hmuc
    simp only [Env.contact, StringPrep.fullJid, hmuc, if_true]
    rw [← hroom]
    simp only [Conversation.roomNode, hx, hesc]
  unfold Conversation.generatePresence
  dsimp only
  split
  · exact ⟨hnode, _, _, rfl⟩
  · refine ⟨hnode, ?_⟩
    dsimp only
    split <;> exact ⟨_, _, rfl⟩

theorem Anchored.flags (h : Anchored env node muc c) (changed initial : Bool) :
    Anchored env node muc { c with nicknameChanged := changed, sentInitialPresence := initial } :=
  ⟨h.kind, h.room, h.occupants, h.chat, h.cached, h.subject⟩

/-- The presence of a room that is sent to somebody. -/
theorem steady_selfPresence (h : Anchored env node true c)
    (hx : x.env.prep = env.prep) (hesc : x.env.escapedNode = env.escapedNode)
    (nickname newname : String) :
    Anchored env node true (c.selfPresence x nickname newname).2 ∧
      (c.selfPresence x nickname newname).1.fromJid.node = node := by
  obtain ⟨hnode, changed, initial, heq⟩ :=
    node_generatePresence h hx hesc nickname 0 (.ofShow .online) "" newname ""
  unfold Conversation.selfPresence
  rw [heq]
  exact ⟨h.flags changed initial, hnode h.kind⟩

theorem Anchored.rename (h : Anchored env node true c) (nickname : String) :
    Anchored env node true { c with nickname := nickname } := by
  refine ⟨h.kind, h.room, h.occupants, fun hno => ?_, h.cached, h.subject⟩
  cases hno.symm.trans h.kind

theorem steady_renameTo (h : Anchored env node true c) (hx : x.env.prep = env.prep)
    (hesc : x.env.escapedNode = env.escapedNode) (toJid : Jid) (nickname : String) :
    Steady env node true (c.renameTo x toJid nickname) := by
  unfold Conversation.renameTo
  split
  · obtain ⟨hfirst, hnode⟩ := steady_selfPresence (h.rename nickname) hx hesc nickname ""
    obtain ⟨hsecond, hnode'⟩ :=
      steady_selfPresence (hfirst.flags true _) hx hesc nickname c.nickname
    refine ⟨hsecond, fun o ho => ?_⟩
    rcases List.mem_cons.mp ho with rfl | ho
    · exact hnode
    · rw [List.mem_singleton.mp ho]
      exact hnode'
  · exact ⟨h, fun o ho => nomatch ho⟩

theorem steady_sendParticipants (h : Anchored env node true c) (hx : x.env.prep = env.prep)
    (hesc : x.env.escapedNode = env.escapedNode) (toJid : Jid) (nickname : String) :
    Steady env node true (c.sendParticipants x toJid nickname) := by
  obtain ⟨hrenamed, houts⟩ := steady_renameTo h hx hesc toJid nickname
  unfold Conversation.sendParticipants
  dsimp only
  generalize c.renameTo x toJid nickname = r at hrenamed houts
  obtain ⟨hself, hnode⟩ := steady_selfPresence hrenamed hx hesc r.1.nickname ""
  generalize r.1.selfPresence x r.1.nickname "" = r' at hself hnode
  have hoccupants : ∀ np ∈ r'.2.participants.map (fun np =>
      (np.1, ({ np.2 with presence := { np.2.presence with toJid := toJid } } : Participant))),
      np.2.presence.fromJid.node = node := by
    intro np hnp
    obtain ⟨np', hnp', rfl⟩ := List.mem_map.mp hnp
    exact hself.occupants hself.kind np' hnp'
  refine ⟨⟨hself.kind, hself.room, fun _ => hoccupants, hself.chat, hself.cached, hself.subject⟩,
    fun o ho => ?_⟩
  rcases List.mem_append.mp ho with ho | ho
  · exact houts o ho
  · rcases List.mem_cons.mp ho with rfl | ho
    · exact hnode
    · obtain ⟨np, hnp, rfl⟩ := List.mem_map.mp ho
      exact hoccupants np hnp

theorem steady_join (h : Anchored env node true c) (hx : x.env.prep = env.prep)
    (hesc : x.env.escapedNode = env.escapedNode) (p : Presence) :
    Steady env node true (addParticipant p x c) := by
  have hadded : Anchored env node true (c.addJid p.fromJid) := by
    refine ⟨h.kind, h.room, h.occupants, fun hno => ?_, h.cached, h.subject⟩
    cases hno.symm.trans h.kind
  obtain ⟨hsent, houts⟩ := steady_sendParticipants hadded hx hesc p.fromJid p.toJid.resource
  obtain ⟨hcached, houts'⟩ := steady_sendCachedMessages (x := x) hsent (some p.fromJid)
  refine ⟨hcached, fun o ho => ?_⟩
  rcases List.mem_append.mp ho with ho | ho
  · exact houts o ho
  · exact houts' o ho

theorem steady_removeJid (h : Anchored env node muc c) (hx : x.env.prep = env.prep)
    (hesc : x.env.escapedNode = env.escapedNode) (j : Jid) :
    Steady env node muc (c.removeJid x j) := by
  unfold Conversation.removeJid
  split
  case isTrue hmuc =>
    obtain ⟨hnode, changed, initial, heq⟩ :=
      node_generatePresence h hx hesc c.nickname 0 (.ofShow .none) "" "" ""
    dsimp only
    rw [heq]
    refine ⟨⟨h.kind, h.room, h.occupants, fun hno => ?_, h.cached, h.subject⟩, fun o ho => ?_⟩
    · rw [show c.muc = false from hno] at hmuc
      cases hmuc
    · rw [List.mem_singleton.mp ho]
      exact hnode hmuc
  · refine ⟨⟨h.kind, h.room, h.occupants, fun hno => ?_, h.cached, h.subject⟩,
      fun o ho => nomatch ho⟩
    obtain ⟨hroom, hne, hnickname, hjids⟩ := h.chat hno
    refine ⟨hroom, hne, hnickname, ?_⟩
    show (c.toConversation.removeJid j).jids = []
    simp [Spectrum.Conversation.removeJid, hjids]

theorem steady_destroyRoom (h : Anchored env node muc c) (hx : x.env.prep = env.prep)
    (hesc : x.env.escapedNode = env.escapedNode) : Steady env node muc (c, c.destroyRoom x) := by
  refine ⟨h, fun o ho => ?_⟩
  unfold Conversation.destroyRoom at ho
  dsimp only at ho
  split at ho
  · rename_i hmuc
    obtain ⟨j, -, rfl⟩ := List.mem_map.mp ho
    have hroom := h.room hmuc
    simp only [From, Env.contact, StringPrep.fullJid]
    rw [← hroom]
    simp only [Conversation.roomNode, hx, hesc]
  · cases ho

theorem steady_changeParticipant (h : Anchored env node muc c) (hx : x.env.prep = env.prep)
    (hesc : x.env.escapedNode = env.escapedNode) (nick : String) (flag : BitVec 32)
    (status : StatusType) (statusMessage newname iconhash nickAlias : String) :
    Steady env node muc
      (c.changeParticipant x nick flag status statusMessage newname iconhash nickAlias).2 := by
  obtain ⟨hnode, changed, initial, heq⟩ := node_generatePresence h hx hesc
    (if nickAlias = "" then nick else nickAlias) flag status statusMessage newname iconhash
  unfold Conversation.changeParticipant
  dsimp only
  generalize c.generatePresence x (if nickAlias = "" then nick else nickAlias) flag status
    statusMessage newname iconhash = g at hnode heq
  obtain ⟨p, d⟩ := g
  dsimp only at hnode heq ⊢
  subst heq
  refine ⟨⟨h.kind, h.room, fun hmuc np hnp => ?_, h.chat, h.cached, h.subject⟩, fun o ho => ?_⟩
  · by_cases hleft : p.type = .unavailable
    · rw [if_pos hleft] at hnp
      exact h.occupants hmuc np (List.mem_filter.mp hnp).1
    · rw [if_neg hleft] at hnp
      rcases mem_of_mem_upsert hnp with rfl | hnp
      · exact hnode hmuc
      · exact h.occupants hmuc np hnp
  · obtain ⟨j, hj, rfl⟩ := List.mem_map.mp ho
    cases hmuc : c.muc with
    | true => exact hnode hmuc
    | false =>
      rw [show c.jids = [] from (h.chat hmuc).2.2.2] at hj
      cases hj

end Presences

/-! ## Every run -/

/-- The conversation is anchored, and everything was sent from the node. -/
def Kept (env : Env) (node : String) (muc : Bool) (r : Room) : Prop :=
  Anchored env node muc r.conv ∧ SentFrom node r.log

theorem Kept.act {env : Env} {node : String} {muc : Bool} {r : Room}
    {f : Conversation → Conversation × List Output} (h : Kept env node muc r)
    (hf : Steady env node muc (f r.conv)) : Kept env node muc (r.act f) :=
  ⟨hf.1, sentFrom_push h.2 hf.2⟩

section Runs

variable {env : Env} {node : String} {muc : Bool} {x : Context} {r r' : Room}

theorem kept_announce (h : Kept env node muc r) (hx : x.env.prep = env.prep)
    (hesc : x.env.escapedNode = env.escapedNode) (p : ParticipantChange) :
    Kept env node muc (r.announce x p).2 :=
  h.act (steady_changeParticipant h.1 hx hesc ..)

theorem kept_settle (h : Kept env node muc r) (type : PresenceType) :
    Kept env node muc (r.settle x type) := by
  have hsent := h.act (f := fun c => c.sendSubject x) (steady_sendSubject h.1)
  unfold settle
  dsimp only
  split <;> exact hsent

theorem kept_change {p : ParticipantChange} (h : Kept env node muc r) (hx : x.env.prep = env.prep)
    (hesc : x.env.escapedNode = env.escapedNode) (hr : r.change x p = some r') :
    Kept env node muc r' :=
  change_rule (P := Kept env node muc) (Q := Kept env node muc)
    (fun p _ h => kept_announce h hx hesc p) (fun type _ h => kept_settle h type) (fun _ => id) h hr

/-- A chat stays a chat under the private events, a room under all. -/
theorem steady_calls {e : Event} {c : Conversation} (h : Anchored env node muc c)
    (hx : x.env.prep = env.prep) (hesc : x.env.escapedNode = env.escapedNode)
    (hprivate : muc = true ∨ Private e) : Steady env node muc (e.calls x c) := by
  cases e with
  | join p =>
    obtain rfl : muc = true := hprivate.resolve_right id
    exact steady_join h hx hesc p
  | leave j => exact steady_removeJid h hx hesc j
  | participant p => exact ⟨h, fun o ho => nomatch ho⟩
  | nickname n =>
    refine ⟨⟨h.kind, h.room, h.occupants, fun hno => ?_, h.cached, h.subject⟩,
      fun o ho => nomatch ho⟩
    obtain ⟨hroom, hne, -, hjids⟩ := h.chat hno
    refine ⟨hroom, hne, hprivate.resolve_left ?_, hjids⟩
    rw [← h.kind, show c.muc = false from hno]
    simp
  | message m n carbon => exact steady_handleMessage h hx hesc m n carbon
  | clear =>
    refine ⟨⟨h.kind, h.room, h.occupants, fun hno => ?_, h.cached, h.subject⟩,
      fun o ho => nomatch ho⟩
    obtain ⟨hroom, hne, hnickname, -⟩ := h.chat hno
    exact ⟨hroom, hne, hnickname, rfl⟩
  | said m =>
    refine ⟨⟨h.kind, h.room, h.occupants, h.chat, h.cached, h.subject⟩, fun o ho => ?_⟩
    rw [List.mem_singleton.mp ho]
    trivial
  | flush =>
    show Steady env node muc (if c.muc then (c, []) else c.sendCachedMessages x none)
    split
    · exact ⟨h, fun o ho => nomatch ho⟩
    · exact steady_sendCachedMessages h none
  | reset =>
    show Steady env node muc (if c.muc then (c, []) else ({ c with jid := x.env.user.toBare }, []))
    split
    · exact ⟨h, fun o ho => nomatch ho⟩
    · exact ⟨⟨h.kind, h.room, h.occupants, h.chat, h.cached, h.subject⟩, fun o ho => nomatch ho⟩
  | orphan =>
    have hmuc : c.muc = true := h.kind.trans (hprivate.resolve_right id)
    show Steady env node muc (if c.muc then (c, []) else (c.setRoom "", []))
    rw [if_pos hmuc]
    exact ⟨h, fun o ho => nomatch ho⟩
  | destroy => exact steady_destroyRoom h hx hesc

theorem kept_step {e : Context × Event} (h : Kept env node muc r) (hfixed : Fixed env r e)
    (hprivate : muc = true ∨ Private e.2) (hs : step r e = some r') :
    Kept env node muc r' := by
  obtain ⟨x, e⟩ := e
  obtain ⟨hx, hesc⟩ := hfixed
  have hcalls : Kept env node muc (r.act (e.calls x)) := h.act (steady_calls h.1 hx hesc hprivate)
  unfold step at hs
  split at hs
  · cases hs
  · cases e with
    | participant p => exact kept_change h hx hesc hs
    | message m n carbon =>
      cases hs
      have hmark : Kept env node muc (r.mark m carbon) ∧ (r.mark m carbon).conv = r.conv := by
        unfold mark
        split
        · refine ⟨⟨h.1, fun o ho => ?_⟩, rfl⟩
          rcases List.mem_cons.mp ho with ho | ho
          · cases ho
          · exact h.2 o ho
        · exact ⟨h, rfl⟩
      refine hmark.1.act ?_
      rw [hmark.2]
      exact steady_calls h.1 hx hesc hprivate
    | _ =>
      cases hs
      exact hcalls

end Runs

/-! ## The two ways to encode a name -/

section Names

variable {env : Env} {j : Jid}

/-- A name is encoded to the node exactly if the node is decoded to it. -/
theorem node_iff (hesc : Escaping env) (hnode : Canonical env j) {s : String}
    (hs : s = legacyName env.toConfig j ∨ s = replaceLast '@' '%' (legacyName env.toConfig j)) :
    env.prep.node (env.escapedNode s) = j.node ↔ s = env.unescapedNode j.node := by
  rw [hnode.prepared s hs]
  constructor
  · intro heq
    rw [← heq, hesc.inverse]
  · intro heq
    rw [heq, hnode.canonical]

theorem legacyName_ne_empty (hesc : Escaping env) (hnode : Canonical env j) :
    legacyName env.toConfig j ≠ "" := by
  unfold legacyName
  split
  · intro hempty
    have hback := replaceLast_replaceLast (a := '%') hnode.sign
    rw [hempty, replaceLast_of_not_mem (by simp)] at hback
    exact hnode.nonempty hback.symm
  · intro hempty
    have hback := hnode.canonical
    rw [hempty, hesc.empty] at hback
    exact hnode.nonempty hback.symm

theorem reencodable_iff (hesc : Escaping env) (hnode : Canonical env j) :
    env.prep.node (env.escapedNode (if "\\40".toList <:+: j.toString.toList then
        legacyName env.toConfig j else replaceLast '@' '%' (legacyName env.toConfig j))) = j.node ∧
      env.prep.node (env.escapedNode (replaceLast '@' '%' (legacyName env.toConfig j))) = j.node ↔
    Reencodable env j := by
  rw [node_iff hesc hnode (by split <;> simp), node_iff hesc hnode (.inr rfl)]
  unfold Reencodable
  by_cases hplain : env.unescapedNode j.node = j.node
  · have hname : legacyName env.toConfig j = replaceLast '%' '@' j.node := if_pos hplain
    have hback : replaceLast '@' '%' (replaceLast '%' '@' j.node) = j.node :=
      replaceLast_replaceLast hnode.sign
    rw [if_pos hplain, hplain, hname, hback, and_iff_left rfl]
    split
    case isTrue hsign =>
      constructor
      · intro heq hmem
        exact absurd heq (replaceLast_ne (by decide) hmem)
      · intro hno
        exact replaceLast_of_not_mem fun hmem => hno hmem hsign
    case isFalse hsign => exact ⟨fun _ _ => hsign, fun _ => rfl⟩
  · have hname : legacyName env.toConfig j = env.unescapedNode j.node := if_neg hplain
    rw [if_neg hplain, hname]
    constructor
    · rintro ⟨-, heq⟩ hmem
      exact replaceLast_ne (by decide) hmem heq
    · intro hno
      rw [replaceLast_of_not_mem hno, ite_self]
      exact ⟨rfl, rfl⟩

end Names

/-! ## The result -/

section Stable

variable {env : Env} {p : Presence} {node name nick : String}

theorem anchored_newRoom :
    Anchored env (env.prep.node ((newRoom env p name).roomNode env name)) true
      (newRoom env p name) where
  kind := rfl
  room _ := rfl
  occupants _ _ hnp := nomatch hnp
  chat hno := nomatch hno
  cached _ hm := nomatch hm
  subject _ hm := nomatch hm

theorem anchored_privateChat (hname : name ≠ "") :
    Anchored env (env.prep.node (env.escapedNode (replaceLast '@' '%' name))) false
      (privateChat env name nick) where
  kind := rfl
  room hno := nomatch hno
  occupants hno := nomatch hno
  chat _ := by
    refine ⟨rfl, hname, ?_, rfl⟩
    show name ++ "/" ++ nick ≠ ""
    simp
  cached _ hm := nomatch hm
  subject _ hm := nomatch hm

/-- Every stanza of a conversation that starts anchored comes from the node. -/
theorem sentFrom_of_anchored {c : Conversation} {muc : Bool} {tr : List (Room × Context × Event)}
    {r : Room} (h : Anchored env node muc c) (hrun : (life c).Run tr r)
    (hmeets : Machine.Meets (fun r e => Fixed env r e ∧ (muc = true ∨ Private e.2)) tr) :
    SentFrom node r.log := by
  refine (hrun.invariant_of_steps (I := Kept env node muc) ?_
    (fun r e r' hc hs hr => kept_step hr hc.1 hc.2 hs) hmeets).2
  rintro r rfl
  exact ⟨h, fun o ho => nomatch ho⟩

/-- A transport at rest. -/
def idle (env : Env) : Context where
  env := env
  oracle := fun _ => []
  sessions := []
  getBuddy := fun _ => none
  cacheMessages := false

/-- When a resource leaves, the room tells its node. -/
theorem node_of_leave
    (h : ∀ tr r, (life (newRoom env p name)).Run tr r → Machine.Meets (Fixed env) tr →
      SentFrom node r.log) :
    env.prep.node ((newRoom env p name).roomNode env name) = node := by
  have hrun : (life (newRoom env p name)).Run _ _ :=
    (Machine.Run.init rfl).step (e := (idle env, .leave p.fromJid)) rfl
  have hsent := h _ _ hrun (Machine.meets_cons.mpr ⟨⟨rfl, rfl⟩, Machine.meets_nil⟩)
  have hnode := (node_generatePresence (x := idle env) (c := newRoom env p name)
    anchored_newRoom rfl rfl p.toJid.resource 0 (.ofShow .none) "" "" "").1 rfl
  rw [← hnode]
  exact hsent _ (List.mem_append_left _ (List.mem_singleton.mpr rfl))

/-- A message of an occupant tells the node of the private conversation. -/
theorem node_of_message (hname : name ≠ "")
    (h : ∀ tr r, (life (privateChat env name nick)).Run tr r →
      Machine.Meets (fun r e => Fixed env r e ∧ Private e.2) tr → SentFrom node r.log) :
    env.prep.node (env.escapedNode (replaceLast '@' '%' name)) = node := by
  have hrun : (life (privateChat env name nick)).Run _ _ :=
    (Machine.Run.init rfl).step (e := (idle env, .message {} nick false)) rfl
  have hsent := h _ _ hrun (Machine.meets_cons.mpr ⟨⟨⟨rfl, rfl⟩, trivial⟩, Machine.meets_nil⟩)
  have hplain : ∃ head, (privateChat env name nick).address (idle env) nick (.plain {}) =
      .plain head := ⟨_, rfl⟩
  obtain ⟨head, hhead⟩ := hplain
  have hnode := node_address (x := idle env) (c := privateChat env name nick)
    (anchored_privateChat hname) rfl rfl nick (.plain {})
  rw [hhead] at hnode
  rw [← hnode]
  refine hsent ((idle env).sendMessage (.plain head)) (List.mem_append_left _ ?_)
  refine List.mem_map_of_mem (List.mem_reverse.mpr ?_)
  show _ ∈ ((privateChat env name nick).handleMessage (idle env) (.plain {}) nick false).2
  have hraw : (privateChat env name nick).handleRawMessage (idle env) (.plain head) =
      (privateChat env name nick, [(idle env).sendMessage (.plain head)]) := by
    have htype := type_address (x := idle env) (c := privateChat env name nick) nick (.plain {})
    rw [hhead] at htype
    have hchat : head.type ≠ .groupchat := fun hgroup => nomatch htype.mp hgroup
    simp [Conversation.handleRawMessage, hchat, idle, Message.head]
  unfold Conversation.handleMessage
  dsimp only
  rw [hhead, hraw, if_neg (by simp)]
  split
  · exact List.mem_append_left _ (List.mem_singleton.mpr rfl)
  · exact List.mem_singleton.mpr rfl

theorem stable_iff_reencodable (hesc : Escaping env) (hnode : Canonical env p.toJid) :
    Stable env p ↔ Reencodable env p.toJid := by
  rw [← reencodable_iff hesc hnode]
  have hname := legacyName_ne_empty hesc hnode
  have hroom : (newRoom env p (legacyName env.toConfig p.toJid)).roomNode env
      (legacyName env.toConfig p.toJid) = env.escapedNode
        (if "\\40".toList <:+: p.toJid.toString.toList then legacyName env.toConfig p.toJid
          else replaceLast '@' '%' (legacyName env.toConfig p.toJid)) := by
    simp [Conversation.roomNode, newRoom]
  rw [← hroom]
  constructor
  · rintro ⟨hrooms, hchats⟩
    exact ⟨node_of_leave hrooms, node_of_message hname (hchats "")⟩
  · rintro ⟨hfirst, hsecond⟩
    refine ⟨fun tr r hrun hmeets => ?_, fun nick tr r hrun hmeets => ?_⟩
    · refine sentFrom_of_anchored (hfirst ▸ anchored_newRoom) hrun fun e he => ?_
      exact ⟨hmeets e he, .inl rfl⟩
    · refine sentFrom_of_anchored (hsecond ▸ anchored_privateChat hname) hrun fun e he => ?_
      exact ⟨(hmeets e he).1, .inr (hmeets e he).2⟩

end Stable

namespace Sample

/-- A transport that escapes nodes as in XEP-0106. -/
def escaping : Env where
  user := ⟨"bob", "example.org", ""⟩
  unescapedNode s := String.ofList (Escape.unescape s.toList)
  escapedNode s := String.ofList (Escape.escape s.toList)

def joins (node nick : String) : Presence where
  fromJid := ⟨"bob", "example.org", "home"⟩
  toJid := ⟨node, "localhost", nick⟩
  muc := some none

theorem escaping_escaping : Escaping escaping where
  inverse s := by
    show String.ofList (Escape.unescape (String.ofList (Escape.escape s.toList)).toList) = s
    rw [String.toList_ofList, Escape.unescape_escape, String.ofList_toList]
  empty := rfl

theorem canonical_joins (node nick : String) (hne : node ≠ "") (hsign : '@' ∉ node.toList)
    (hcanonical : escaping.escapedNode (escaping.unescapedNode node) = node) :
    Canonical escaping (joins node nick).toJid :=
  ⟨hne, hsign, hcanonical, fun _ _ => rfl⟩

end Sample

/-- A room of another server, joined under a node with `%`. -/
theorem stable_iff_reencodable_bob :
    Reencodable Sample.escaping (Sample.joins "room%conf" "bob").toJid ∧
      Stable Sample.escaping (Sample.joins "room%conf" "bob") := by
  have hcanonical := Sample.canonical_joins "room%conf" "bob" (by decide) (by decide +kernel)
    (by decide +kernel)
  have hreencodable : Reencodable Sample.escaping (Sample.joins "room%conf" "bob").toJid := by
    unfold Reencodable
    rw [if_pos (by decide +kernel)]
    decide +kernel
  have hiff := stable_iff_reencodable (p := Sample.joins "room%conf" "bob")
    Sample.escaping_escaping hcanonical
  exact ⟨hreencodable, hiff.mpr hreencodable⟩

/-- With the text `\40` in the nickname, the room answers from `room\40conf`. A room that is joined
under this node sends private messages from `room%conf`. -/
theorem not_stable_of_sign : Escaping Sample.escaping ∧
    (Canonical Sample.escaping (Sample.joins "room%conf" "bob\\40").toJid ∧
      ¬ Stable Sample.escaping (Sample.joins "room%conf" "bob\\40")) ∧
    Canonical Sample.escaping (Sample.joins "room\\40conf" "bob").toJid ∧
      ¬ Stable Sample.escaping (Sample.joins "room\\40conf" "bob") := by
  have hcanonical := Sample.canonical_joins "room%conf" "bob\\40" (by decide) (by decide +kernel)
    (by decide +kernel)
  have hcanonical' := Sample.canonical_joins "room\\40conf" "bob" (by decide) (by decide +kernel)
    (by decide +kernel)
  refine ⟨Sample.escaping_escaping, ⟨hcanonical, fun hstable => ?_⟩, hcanonical',
    fun hstable => ?_⟩
  · have hnode := node_of_leave hstable.1
    revert hnode
    decide +kernel
  · have hnode := node_of_message (legacyName_ne_empty Sample.escaping_escaping hcanonical')
      (hstable.2 "carol")
    revert hnode
    decide +kernel

end Spectrum.Account.Room
