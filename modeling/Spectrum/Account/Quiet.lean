import Spectrum.Account.User

/-!
# What handling a stanza leaves alone

A conversation is named once and stays a room or a chat: no method of a conversation changes its
`tag`. Only `leaveRoom` and the creation of a conversation change the tags that are stored.
Everything else an account does is `Quiet`: it keeps the tags and leaves no room.
-/

namespace Spectrum.Account

/-- What no method changes. -/
structure Tag where
  legacyName : String
  room : String
  muc : Bool
  freed : Bool
  deriving DecidableEq

def Conversation.tag (c : Conversation) : Tag := ⟨c.legacyName, c.room, c.muc, c.freed⟩

/-- The output is a stanza, or a message for the backend. -/
def Output.isStanza : Output → Bool
  | .message _ _ | .presence _ | .toBackend _ _ => true
  | _ => false

def Output.isLeft : Output → Bool
  | .roomLeft _ => true
  | _ => false

theorem Output.isLeft_of_isStanza {o : Output} (h : o.isStanza = true) : o.isLeft = false := by
  cases o <;> first | rfl | cases h

/-! ## The methods of a conversation -/

/-- The result of a method that keeps the tag and sends stanzas. -/
structure Plain (c : Conversation) (r : Conversation × List Output) : Prop where
  tag : r.1.tag = c.tag
  stanzas : ∀ o ∈ r.2, o.isStanza = true

section Methods

variable {x : Context} {c : Conversation}

theorem Plain.silent {d : Conversation} (h : d.tag = c.tag) : Plain c (d, []) :=
  ⟨h, fun _ ho => nomatch ho⟩

theorem Plain.append {r r' : Conversation × List Output} (h : Plain c r) (h' : Plain r.1 r') :
    Plain c (r'.1, r.2 ++ r'.2) := by
  refine ⟨h'.tag.trans h.tag, fun o ho => ?_⟩
  rcases List.mem_append.mp ho with ho | ho
  · exact h.stanzas o ho
  · exact h'.stanzas o ho

theorem plain_sendToJids (m : Message) (js : List Jid) (c : Conversation) :
    Plain c (c.sendToJids x m js) := by
  induction js generalizing c with
  | nil => exact Plain.silent rfl
  | cons j js ih =>
    unfold Conversation.sendToJids
    split
    · refine ⟨(ih c).tag, fun o ho => ?_⟩
      rcases List.mem_cons.mp ho with rfl | ho
      · rfl
      · exact (ih c).stanzas o ho
    · dsimp only
      split
      · exact Plain.silent rfl
      · have hrest := ih { c with subject := some (m.setTo j) }
        refine ⟨hrest.tag, fun o ho => ?_⟩
        rcases List.mem_cons.mp ho with rfl | ho
        · rfl
        · exact hrest.stanzas o ho

theorem plain_handleRawMessage (m : Message) (c : Conversation) :
    Plain c (c.handleRawMessage x m) := by
  unfold Conversation.handleRawMessage
  split
  · split
    · exact Plain.silent rfl
    · refine ⟨rfl, fun o ho => ?_⟩
      rw [List.mem_singleton.mp ho]
      rfl
  · split
    · exact Plain.silent rfl
    · exact plain_sendToJids m _ c

theorem plain_handleRawMessages (ms : List Message) (c : Conversation) :
    Plain c (c.handleRawMessages x ms) := by
  induction ms generalizing c with
  | nil => exact Plain.silent rfl
  | cons m ms ih => exact (plain_handleRawMessage m c).append (ih _)

theorem plain_handleMessage (m : Message) (nickname : String) (carbon : Bool) (c : Conversation) :
    Plain c (c.handleMessage x m nickname carbon) := by
  unfold Conversation.handleMessage
  dsimp only
  split
  · exact plain_handleRawMessages _ c
  · split
    · exact (plain_handleRawMessage _ c).append (plain_handleRawMessages _ _)
    · exact plain_handleRawMessage _ c

theorem plain_sendCachedMessages (toJid : Option Jid) (c : Conversation) :
    Plain c (c.sendCachedMessages x toJid) := by
  refine ⟨rfl, fun o ho => ?_⟩
  obtain ⟨m, -, rfl⟩ := List.mem_map.mp ho
  rfl

/-- The own presence of the user sets the flag, any other presence changes nothing. -/
theorem generatePresence_cases (nickname : String) (flag : BitVec 32) (status : StatusType)
    (statusMessage newname iconhash : String) (c : Conversation) :
    (c.generatePresence x nickname flag status statusMessage newname iconhash).2 = c ∧
      110 ∉ (c.generatePresence x nickname flag status statusMessage newname iconhash).1.codes ∨
    (c.generatePresence x nickname flag status statusMessage newname iconhash).2 =
        { c with nicknameChanged := false, sentInitialPresence := true } ∧
      110 ∈ (c.generatePresence x nickname flag status statusMessage newname iconhash).1.codes := by
  unfold Conversation.generatePresence
  dsimp only
  split
  · exact .inl ⟨rfl, by simp⟩
  · dsimp only
    by_cases hown : c.nickname = nickname
    · exact .inr ⟨by simp [hown], by simp [Conversation.statusCodes, hown]⟩
    · refine .inl ⟨by simp [hown], ?_⟩
      simp only [Conversation.statusCodes, hown, decide_false, Bool.false_eq_true, if_false,
        List.nil_append]
      split <;> simp

@[simp] theorem tag_generatePresence (nickname : String) (flag : BitVec 32) (status : StatusType)
    (statusMessage newname iconhash : String) (c : Conversation) :
    (c.generatePresence x nickname flag status statusMessage newname iconhash).2.tag = c.tag := by
  rcases @generatePresence_cases x nickname flag status statusMessage newname iconhash c with
    ⟨h, -⟩ | ⟨h, -⟩
  · rw [h]
  · rw [h]
    rfl

theorem plain_renameTo (toJid : Jid) (nickname : String) (c : Conversation) :
    Plain c (c.renameTo x toJid nickname) := by
  unfold Conversation.renameTo
  split
  · refine ⟨?_, ?_⟩
    · simp only [Conversation.selfPresence, tag_generatePresence]
      exact tag_generatePresence (x := x) nickname 0 (.ofShow .online) "" "" ""
        { c with nickname := nickname }
    · simp [Output.isStanza]
  · exact Plain.silent rfl

theorem plain_sendParticipants (toJid : Jid) (nickname : String) (c : Conversation) :
    Plain c (c.sendParticipants x toJid nickname) := by
  have hrename := plain_renameTo (x := x) toJid nickname c
  refine ⟨?_, fun o ho => ?_⟩
  · exact (tag_generatePresence (x := x) _ 0 (.ofShow .online) "" "" "" _).trans hrename.tag
  · rcases List.mem_append.mp ho with ho | ho
    · exact hrename.stanzas o ho
    · rcases List.mem_cons.mp ho with rfl | ho
      · rfl
      · obtain ⟨np, -, rfl⟩ := List.mem_map.mp ho
        rfl

theorem plain_addParticipant (p : Presence) (c : Conversation) :
    Plain c (addParticipant p x c) := by
  have hadd : Plain c (c.addJid p.fromJid, []) := Plain.silent rfl
  have hparticipants := hadd.append (plain_sendParticipants (x := x) p.fromJid p.toJid.resource _)
  exact hparticipants.append (plain_sendCachedMessages (x := x) (some p.fromJid) _)

theorem plain_removeJid (j : Jid) (c : Conversation) : Plain c (c.removeJid x j) := by
  unfold Conversation.removeJid
  dsimp only
  split
  · refine ⟨?_, fun o ho => ?_⟩
    · exact tag_generatePresence (x := x) c.nickname 0 (.ofShow .none) "" "" "" c
    · rw [List.mem_singleton.mp ho]
      rfl
  · exact Plain.silent rfl

theorem plain_changeParticipant (nick : String) (flag : BitVec 32) (status : StatusType)
    (statusMessage newname iconhash nickAlias : String) (c : Conversation) :
    Plain c
      (c.changeParticipant x nick flag status statusMessage newname iconhash nickAlias).2 := by
  refine ⟨?_, fun o ho => ?_⟩
  · exact tag_generatePresence (x := x) _ flag status statusMessage newname iconhash c
  · obtain ⟨j, -, rfl⟩ := List.mem_map.mp ho
    rfl

theorem plain_sendSubject (c : Conversation) : Plain c (c.sendSubject x) := by
  unfold Conversation.sendSubject
  split
  · split
    · refine ⟨rfl, fun o ho => ?_⟩
      rw [List.mem_singleton.mp ho]
      rfl
    · exact Plain.silent rfl
  · exact Plain.silent rfl

end Methods

/-! ## The stored tags -/

namespace Chats

def tags (cs : Chats) : List (String × Tag) := cs.map fun kc => (kc.1, kc.2.tag)

theorem exists_of_tags {cs cs' : Chats} (h : cs'.tags = cs.tags) {kc : String × Conversation}
    (hkc : kc ∈ cs') : ∃ c, (kc.1, c) ∈ cs ∧ c.tag = kc.2.tag := by
  have hmem : (kc.1, kc.2.tag) ∈ cs.tags := h ▸ List.mem_map.mpr ⟨kc, hkc, rfl⟩
  obtain ⟨⟨key, c⟩, hc, heq⟩ := List.mem_map.mp hmem
  obtain ⟨hkey, htag⟩ := Prod.mk.injEq .. ▸ heq
  exact ⟨c, hkey ▸ hc, htag⟩

theorem mem_of_find {key : String} {cs : Chats} {kc : String × Conversation}
    (h : cs.find key = some kc) : kc ∈ cs ∧ kc.1 = key := by
  unfold find at h
  exact ⟨List.mem_of_find?_eq_some h, by simpa using List.find?_some h⟩

theorem mem_of_getConversation {name : String} {cs : Chats} {kc : String × Conversation}
    (h : cs.getConversation name = some kc) : kc ∈ cs ∧ cs.find kc.1 = some kc := by
  obtain ⟨kd, -, hfind⟩ := Option.bind_eq_some_iff.mp h
  have hkey := (mem_of_find hfind).2
  exact ⟨(mem_of_find hfind).1, hkey ▸ hfind⟩

theorem tags_update (key : String) {f : Conversation → Conversation} (hf : ∀ c, (f c).tag = c.tag)
    (cs : Chats) : (cs.update key f).tags = cs.tags := by
  simp only [tags, update, List.map_map]
  refine List.map_congr_left fun kc _ => ?_
  by_cases hkey : kc.1 = key
  · simp [hkey, hf]
  · simp [hkey]

theorem tags_map {f : String → Conversation → Conversation} (hf : ∀ key c, (f key c).tag = c.tag)
    (cs : Chats) : tags (cs.map fun kc => (kc.1, f kc.1 kc.2)) = cs.tags := by
  simp only [tags, List.map_map]
  exact List.map_congr_left fun kc _ => by simp [hf]

end Chats

/-- The account keeps the tags of its conversations, and leaves no room. -/
structure Quiet (a a' : Account) : Prop where
  env : a'.env = a.env
  joinedRooms : a'.joinedRooms = a.joinedRooms
  tags : a'.convs.tags = a.convs.tags
  fault : a.fault = true → a'.fault = true
  log : ∃ outs, a'.log = outs ++ a.log ∧ ∀ o ∈ outs, o.isLeft = false

namespace Quiet

variable {a b c : Account}

theorem refl (a : Account) : Quiet a a := ⟨rfl, rfl, rfl, id, [], rfl, fun _ h => nomatch h⟩

theorem trans (h : Quiet a b) (h' : Quiet b c) : Quiet a c := by
  obtain ⟨outs, hlog, hleft⟩ := h.log
  obtain ⟨outs', hlog', hleft'⟩ := h'.log
  refine ⟨h'.env.trans h.env, h'.joinedRooms.trans h.joinedRooms, h'.tags.trans h.tags,
    h'.fault ∘ h.fault, outs' ++ outs, by rw [hlog', hlog, List.append_assoc], fun o ho => ?_⟩
  rcases List.mem_append.mp ho with ho | ho
  · exact hleft' o ho
  · exact hleft o ho

theorem of_eq (henv : b.env = a.env) (hrooms : b.joinedRooms = a.joinedRooms)
    (hconvs : b.convs = a.convs) (hlog : b.log = a.log) (hfault : a.fault = true → b.fault = true) :
    Quiet a b :=
  ⟨henv, hrooms, by rw [hconvs], hfault, [], hlog, fun _ h => nomatch h⟩

theorem setFault (a : Account) : Quiet a a.setFault := of_eq rfl rfl rfl rfl fun _ => rfl

theorem emit (a : Account) {outs : List Output} (h : ∀ o ∈ outs, o.isLeft = false) :
    Quiet a (a.emit outs) :=
  ⟨rfl, rfl, rfl, id, outs.reverse, rfl, fun o ho => h o (List.mem_reverse.mp ho)⟩

theorem call (key : String) {f : Context → Conversation → Conversation × List Output}
    (hf : ∀ x c, Plain c (f x c)) (a : Account) : Quiet a (a.call key f) := by
  unfold Account.call
  split
  · exact setFault a
  · split
    · exact setFault a
    · rename_i c _ _
      have hupdate : Quiet a { a with convs := a.convs.update key fun c => (f a.toContext c).1 } :=
        ⟨rfl, rfl, Chats.tags_update key (fun c => (hf _ c).tag) _, id, [], rfl,
          fun _ h => nomatch h⟩
      exact hupdate.trans
        (emit _ fun o ho => Output.isLeft_of_isStanza ((hf a.toContext c).stanzas o ho))

theorem callAll {f : String → Conversation → Conversation × List Output}
    (hf : ∀ key c, Plain c (f key c)) (a : Account) : Quiet a (a.callAll f) := by
  unfold Account.callAll
  split
  · have hmap : Quiet a { a with convs := a.convs.map fun kc => (kc.1, (f kc.1 kc.2).1) } :=
      ⟨rfl, rfl, Chats.tags_map (f := fun key c => (f key c).1) (fun key c => (hf key c).tag) _,
        id, [], rfl, fun _ h => nomatch h⟩
    refine hmap.trans (emit _ fun o ho => ?_)
    obtain ⟨kc, -, hout⟩ := List.mem_flatMap.mp ho
    exact Output.isLeft_of_isStanza ((hf kc.1 kc.2).stanzas o hout)
  · exact setFault a

end Quiet

/-! ## Quiet operations -/

theorem quiet_sendCachedChatMessages (a : Account) : Quiet a a.sendCachedChatMessages := by
  refine Quiet.callAll (fun _ c => ?_) a
  split
  · exact Plain.silent rfl
  · exact plain_sendCachedMessages _ c

theorem quiet_resetResources (a : Account) : Quiet a a.resetResources := by
  refine Quiet.callAll (fun _ c => ?_) a
  split
  · exact Plain.silent rfl
  · exact Plain.silent rfl

theorem quiet_clearJids (a : Account) : Quiet a a.clearJids := by
  refine Quiet.callAll (fun _ c => ?_) a
  exact Plain.silent rfl

theorem quiet_setCacheMessages (cacheMessages : Bool) (a : Account) :
    Quiet a (a.setCacheMessages cacheMessages) := by
  unfold setCacheMessages
  dsimp only
  split
  · exact (quiet_sendCachedChatMessages a).trans (Quiet.of_eq rfl rfl rfl rfl id)
  · exact Quiet.of_eq rfl rfl rfl rfl id

theorem quiet_goOffline (a : Account) : Quiet a a.goOffline := by
  have hresources : Quiet a { a with resources := 0 } := Quiet.of_eq rfl rfl rfl rfl id
  exact (hresources.trans (quiet_clearJids _)).trans (quiet_setCacheMessages true _)

theorem quiet_setReady (a : Account) : Quiet a a.setReady := by
  have hready : Quiet a { a with readyForConnect := true } := Quiet.of_eq rfl rfl rfl rfl id
  exact hready.trans (Quiet.emit _ (by simp [Output.isLeft]))

theorem quiet_onConnectingTimeout (a : Account) : Quiet a a.onConnectingTimeout := by
  unfold onConnectingTimeout
  split
  · exact Quiet.refl a
  · have htimer : Quiet a { a with reconnectTimer := false } := Quiet.of_eq rfl rfl rfl rfl id
    have hready := htimer.trans (quiet_setReady _)
    dsimp only
    split
    · exact hready
    · exact hready.trans (Quiet.emit _ (by simp [Output.isLeft]))

theorem quiet_sendCapabilitiesRequest (j : Jid) (a : Account) :
    Quiet a (a.sendCapabilitiesRequest j).2 := by
  unfold sendCapabilitiesRequest
  split
  · exact quiet_onConnectingTimeout a
  · exact Quiet.refl a

theorem quiet_checkReady (p : Presence) (a : Account) : Quiet a (a.checkReady p) := by
  have hcaps := quiet_sendCapabilitiesRequest p.fromJid a
  unfold checkReady
  split
  · exact Quiet.refl a
  · split
    · split
      · rename_i b heq
        rw [heq] at hcaps
        exact hcaps.trans (quiet_setReady b)
      · rename_i b heq
        rw [heq] at hcaps
        exact hcaps.trans (Quiet.of_eq rfl rfl rfl rfl id)
    · split
      · exact quiet_setReady a
      · exact Quiet.of_eq rfl rfl rfl rfl id

theorem quiet_changeLegacyPresence (a : Account) : Quiet a a.changeLegacyPresence := by
  unfold changeLegacyPresence
  split
  · exact Quiet.refl a
  · split
    · split
      · exact quiet_goOffline a
      · exact (Quiet.emit a (by simp [Output.isLeft])).trans (quiet_setCacheMessages false _)
    · split
      · exact quiet_goOffline a
      · exact Quiet.emit a (by simp [Output.isLeft])

theorem quiet_forward (key : String) (ms : List Message) (nickname : String) (carbon : Bool)
    (a : Account) : Quiet a (a.forward key ms nickname carbon) := by
  unfold forward
  induction ms generalizing a with
  | nil => exact Quiet.refl a
  | cons m ms ih =>
    exact (Quiet.call key (fun _ c => plain_handleMessage m nickname carbon c) a).trans (ih _)

theorem quiet_forwardExisting (name : String) (payload : Payload) (a : Account) :
    Quiet a (a.forwardExisting name payload) := by
  unfold forwardExisting
  split
  · exact Quiet.refl a
  · exact quiet_forward _ _ _ _ a

theorem quiet_handleConvMessageAckPayload (payload : ConversationMessage) (a : Account) :
    Quiet a (a.handleConvMessageAckPayload payload) := by
  unfold handleConvMessageAckPayload
  split
  · exact Quiet.refl a
  · exact quiet_forwardExisting _ _ a

theorem quiet_handleRoomChangedPayload (room nickname : String) (a : Account) :
    Quiet a (a.handleRoomChangedPayload room nickname) := by
  unfold handleRoomChangedPayload
  split
  · exact Quiet.refl a
  · refine Quiet.call _ (fun _ c => ?_) a
    exact Plain.silent rfl

theorem quiet_announce (key : String) (p : ParticipantChange) (a : Account) :
    Quiet a (a.announce key p).2 := by
  unfold announce
  dsimp only
  split
  · exact Quiet.setFault a
  · exact Quiet.call key (fun _ c => plain_changeParticipant _ _ _ _ _ _ _ c) a

theorem quiet_sendMessage (key : String) (m : Message) (a : Account) :
    Quiet a (a.sendMessage key m) :=
  Quiet.call key (fun _ _ => ⟨rfl, by simp [Output.isStanza]⟩) a

end Spectrum.Account
