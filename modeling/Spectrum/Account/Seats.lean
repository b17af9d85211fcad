import Spectrum.Account.Leaving

/-!
# Who takes part in the rooms

`HasRoom` gives the participants of a stored room. Joining, leaving and going offline change
them; everything else that happens to an account is `Seated`: the rooms and their participants,
the rooms that are remembered and the connection stay as they are.
-/

namespace Spectrum.Account

open Lib

/-- A room is stored with these participants. -/
def HasRoom (room : String) (js : List Jid) (cs : Chats) : Prop :=
  ∃ c, (room, c) ∈ cs ∧ c.muc = true ∧ c.jids = js

theorem HasRoom.unique {room : String} {js js' : List Jid} {cs : Chats} (h : HasRoom room js cs)
    (h' : HasRoom room js' cs) (hs : SortedKeys cs) : js = js' := by
  obtain ⟨c, hc, -, rfl⟩ := h
  obtain ⟨d, hd, -, rfl⟩ := h'
  obtain ⟨-, rfl⟩ := Prod.mk.inj (hs.eq_of_key hc hd rfl)
  rfl

theorem HasRoom.find {room : String} {js : List Jid} {cs : Chats} (h : HasRoom room js cs)
    (hs : SortedKeys cs) : ∃ c, cs.find room = some (room, c) ∧ c.muc = true ∧ c.jids = js := by
  obtain ⟨c, hc, hmuc, hjids⟩ := h
  obtain ⟨d, hd⟩ := Chats.exists_find_of_mem hc
  obtain ⟨-, rfl⟩ := Prod.mk.inj (hs.eq_of_key hc (Chats.mem_of_find hd).1 rfl)
  exact ⟨c, hd, hmuc, hjids⟩

/-! ## The methods of a conversation -/

/-- The conversation keeps its kind and its participants. -/
def SameSeats (c d : Conversation) : Prop := d.muc = c.muc ∧ d.jids = c.jids

section Methods

variable {x : Context} {c d e : Conversation}

theorem SameSeats.refl (c : Conversation) : SameSeats c c := ⟨rfl, rfl⟩

theorem SameSeats.trans (h : SameSeats c d) (h' : SameSeats d e) : SameSeats c e :=
  ⟨h'.1.trans h.1, h'.2.trans h.2⟩

theorem sameSeats_sendToJids (m : Message) (js : List Jid) (c : Conversation) :
    SameSeats c (c.sendToJids x m js).1 := by
  induction js generalizing c with
  | nil => exact .refl c
  | cons j js ih =>
    unfold Conversation.sendToJids
    split
    · exact ih c
    · dsimp only
      split
      · exact ⟨rfl, rfl⟩
      · exact (ih { c with subject := some (m.setTo j) })

theorem sameSeats_handleRawMessage (m : Message) (c : Conversation) :
    SameSeats c (c.handleRawMessage x m).1 := by
  unfold Conversation.handleRawMessage
  split
  · split <;> exact ⟨rfl, rfl⟩
  · split
    · exact ⟨rfl, rfl⟩
    · exact sameSeats_sendToJids m _ c

theorem sameSeats_handleRawMessages (ms : List Message) (c : Conversation) :
    SameSeats c (c.handleRawMessages x ms).1 := by
  induction ms generalizing c with
  | nil => exact .refl c
  | cons m ms ih => exact (sameSeats_handleRawMessage m c).trans (ih _)

theorem sameSeats_handleMessage (m : Message) (nickname : String) (carbon : Bool)
    (c : Conversation) : SameSeats c (c.handleMessage x m nickname carbon).1 := by
  unfold Conversation.handleMessage
  dsimp only
  split
  · exact sameSeats_handleRawMessages _ c
  · split
    · exact (sameSeats_handleRawMessage _ c).trans (sameSeats_handleRawMessages _ _)
    · exact sameSeats_handleRawMessage _ c

theorem sameSeats_changeParticipant (nick : String) (flag : BitVec 32) (status : StatusType)
    (statusMessage newname iconhash nickAlias : String) (c : Conversation) :
    SameSeats c
      (c.changeParticipant x nick flag status statusMessage newname iconhash nickAlias).2.1 := by
  have htag := (plain_changeParticipant (x := x) nick flag status statusMessage newname iconhash
    nickAlias c).tag
  simp only [Conversation.tag, Tag.mk.injEq] at htag
  exact ⟨htag.2.2.1, jids_generatePresence _ _ _ _ _ _ _⟩

theorem sameSeats_sendSubject (c : Conversation) : SameSeats c (c.sendSubject x).1 := by
  unfold Conversation.sendSubject
  split
  · split <;> exact ⟨rfl, rfl⟩
  · exact .refl c

end Methods

/-! ## The account -/

/-- The rooms keep their participants. -/
structure Seated (a b : Account) : Prop where
  env : b.env = a.env
  joinedRooms : b.joinedRooms = a.joinedRooms
  connected : b.connected = a.connected
  rooms : ∀ room js, HasRoom room js b.convs ↔ HasRoom room js a.convs

/-- The participants of every room change by a function of the room. -/
theorem hasRoom_map_jids {cs : Chats} {g : String × Conversation → String × Conversation}
    {f : String → List Jid → List Jid}
    (hg : ∀ kc ∈ cs, (g kc).1 = kc.1 ∧ (g kc).2.muc = kc.2.muc ∧
      (kc.2.muc = true → (g kc).2.jids = f kc.1 kc.2.jids)) (room : String) (js' : List Jid) :
    HasRoom room js' (cs.map g) ↔ ∃ js, HasRoom room js cs ∧ js' = f room js := by
  constructor
  · rintro ⟨c, hc, hmuc, rfl⟩
    obtain ⟨kd, hkd, heq⟩ := List.mem_map.mp hc
    obtain ⟨hkey, hsame, hjids⟩ := hg kd hkd
    rw [heq] at hkey hsame hjids
    dsimp only at hkey hsame hjids
    rw [hkey]
    exact ⟨kd.2.jids, ⟨kd.2, hkd, hsame ▸ hmuc, rfl⟩, hjids (hsame ▸ hmuc)⟩
  · rintro ⟨js, ⟨c, hc, hmuc, rfl⟩, rfl⟩
    obtain ⟨hkey, hsame, hjids⟩ := hg _ hc
    refine ⟨(g (room, c)).2, ?_, hsame.trans hmuc, hjids hmuc⟩
    exact List.mem_map.mpr ⟨_, hc, Prod.ext hkey rfl⟩

theorem hasRoom_map {cs : Chats} {g : String × Conversation → String × Conversation}
    (hg : ∀ kc ∈ cs, (g kc).1 = kc.1 ∧ SameSeats kc.2 (g kc).2) (room : String) (js : List Jid) :
    HasRoom room js (cs.map g) ↔ HasRoom room js cs := by
  rw [hasRoom_map_jids (f := fun _ js => js) fun kc hkc =>
    ⟨(hg kc hkc).1, (hg kc hkc).2.1, fun _ => (hg kc hkc).2.2⟩]
  simp

namespace Seated

variable {a b c : Account}

theorem refl (a : Account) : Seated a a := ⟨rfl, rfl, rfl, fun _ _ => Iff.rfl⟩

theorem trans (h : Seated a b) (h' : Seated b c) : Seated a c :=
  ⟨h'.env.trans h.env, h'.joinedRooms.trans h.joinedRooms, h'.connected.trans h.connected,
    fun room js => (h'.rooms room js).trans (h.rooms room js)⟩

/-- What the rooms depend on. -/
def base (a : Account) := (a.env, a.joinedRooms, a.connected, a.convs)

theorem of_base (h : base b = base a) : Seated a b := by
  simp only [base, Prod.mk.injEq] at h
  obtain ⟨henv, hrooms, hconnected, hconvs⟩ := h
  exact ⟨henv, hrooms, hconnected, fun room js => by rw [hconvs]⟩

theorem foldl {α : Type} {f : Account → α → Account} {xs : List α}
    (hf : ∀ x ∈ xs, ∀ a, Seated a (f a x)) (a : Account) : Seated a (xs.foldl f a) := by
  induction xs generalizing a with
  | nil => exact refl a
  | cons x xs ih =>
    exact (hf x List.mem_cons_self a).trans (ih (fun y hy => hf y (List.mem_cons_of_mem x hy)) _)

theorem call (key : String) {f : Context → Conversation → Conversation × List Output}
    (hf : ∀ x c, SameSeats c (f x c).1) (a : Account) : Seated a (a.call key f) := by
  unfold Account.call
  split
  · exact of_base rfl
  · split
    · exact of_base rfl
    · refine ⟨rfl, rfl, rfl, fun room js => ?_⟩
      refine hasRoom_map (fun kc _ => ?_) room js
      dsimp only
      split
      · exact ⟨rfl, hf _ _⟩
      · exact ⟨rfl, .refl _⟩

theorem callAll {f : String → Conversation → Conversation × List Output}
    (hf : ∀ key c, SameSeats c (f key c).1) (a : Account) : Seated a (a.callAll f) := by
  unfold Account.callAll
  split
  · exact ⟨rfl, rfl, rfl, hasRoom_map fun kc _ => ⟨rfl, hf _ _⟩⟩
  · exact of_base rfl

/-- A chat is stored under a new name. -/
theorem addConversation {c : Conversation} (hmuc : c.muc = false)
    (hfresh : a.convs.find c.legacyName = none) : Seated a (a.addConversation c) := by
  refine ⟨rfl, rfl, rfl, fun room js => ?_⟩
  constructor
  · rintro ⟨d, hd, hroom, hjids⟩
    rcases Chats.mem_of_mem_addConversation hd with heq | hd
    · obtain ⟨-, rfl⟩ := Prod.mk.inj heq
      rw [hmuc] at hroom
      cases hroom
    · exact ⟨d, hd, hroom, hjids⟩
  · rintro ⟨d, hd, hroom, hjids⟩
    refine ⟨d, mem_upsert_of_ne hd ?_, hroom, hjids⟩
    intro heq
    have hnone := List.find?_eq_none.mp hfresh _ hd
    exact hnone (by simpa using heq)

end Seated

/-! ## Becoming ready -/

theorem seated_setReady (a : Account) : Seated a a.setReady := Seated.of_base rfl

theorem seated_onConnectingTimeout (a : Account) : Seated a a.onConnectingTimeout := by
  unfold onConnectingTimeout
  split
  · exact Seated.refl a
  · dsimp only
    split <;> exact Seated.of_base rfl

theorem seated_sendCapabilitiesRequest (j : Jid) (a : Account) :
    Seated a (a.sendCapabilitiesRequest j).2 := by
  unfold sendCapabilitiesRequest
  split
  · exact seated_onConnectingTimeout a
  · exact Seated.refl a

theorem seated_checkReady (p : Presence) (a : Account) : Seated a (a.checkReady p) := by
  have hcaps := seated_sendCapabilitiesRequest p.fromJid a
  unfold checkReady
  split
  · exact Seated.refl a
  · split
    · split
      · rename_i b heq
        rw [heq] at hcaps
        exact hcaps.trans (seated_setReady b)
      · rename_i b heq
        rw [heq] at hcaps
        exact hcaps.trans (Seated.of_base rfl)
    · split <;> exact Seated.of_base rfl

/-! ## Presences to the transport -/

theorem seated_resetResources (a : Account) : Seated a a.resetResources := by
  refine Seated.callAll (fun _ c => ?_) a
  split <;> exact ⟨rfl, rfl⟩

theorem seated_setCacheMessages (cacheMessages : Bool) (a : Account) :
    Seated a (a.setCacheMessages cacheMessages) := by
  have hchats : Seated a a.sendCachedChatMessages := by
    refine Seated.callAll (fun _ c => ?_) a
    split <;> exact ⟨rfl, rfl⟩
  unfold setCacheMessages
  dsimp only
  split
  · exact hchats.trans (Seated.of_base rfl)
  · exact Seated.of_base rfl

theorem seated_forward (key : String) (ms : List Message) (nickname : String) (carbon : Bool)
    (a : Account) : Seated a (a.forward key ms nickname carbon) :=
  Seated.foldl (fun m _ b =>
    Seated.call key (fun _ c => sameSeats_handleMessage m nickname carbon c) b) a

theorem seated_addChat {name : String} {a : Account} (h : a.convs.getConversation name = none) :
    Seated a (a.addConversation (Conversation.create a.env name false)) :=
  Seated.addConversation rfl (Chats.find_eq_none h)

theorem seated_handleConvMessagePayload (payload : ConversationMessage) (subject : Bool)
    (a : Account) : Seated a (a.handleConvMessagePayload payload subject) := by
  unfold handleConvMessagePayload
  dsimp only
  split
  · rename_i hnone
    split
    · exact Seated.refl a
    · exact (seated_addChat hnone).trans (seated_forward _ _ _ _ _)
  · split
    · split
      · exact seated_forward _ _ _ _ a
      · rename_i hnone
        have hadd : Seated a
            (a.addConversation (privateChat a.env payload.buddyname payload.nickname)) :=
          Seated.addConversation rfl (Chats.find_eq_none hnone)
        exact hadd.trans (seated_forward _ _ _ _ _)
    · exact seated_forward _ _ _ _ a

theorem seated_handleAttentionPayload (payload : ConversationMessage) (a : Account) :
    Seated a (a.handleAttentionPayload payload) := by
  unfold handleAttentionPayload
  dsimp only
  split
  · exact seated_forward _ _ _ _ a
  · rename_i hnone
    exact (seated_addChat hnone).trans (seated_forward _ _ _ _ _)

theorem seated_forwardExisting (name : String) (payload : Payload) (a : Account) :
    Seated a (a.forwardExisting name payload) := by
  unfold forwardExisting
  split
  · exact Seated.refl a
  · exact seated_forward _ _ _ _ a

theorem seated_sendMessage (key : String) (m : Message) (a : Account) :
    Seated a (a.sendMessage key m) := Seated.call key (fun _ _ => ⟨rfl, rfl⟩) a

theorem seated_messageReceived (m : Message) (a : Account) : Seated a (a.messageReceived m) := by
  have hreceived : Seated a (a.handleMessageReceived m) := by
    unfold handleMessageReceived
    dsimp only
    split
    · exact Seated.refl a
    · split
      · rename_i hnone
        exact (Seated.addConversation rfl hnone).trans (seated_sendMessage _ _ _)
      · split
        · exact Seated.of_base rfl
        · split
          · split
            · exact seated_sendMessage _ _ _
            · rename_i hnone
              have hadd : Seated a
                  (a.addConversation
                    (privateChat a.env (a.buddyName m.head.toJid) m.head.toJid.resource)) :=
                Seated.addConversation rfl hnone
              exact hadd.trans (seated_sendMessage _ _ _)
          · exact seated_sendMessage _ _ _
  unfold messageReceived
  dsimp only
  split
  · exact Seated.refl a
  · split
    · exact Seated.refl a
    · exact hreceived

/-! ## Occupants -/

theorem seated_announce (key : String) (p : ParticipantChange) (a : Account) :
    Seated a (a.announce key p).2 := by
  unfold announce
  dsimp only
  split
  · exact Seated.of_base rfl
  · exact Seated.call key (fun _ c => sameSeats_changeParticipant _ _ _ _ _ _ _ c) a

theorem seated_handleRoomChangedPayload (room nickname : String) (a : Account) :
    Seated a (a.handleRoomChangedPayload room nickname) := by
  unfold handleRoomChangedPayload
  split
  · exact Seated.refl a
  · exact Seated.call _ (fun _ _ => ⟨rfl, rfl⟩) a

end Spectrum.Account
