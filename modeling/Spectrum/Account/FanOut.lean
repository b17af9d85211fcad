import Spectrum.Account.Seats
import Spectrum.Account.Joins

/-!
# Messages to the participants of a room

`Conversation::handleRawMessage` sends a message of a room to every JID of `m_jids`. A resource takes
part in a room once: `handlePresence` looks it up before it joins, and everything else that happens to
an account leaves the participants of a room as they are or takes some away (`Fewer`).
-/

namespace Spectrum.Account

open Lib

/-- Nobody has joined a room. -/
def Fewer (a b : Account) : Prop :=
  ∀ room js, HasRoom room js b.convs → ∃ js', HasRoom room js' a.convs ∧ js.Sublist js'

/-- No resource takes part in a room twice. -/
def Distinct (a : Account) : Prop := ∀ room js, HasRoom room js a.convs → js.Nodup

namespace Fewer

variable {a b c : Account}

theorem refl (a : Account) : Fewer a a := fun _ js h => ⟨js, h, List.Sublist.refl js⟩

theorem trans (h : Fewer a b) (h' : Fewer b c) : Fewer a c := by
  intro room js hjs
  obtain ⟨js', hjs', hsub⟩ := h' room js hjs
  obtain ⟨js'', hjs'', hsub'⟩ := h room js' hjs'
  exact ⟨js'', hjs'', hsub.trans hsub'⟩

theorem distinct (h : Fewer a b) (ha : Distinct a) : Distinct b := by
  intro room js hjs
  obtain ⟨js', hjs', hsub⟩ := h room js hjs
  exact (ha room js' hjs').sublist hsub

theorem of_seated (h : Seated a b) : Fewer a b := fun room js hjs =>
  ⟨js, (h.rooms room js).mp hjs, List.Sublist.refl js⟩

/-- Every conversation comes from one of the same kind with the same participants or more. -/
theorem of_mem (h : ∀ kd ∈ b.convs, ∃ c, (kd.1, c) ∈ a.convs ∧ kd.2.muc = c.muc ∧
    kd.2.jids.Sublist c.jids) : Fewer a b := by
  rintro room js ⟨d, hd, hmuc, rfl⟩
  obtain ⟨c, hc, hsame, hsub⟩ := h _ hd
  exact ⟨c.jids, ⟨c, hc, hsame ▸ hmuc, rfl⟩, hsub⟩

theorem foldl {α : Type} {f : Account → α → Account} {xs : List α} (hf : ∀ x a, Fewer a (f a x))
    (a : Account) : Fewer a (xs.foldl f a) := by
  induction xs generalizing a with
  | nil => exact refl a
  | cons x xs ih => exact (hf x a).trans (ih _)

/-- A method that takes participants away. -/
theorem call (key : String) {f : Context → Conversation → Conversation × List Output}
    (hf : ∀ x c, (f x c).1.muc = c.muc ∧ (f x c).1.jids.Sublist c.jids) (a : Account) :
    Fewer a (a.call key f) := by
  unfold Account.call
  split
  · exact refl a
  · split
    · exact refl a
    · refine of_mem fun kd hkd => ?_
      obtain ⟨kc, hkc, rfl⟩ := List.mem_map.mp hkd
      refine ⟨kc.2, ?_, ?_⟩
      · split
        · exact hkc
        · exact hkc
      · split
        · exact hf _ _
        · exact ⟨rfl, List.Sublist.refl _⟩

theorem callAll {f : String → Conversation → Conversation × List Output}
    (hf : ∀ key c, (f key c).1.muc = c.muc ∧ (f key c).1.jids.Sublist c.jids) (a : Account) :
    Fewer a (a.callAll f) := by
  unfold Account.callAll
  split
  · refine of_mem fun kd hkd => ?_
    obtain ⟨kc, hkc, rfl⟩ := List.mem_map.mp hkd
    exact ⟨kc.2, hkc, hf _ _⟩
  · exact refl a

end Fewer

/-! ## Leaving -/

theorem mem_resetRooms {key name : String} {cs : Chats} {kd : String × Conversation}
    (h : kd ∈ (Chats.resetRooms key name cs).2) : ∃ c, (kd.1, c) ∈ cs ∧ SameSeats c kd.2 := by
  induction cs generalizing name with
  | nil => cases h
  | cons kc cs ih =>
    rw [Chats.resetRooms] at h
    rcases List.mem_cons.mp h with rfl | h
    · refine ⟨kc.2, List.mem_cons_self, ?_⟩
      dsimp only
      split
      · exact ⟨rfl, rfl⟩
      · exact SameSeats.refl _
    · obtain ⟨c, hc, hsame⟩ := ih h
      exact ⟨c, List.mem_cons_of_mem _ hc, hsame⟩

theorem fewer_leaveRoom (room : String) (a : Account) : Fewer a (a.leaveRoom room) := by
  refine Fewer.of_mem fun kd hkd => ?_
  have hleft := left_leaveRoom room a
  generalize (a.leaveRoom room).convs = cs at hleft hkd
  generalize (a.leaveRoom room).fault = fault at hleft
  cases hleft with
  | unknown _ => exact ⟨kd.2, hkd, rfl, List.Sublist.refl _⟩
  | fault => exact ⟨kd.2, hkd, rfl, List.Sublist.refl _⟩
  | @removed key c _ _ =>
    obtain ⟨kc, hkc, rfl⟩ := List.mem_map.mp hkd
    obtain ⟨d, hd, hmuc, hjids⟩ := mem_resetRooms (List.mem_filter.mp hkc).1
    refine ⟨d, ?_, ?_⟩
    · split
      · exact hd
      · exact hd
    · split
      · exact ⟨hmuc, hjids ▸ List.Sublist.refl _⟩
      · exact ⟨hmuc, hjids ▸ List.Sublist.refl _⟩

theorem thin_removeJid {x : Context} (j : Jid) (c : Conversation) :
    (c.removeJid x j).1.muc = c.muc ∧ (c.removeJid x j).1.jids.Sublist c.jids := by
  obtain ⟨hjids, hmuc⟩ := jids_removeJid (x := x) j c
  exact ⟨hmuc, hjids ▸ List.filter_sublist⟩

theorem fewer_leaveContact (p : Presence) (a : Account) : Fewer a (a.leaveContact p) := by
  unfold leaveContact
  dsimp only
  split
  · exact Fewer.refl a
  · rename_i key c _
    have hremoved : Fewer a (a.call key fun x c => c.removeJid x p.fromJid) :=
      Fewer.call key (fun _ c => thin_removeJid p.fromJid c) a
    split
    · exact hremoved
    · split
      · exact hremoved
      · exact hremoved.trans (fewer_leaveRoom _ _)

theorem fewer_removeJid (j : Jid) (a : Account) : Fewer a (a.removeJid j) := by
  have hremoved : Fewer a
      (a.callAll fun key c => if key = "" then (c, []) else c.removeJid a.toContext j) := by
    refine Fewer.callAll (fun key c => ?_) a
    split
    · exact ⟨rfl, List.Sublist.refl _⟩
    · exact thin_removeJid j c
  unfold removeJid
  dsimp only
  split
  · exact hremoved
  · exact hremoved.trans (Fewer.foldl (fun room b => fewer_leaveRoom room b) _)

theorem fewer_goOffline (a : Account) : Fewer a a.goOffline := by
  have hcleared : Fewer a (clearJids { a with resources := 0 }) :=
    Fewer.callAll (fun _ c => ⟨rfl, List.nil_sublist c.jids⟩) { a with resources := 0 }
  exact hcleared.trans (.of_seated (seated_setCacheMessages true _))

theorem fewer_changeLegacyPresence (a : Account) : Fewer a a.changeLegacyPresence := by
  have hsent : ∀ p, Fewer a (a.emit [.presenceChanged p]) := fun _ => Fewer.refl a
  unfold changeLegacyPresence
  split
  · exact Fewer.refl a
  · split
    · split
      · exact fewer_goOffline a
      · exact (hsent _).trans (.of_seated (seated_setCacheMessages false _))
    · split
      · exact fewer_goOffline a
      · exact hsent _

theorem fewer_handleTransportPresence (p : Presence) (a : Account) :
    Fewer a (a.handleTransportPresence p) := by
  have hreset : Fewer a a.resetResources := .of_seated (seated_resetResources a)
  unfold handleTransportPresence
  dsimp only
  refine Fewer.trans ?_ (fewer_changeLegacyPresence _)
  split
  · exact hreset.trans (fewer_removeJid p.fromJid _)
  · exact hreset

theorem fewer_settle (key : String) (type : PresenceType) (a : Account) :
    Fewer a (a.settle key type) := by
  have hsubject : Fewer a (a.call key fun x c => c.sendSubject x) :=
    .of_seated (Seated.call key (fun _ c => sameSeats_sendSubject c) a)
  unfold settle
  dsimp only
  split
  · exact hsubject.trans (fewer_leaveRoom _ _)
  · exact hsubject

theorem fewer_handleParticipantChangedPayload (p : ParticipantChange) (a : Account) :
    Fewer a (a.handleParticipantChangedPayload p) := by
  have hone : ∀ key p (a : Account), Fewer a ((a.announce key p).2.settle key (a.announce key p).1) :=
    fun key p a => (Fewer.of_seated (seated_announce key p a)).trans (fewer_settle _ _ _)
  unfold handleParticipantChangedPayload
  split
  · exact Fewer.refl a
  · rename_i key c _
    unfold handleParticipantChanged
    dsimp only
    split
    · exact hone key p a
    · exact ((Fewer.of_seated (seated_announce key p a)).trans (hone key _ _)).trans (fewer_settle _ _ _)

/-! ## Joining -/

/-- A resource that does not take part yet is added. -/
theorem distinct_addParticipant {p : Presence} {key : String} {c : Conversation} {a : Account}
    (h : Distinct a) (hs : SortedKeys a.convs) (hfind : a.convs.find key = some (key, c))
    (hnew : p.fromJid ∉ c.jids) : Distinct (a.call key (addParticipant p)) := by
  unfold call
  simp only [hfind]
  split
  · exact h
  · rintro room js ⟨d, hd, hmuc, rfl⟩
    obtain ⟨⟨name, e⟩, hmem, heq⟩ := List.mem_map.mp hd
    split at heq
    · rename_i hkey
      cases heq
      obtain ⟨rfl, rfl⟩ := Prod.mk.inj (hs.eq_of_key hmem (Chats.mem_of_find hfind).1 hkey)
      have hadded := (plain_addParticipant (x := a.toContext) p e).tag
      simp only [Conversation.tag, Tag.mk.injEq] at hadded
      have hjids : e.jids.Nodup := h name e.jids ⟨e, hmem, hadded.2.2.1 ▸ hmuc, rfl⟩
      rw [jids_addParticipant]
      refine List.nodup_append.mpr ⟨hjids, List.pairwise_singleton _ _, fun i hi j hj heq => ?_⟩
      rw [heq, List.mem_singleton.mp hj] at hi
      exact hnew hi
    · cases heq
      exact h room d.jids ⟨d, hmem, hmuc, rfl⟩

theorem distinct_newRoom (env : Env) (p : Presence) (name : String) {a : Account} (h : Distinct a) :
    Distinct (a.addConversation (newRoom env p name)) := by
  rintro room js ⟨d, hd, hmuc, rfl⟩
  rcases Chats.mem_of_mem_addConversation hd with heq | hd
  · cases heq
    exact List.pairwise_singleton _ p.fromJid
  · exact h room d.jids ⟨d, hd, hmuc, rfl⟩

theorem distinct_joinRoom (p : Presence) (forceJoin : Bool) {a : Account} (h : Distinct a)
    (hs : SortedKeys a.convs) : Distinct (a.joinRoom p forceJoin) := by
  have hready : Distinct (if a.readyForConnect then a else a.setReady) ∧
      SortedKeys (if a.readyForConnect then a else a.setReady).convs := by
    split
    · exact ⟨h, hs⟩
    · exact ⟨h, hs⟩
  unfold joinRoom
  dsimp only
  generalize (if a.readyForConnect then a else a.setReady) = b at hready
  obtain ⟨hb, hs⟩ := hready
  split
  · rename_i key c hsome
    obtain ⟨-, hfind⟩ := Chats.mem_of_getConversation hsome
    have hadmitted : Distinct (if c.freed then b.setFault else if p.fromJid ∈ c.jids then b
        else b.call key (addParticipant p)) := by
      split
      · exact hb
      · split
        · exact hb
        · rename_i hnew
          exact distinct_addParticipant hb hs hfind hnew
    split
    · exact hadmitted
    · exact hadmitted
  · have hremembered : Distinct (if b.joinedRooms.any fun q => q.toJid = p.toJid then b
        else { b with joinedRooms := b.joinedRooms ++ [p] }) := by
      split
      · exact hb
      · exact hb
    generalize (if b.joinedRooms.any fun q => q.toJid = p.toJid then b
      else { b with joinedRooms := b.joinedRooms ++ [p] }) = d at hremembered
    split
    · exact hremembered
    · exact distinct_newRoom _ p _ hremembered

/-! ## Every run -/

/-- The participants of the rooms, in a map ordered by key. -/
def Attended (a : Account) : Prop := Distinct a ∧ SortedKeys a.convs

theorem attended_handlePresence (p : Presence) (forceJoin : Bool) {a : Account} (h : Attended a) :
    Attended (a.handlePresence p forceJoin) := by
  have hsorted := (path_handlePresence p (fun _ => rfl) forceJoin a).sortedKeys h.2
  refine ⟨?_, hsorted⟩
  have hready : Fewer a (a.checkReady p) := .of_seated (seated_checkReady p a)
  have hreadySorted : SortedKeys (a.checkReady p).convs :=
    (Path.of_quiet true (quiet_checkReady p a)).sortedKeys h.2
  unfold handlePresence
  dsimp only
  split
  · exact (hready.trans (fewer_leaveContact p _)).distinct h.1
  · split
    · exact distinct_joinRoom p forceJoin (hready.distinct h.1) hreadySorted
    · exact (hready.trans (fewer_handleTransportPresence p _)).distinct h.1

theorem attended_componentPresence (p : Presence) {a : Account} (h : Attended a) :
    Attended (a.componentPresence p) := by
  have hcaps : Attended (a.sendCapabilitiesRequest p.fromJid).2 :=
    ⟨(Fewer.of_seated (seated_sendCapabilitiesRequest p.fromJid a)).distinct h.1,
      (Path.of_quiet true (quiet_sendCapabilitiesRequest p.fromJid a)).sortedKeys h.2⟩
  unfold componentPresence
  split
  · exact h
  · cases p.type with
    | error | subscribe | subscribed | unsubscribe | unsubscribed => exact h
    | unavailable => exact attended_handlePresence p false h
    | available | probe => exact attended_handlePresence p false hcaps

theorem attended_presenceReceived (p : Presence) {a : Account} (h : Attended a) :
    Attended (a.presenceReceived p) := by
  have hpassed : Attended (a.passOn p) := by
    unfold passOn
    cases (a.oracle.handleIncomingPresence p).2 with
    | none => exact h
    | some passed => exact attended_componentPresence passed h
  rw [presenceReceived_eq]
  split
  · exact attended_handlePresence p false hpassed
  · exact hpassed

theorem attended_setConnected {a : Account} (h : Attended a) : Attended a.setConnected := by
  have hall : ∀ (ps : List Presence) (b : Account), Attended b →
      Attended (ps.foldl (fun a p => a.handlePresence p true) b) := by
    intro ps
    induction ps with
    | nil => exact fun _ hb => hb
    | cons p ps ih => exact fun b hb => ih _ (attended_handlePresence p true hb)
  exact hall a.joinedRooms { a with connected := true } h

/-- One event: somebody joins, or the participants become fewer. -/
theorem distinct_run {a : Account} (h : Attended a) (e : Event) : Distinct (e.run a) := by
  cases e with
  | presence p => exact (attended_presenceReceived p h).1
  | connected => exact (attended_setConnected h).1
  | caps j known =>
    simp only [Event.run]
    split
    · exact (Fewer.of_seated (seated_onConnectingTimeout _)).distinct h.1
    · exact h.1
  | connectingTimeout => exact (Fewer.of_seated (seated_onConnectingTimeout _)).distinct h.1
  | convMessage payload subject =>
    exact (Fewer.of_seated (seated_handleConvMessagePayload payload subject a)).distinct h.1
  | attention payload => exact (Fewer.of_seated (seated_handleAttentionPayload payload a)).distinct h.1
  | chatState buddyname state => exact (Fewer.of_seated (seated_forwardExisting _ _ a)).distinct h.1
  | ack payload =>
    simp only [Event.run, handleConvMessageAckPayload]
    split
    · exact h.1
    · exact (Fewer.of_seated (seated_forwardExisting _ _ a)).distinct h.1
  | participant p => exact (fewer_handleParticipantChangedPayload p a).distinct h.1
  | roomNickname room nickname =>
    exact (Fewer.of_seated (seated_handleRoomChangedPayload room nickname a)).distinct h.1
  | message m => exact (Fewer.of_seated (seated_messageReceived m a)).distinct h.1
  | sessions js => exact h.1
  | roster getBuddy => exact h.1

theorem distinct_of_run {tr : List (Account × Event)} {a : Account} (h : machine.Run tr a) :
    Distinct a := by
  induction h with
  | init h0 =>
    obtain ⟨x, caps, rfl⟩ := h0
    rintro room js ⟨c, hc, -⟩
    cases hc
  | step h hs ih =>
    obtain ⟨-, rfl, -⟩ := step_eq hs
    exact distinct_run ⟨ih, sortedKeys h⟩ _

theorem sendToJids_of_noSubject {x : Context} {m : Message} (h : m.head.subject = "") (js : List Jid)
    (c : Conversation) :
    c.sendToJids x m js = (c, js.map fun j => x.sendMessage (m.setTo j)) := by
  induction js with
  | nil => rfl
  | cons j js ih =>
    rw [Conversation.sendToJids, if_pos h, ih]
    rfl

/-- A message of a room goes to every participant once, or is kept if there is none. -/
theorem handleRawMessage_room {tr : List (Account × Event)} {a : Account} (h : machine.Run tr a)
    {room : String} {c : Conversation} (hc : (room, c) ∈ a.convs) (hmuc : c.muc = true) :
    c.jids.Nodup ∧ ∀ (x : Context) (m : Message), m.head.type = .groupchat → m.head.subject = "" →
      c.handleRawMessage x m =
        if c.jids = [] then (c.cacheMessage m, [])
        else (c, c.jids.map fun j => x.sendMessage (m.setTo j)) := by
  refine ⟨distinct_of_run h room c.jids ⟨c, hc, hmuc, rfl⟩, fun x m htype hsubject => ?_⟩
  rw [Conversation.handleRawMessage, if_neg (not_not.mpr htype), sendToJids_of_noSubject hsubject]

/-- Two resources of the user are in a room. -/
theorem handleRawMessage_room_two : ∃ tr a c, machine.Run tr a ∧ ("#room", c) ∈ a.convs ∧
    c.jids.length = 2 ∧ c.jids.Nodup := by
  have hexec : ∃ a c, machine.exec Sample.occupant
      [.connected, .presence (Sample.roomPresence .available),
        .presence { Sample.roomPresence .available with fromJid := ⟨"bob", "example.org", "work"⟩ },
        .presence (Sample.roomPresence .available)] = some a ∧
      a.convs = [("#room", c)] ∧ c.muc = true ∧ c.jids.length = 2 :=
    ⟨_, _, by rfl, by rfl, by rfl, by rfl⟩
  obtain ⟨a, c, ha, hconvs, hmuc, hlength⟩ := hexec
  have hinit : machine.init Sample.occupant := ⟨_, _, rfl⟩
  obtain ⟨tr, hrun, -⟩ := Machine.exists_run_of_exec hinit ha
  have hc : ("#room", c) ∈ a.convs := by
    rw [hconvs]
    exact List.mem_cons_self
  exact ⟨tr, a, c, hrun, hc, hlength, (handleRawMessage_room hrun hc hmuc).1⟩

end Spectrum.Account
