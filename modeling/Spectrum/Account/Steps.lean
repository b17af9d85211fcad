import Spectrum.Account.Quiet

/-!
# What a step of an account can do

`Path` says once what the handlers do to an account: quiet steps, the creation of a chat, a room
that is joined or remembered for later, and a room that is left. Every handler is a path, and the
handlers other than the three that leave rooms are paths that leave none.
-/

namespace Spectrum.Account

/-- A presence that joins a room. -/
structure IsJoin (p : Presence) : Prop where
  node : p.toJid.node ≠ ""
  muc : p.isMUC = true
  type : p.type ≠ .unavailable

/-- A conversation that is created for a message. -/
inductive Newborn (env : Env) : Conversation → Prop
  | chat (name : String) : Newborn env (Conversation.create env name false)
  | privateChat (room nick : String) : Newborn env (privateChat env room nick)

/-- The signal of a presence that joins a room. -/
def joinedSignal (env : Env) (p : Presence) : Output :=
  .roomJoined p.fromJid (legacyName env.toConfig p.toJid) p.toJid.resource
    ((p.muc.getD none).getD "")

/-- The room of a presence is created and joined. -/
def createRoom (p : Presence) (a : Account) : Account :=
  (a.addConversation (newRoom a.env p (legacyName a.env.toConfig p.toJid))).emit
    [joinedSignal a.env p]

inductive Path (leaving : Bool) (a₀ : Account) : Account → Prop
  | refl : Path leaving a₀ a₀
  | quiet {a b : Account} (h : Path leaving a₀ a) (hq : Quiet a b) : Path leaving a₀ b
  | add {a : Account} {c : Conversation} (h : Path leaving a₀ a) (hc : Newborn a.env c) :
      Path leaving a₀ (a.addConversation c)
  | postpone {a : Account} {p : Presence} (h : Path leaving a₀ a) (hp : IsJoin p) :
      Path leaving a₀ { a with joinedRooms := a.joinedRooms ++ [p] }
  | join {a : Account} {p : Presence} (h : Path leaving a₀ a) (hp : IsJoin p) :
      Path leaving a₀ (a.createRoom p)
  | leave {a : Account} (room : String) (h : Path leaving a₀ a) (hl : leaving = true) :
      Path leaving a₀ (a.leaveRoom room)

namespace Path

variable {leaving : Bool} {a b c : Account}

theorem of_quiet (leaving : Bool) (h : Quiet a b) : Path leaving a b := refl.quiet h

theorem trans (h : Path leaving a b) (h' : Path leaving b c) : Path leaving a c := by
  induction h' with
  | refl => exact h
  | quiet _ hq ih => exact ih.quiet hq
  | add _ hc ih => exact ih.add hc
  | postpone _ hp ih => exact ih.postpone hp
  | join _ hp ih => exact ih.join hp
  | leave room _ hl ih => exact ih.leave room hl

theorem foldl {α : Type} {f : Account → α → Account} {xs : List α}
    (hf : ∀ x ∈ xs, ∀ a, Path leaving a (f a x)) (a : Account) :
    Path leaving a (xs.foldl f a) := by
  induction xs generalizing a with
  | nil => exact refl
  | cons x xs ih =>
    exact (hf x List.mem_cons_self a).trans (ih (fun y hy => hf y (List.mem_cons_of_mem x hy)) _)

end Path

/-- The rooms that are remembered were joined. -/
def RoomsJoined (a : Account) : Prop := ∀ p ∈ a.joinedRooms, IsJoin p

section Handlers

variable {leaving : Bool}

/-! ## Presences -/

/-- What the join of a known room does about the participant. -/
inductive Admitted (p : Presence) (key : String) (c : Conversation) (b : Account) : Account → Prop
  | freed (h : c.freed = true) : Admitted p key c b b.setFault
  | present (hlive : c.freed = false) (h : p.fromJid ∈ c.jids) : Admitted p key c b b
  | added (hlive : c.freed = false) : Admitted p key c b (b.call key (addParticipant p))

/-- What `joinRoom` does once the user is ready. -/
inductive Joins (p : Presence) (forceJoin : Bool) (b : Account) : Account → Prop
  | known {key : String} {c : Conversation} {d : Account}
      (h : b.convs.getConversation (legacyName b.env.toConfig p.toJid) = some (key, c))
      (hd : Admitted p key c b d) :
      Joins p forceJoin b (if forceJoin then d.emit [joinedSignal b.env p] else d)
  | postponed {d : Account}
      (h : b.convs.getConversation (legacyName b.env.toConfig p.toJid) = none)
      (hd : d = b ∨ d = { b with joinedRooms := b.joinedRooms ++ [p] })
      (hoff : d.connected = false) : Joins p forceJoin b d
  | created {d : Account}
      (h : b.convs.getConversation (legacyName b.env.toConfig p.toJid) = none)
      (hd : d = b ∨ d = { b with joinedRooms := b.joinedRooms ++ [p] }) :
      Joins p forceJoin b (d.createRoom p)

theorem joinRoom_joins (p : Presence) (forceJoin : Bool) (a : Account) :
    ∃ b, (b = a ∨ b = a.setReady) ∧ Joins p forceJoin b (a.joinRoom p forceJoin) := by
  refine ⟨if a.readyForConnect then a else a.setReady, ?_, ?_⟩
  · split
    · exact .inl rfl
    · exact .inr rfl
  · unfold joinRoom
    dsimp only
    generalize (if a.readyForConnect then a else a.setReady) = b
    split
    · rename_i key c hsome
      refine .known hsome ?_
      split
      · rename_i hfreed
        exact .freed hfreed
      · rename_i hlive
        split
        · rename_i hmem
          exact .present (by simpa using hlive) hmem
        · exact .added (by simpa using hlive)
    · rename_i hnone
      have hd : (if b.joinedRooms.any fun q => q.toJid = p.toJid then b
            else { b with joinedRooms := b.joinedRooms ++ [p] }) = b ∨
          (if b.joinedRooms.any fun q => q.toJid = p.toJid then b
            else { b with joinedRooms := b.joinedRooms ++ [p] }) =
              { b with joinedRooms := b.joinedRooms ++ [p] } := by
        split
        · exact .inl rfl
        · exact .inr rfl
      generalize (if b.joinedRooms.any fun q => q.toJid = p.toJid then b
        else { b with joinedRooms := b.joinedRooms ++ [p] }) = d at hd
      have henv : d.env = b.env := by
        rcases hd with rfl | rfl
        · rfl
        · rfl
      split
      · rename_i hoff
        exact .postponed hnone hd (by simpa using hoff)
      · have hcreated : Joins p forceJoin b (d.createRoom p) := .created hnone hd
        simpa [createRoom, joinedSignal, henv] using hcreated

theorem path_joinRoom {p : Presence} (hp : IsJoin p) (forceJoin : Bool) (a : Account) :
    Path leaving a (a.joinRoom p forceJoin) := by
  obtain ⟨b, hb, hjoins⟩ := joinRoom_joins p forceJoin a
  have hready : Path leaving a b := by
    rcases hb with rfl | rfl
    · exact .refl
    · exact .of_quiet _ (quiet_setReady a)
  have hpostponed : ∀ {d : Account}, d = b ∨ d = { b with joinedRooms := b.joinedRooms ++ [p] } →
      Path leaving a d := by
    rintro d (rfl | rfl)
    · exact hready
    · exact hready.postpone hp
  generalize a.joinRoom p forceJoin = r at hjoins ⊢
  cases hjoins with
  | @known key c d h hd =>
    have hadmitted : Path leaving b d := by
      cases hd with
      | freed => exact .of_quiet _ (Quiet.setFault b)
      | present => exact .refl
      | added => exact .of_quiet _ (Quiet.call key (fun _ c => plain_addParticipant p c) b)
    split
    · exact (hready.trans hadmitted).quiet (Quiet.emit _ (by simp [joinedSignal, Output.isLeft]))
    · exact hready.trans hadmitted
  | postponed h hd => exact hpostponed hd
  | created h hd => exact (hpostponed hd).join hp

theorem path_leaveContact (p : Presence) (a : Account) : Path true a (a.leaveContact p) := by
  unfold leaveContact
  dsimp only
  split
  · exact .refl
  · rename_i key c _
    have hcall := Quiet.call key (fun x c => plain_removeJid (x := x) p.fromJid c) a
    split
    · exact .of_quiet _ hcall
    · split
      · exact .of_quiet _ hcall
      · exact (Path.of_quiet _ hcall).leave _ rfl

theorem quiet_callAll_removeJid (j : Jid) (a : Account) :
    Quiet a (a.callAll fun key c => if key = "" then (c, []) else c.removeJid a.toContext j) := by
  refine Quiet.callAll (fun key c => ?_) a
  split
  · exact Plain.silent rfl
  · exact plain_removeJid j c

theorem path_removeJid (j : Jid) (a : Account) : Path true a (a.removeJid j) := by
  have hall := Path.of_quiet true (quiet_callAll_removeJid j a)
  unfold removeJid
  dsimp only
  split
  · exact hall
  · exact hall.trans (Path.foldl (fun room _ b => Path.refl.leave room rfl) _)

theorem path_handleTransportPresence (p : Presence)
    (hp : p.type = .unavailable → leaving = true) (a : Account) :
    Path leaving a (a.handleTransportPresence p) := by
  have hreset := Path.of_quiet leaving (quiet_resetResources a)
  have hremoved : Path leaving a
      (if p.type = .unavailable then a.resetResources.removeJid p.fromJid
        else a.resetResources) := by
    split
    · rename_i htype
      cases hp htype
      exact hreset.trans (path_removeJid p.fromJid _)
    · exact hreset
  have hresources : ∀ (b : Account) (n : Nat), Path leaving b { b with resources := n } :=
    fun b n => .of_quiet _ (Quiet.of_eq rfl rfl rfl rfl id)
  exact (hremoved.trans (hresources _ _)).quiet (quiet_changeLegacyPresence _)

/-- Only an unavailable presence leaves rooms. -/
theorem path_handlePresence (p : Presence) (hp : p.type = .unavailable → leaving = true)
    (forceJoin : Bool) (a : Account) : Path leaving a (a.handlePresence p forceJoin) := by
  have hready := Path.of_quiet leaving (quiet_checkReady p a)
  unfold handlePresence
  dsimp only
  split
  · rename_i h
    cases hp h.2
    exact hready.trans (path_leaveContact p _)
  · rename_i hunavailable
    split
    · rename_i hmuc
      refine hready.trans (path_joinRoom ⟨hmuc.1, hmuc.2, fun htype => ?_⟩ forceJoin _)
      exact hunavailable ⟨hmuc.1, htype⟩
    · exact hready.trans (path_handleTransportPresence p hp _)

theorem path_setConnected {a : Account} (ha : RoomsJoined a) : Path false a a.setConnected := by
  have hconnected : Quiet a { a with connected := true } := Quiet.of_eq rfl rfl rfl rfl id
  refine (Path.of_quiet _ hconnected).trans (Path.foldl (fun p hp b => ?_) _)
  exact path_handlePresence p (fun htype => absurd htype (ha p hp).type) true b

theorem path_componentPresence (p : Presence) (hp : p.type = .unavailable → leaving = true)
    (a : Account) : Path leaving a (a.componentPresence p) := by
  have hcaps := Path.of_quiet leaving (quiet_sendCapabilitiesRequest p.fromJid a)
  unfold componentPresence
  split
  · exact .refl
  · cases htype : p.type with
    | error | subscribe | subscribed | unsubscribe | unsubscribed => exact .refl
    | unavailable => exact path_handlePresence p hp false a
    | available | probe => exact hcaps.trans (path_handlePresence p hp false _)

/-- The oracle sees a presence and the component gets what the oracle lets pass. -/
def passOn (p : Presence) (a : Account) : Account :=
  (a.oracle.handleIncomingPresence p).2.elim
    { a with oracle := (a.oracle.handleIncomingPresence p).1 }
    fun passed => componentPresence passed { a with oracle := (a.oracle.handleIncomingPresence p).1 }

theorem presenceReceived_eq (p : Presence) (a : Account) : a.presenceReceived p =
    if p.toJid.node ≠ "" ∧ (p.type = .available ∨ p.type = .unavailable) then
      (a.passOn p).handlePresence p false
    else a.passOn p := by
  unfold presenceReceived passOn
  dsimp only
  cases (a.oracle.handleIncomingPresence p).2 with
  | none => rfl
  | some passed => rfl

theorem path_passOn (p : Presence)
    (hp : p.type = .unavailable ∨ p.type = .unsubscribe ∨ p.type = .unsubscribed → leaving = true)
    (a : Account) : Path leaving a (a.passOn p) := by
  have horacle : Path leaving a { a with oracle := (a.oracle.handleIncomingPresence p).1 } :=
    .of_quiet _ (Quiet.of_eq rfl rfl rfl rfl id)
  have hpassed : ∀ passed, (a.oracle.handleIncomingPresence p).2 = some passed →
      passed.type = .unavailable → leaving = true := by
    intro passed hsome htype
    apply hp
    unfold Oracle.handleIncomingPresence at hsome
    split at hsome
    · cases hsome
    · split at hsome
      · cases hsome
      · simp only [Option.some.injEq] at hsome
        subst hsome
        by_cases hsub : p.type = .unsubscribe ∨ p.type = .unsubscribed
        · exact .inr hsub
        · rw [if_neg hsub] at htype
          exact .inl htype
  unfold passOn
  cases hsome : (a.oracle.handleIncomingPresence p).2 with
  | none => exact horacle
  | some passed =>
    exact horacle.trans (path_componentPresence passed (hpassed passed hsome) _)

/-- A presence other than an unavailable one, or an unsubscription, leaves no room. -/
theorem path_presenceReceived (p : Presence)
    (hp : p.type = .unavailable ∨ p.type = .unsubscribe ∨ p.type = .unsubscribed → leaving = true)
    (a : Account) : Path leaving a (a.presenceReceived p) := by
  rw [presenceReceived_eq]
  split
  · exact (path_passOn p hp a).trans (path_handlePresence p (fun h => hp (.inl h)) false _)
  · exact path_passOn p hp a

/-! ## Messages -/

theorem path_handleConvMessagePayload (payload : ConversationMessage) (subject : Bool)
    (a : Account) : Path leaving a (a.handleConvMessagePayload payload subject) := by
  unfold handleConvMessagePayload
  dsimp only
  split
  · split
    · exact .refl
    · exact (Path.refl.add (.chat payload.buddyname)).quiet (quiet_forward _ _ _ _ _)
  · split
    · split
      · exact .of_quiet _ (quiet_forward _ _ _ _ a)
      · exact (Path.refl.add (.privateChat payload.buddyname payload.nickname)).quiet
          (quiet_forward _ _ _ _ _)
    · exact .of_quiet _ (quiet_forward _ _ _ _ a)

theorem path_handleAttentionPayload (payload : ConversationMessage) (a : Account) :
    Path leaving a (a.handleAttentionPayload payload) := by
  unfold handleAttentionPayload
  dsimp only
  split
  · exact .of_quiet _ (quiet_forward _ _ _ _ a)
  · exact (Path.refl.add (.chat payload.buddyname)).quiet (quiet_forward _ _ _ _ _)

theorem path_messageReceived (m : Message) (a : Account) :
    Path leaving a (a.messageReceived m) := by
  have hreceived : Path leaving a (a.handleMessageReceived m) := by
    unfold handleMessageReceived
    dsimp only
    split
    · exact .refl
    · split
      · exact (Path.refl.add (.chat _)).quiet (quiet_sendMessage _ _ _)
      · split
        · exact .of_quiet _ (Quiet.setFault a)
        · split
          · split
            · exact .of_quiet _ (quiet_sendMessage _ _ _)
            · exact (Path.refl.add (.privateChat _ _)).quiet (quiet_sendMessage _ _ _)
          · exact .of_quiet _ (quiet_sendMessage _ _ _)
  unfold messageReceived
  dsimp only
  split
  · exact .refl
  · split
    · exact .refl
    · exact hreceived

/-! ## Occupants -/

theorem path_settle (key : String) (type : PresenceType) (a : Account) :
    Path true a (a.settle key type) := by
  have hsubject := Quiet.call key (fun x c => plain_sendSubject (x := x) c) a
  unfold settle
  dsimp only
  split
  · exact (Path.of_quiet _ hsubject).leave _ rfl
  · exact .of_quiet _ hsubject

theorem path_handleParticipantChangedPayload (p : ParticipantChange) (a : Account) :
    Path true a (a.handleParticipantChangedPayload p) := by
  have hone : ∀ (key : String) (q : ParticipantChange) (b : Account),
      Path true b (b.changeOne key q) := fun key q b =>
    (Path.of_quiet _ (quiet_announce key q b)).trans (path_settle key _ _)
  unfold handleParticipantChangedPayload
  split
  · exact .refl
  · unfold handleParticipantChanged
    dsimp only
    have hannounce := Path.of_quiet true (quiet_announce ‹String› p a)
    split
    · exact hannounce.trans (path_settle _ _ _)
    · exact (hannounce.trans (hone _ _ _)).trans (path_settle _ _ _)

end Handlers

/-! ## Every event -/

/-- An event that may leave a room. -/
def Event.mayLeave : Event → Bool
  | .presence p => p.type = .unavailable ∨ p.type = .unsubscribe ∨ p.type = .unsubscribed
  | .participant _ => true
  | _ => false

theorem path_run {a : Account} (ha : RoomsJoined a) (e : Event) :
    Path e.mayLeave a (e.run a) := by
  cases e with
  | presence p => exact path_presenceReceived p (fun h => decide_eq_true h) a
  | caps j known =>
    have hcaps : Quiet a { a with caps := Function.update a.caps j known } :=
      Quiet.of_eq rfl rfl rfl rfl id
    simp only [Event.run]
    split
    · exact .of_quiet _ (hcaps.trans (quiet_onConnectingTimeout _))
    · exact .of_quiet _ hcaps
  | connectingTimeout =>
    have htimer : Quiet a { a with reconnectTimer := false } := Quiet.of_eq rfl rfl rfl rfl id
    exact .of_quiet _ (htimer.trans (quiet_onConnectingTimeout _))
  | connected => exact path_setConnected ha
  | convMessage payload subject => exact path_handleConvMessagePayload payload subject a
  | attention payload => exact path_handleAttentionPayload payload a
  | chatState buddyname state => exact .of_quiet _ (quiet_forwardExisting _ _ a)
  | ack payload => exact .of_quiet _ (quiet_handleConvMessageAckPayload payload a)
  | participant p => exact path_handleParticipantChangedPayload p a
  | roomNickname room nickname => exact .of_quiet _ (quiet_handleRoomChangedPayload room nickname a)
  | message m => exact path_messageReceived m a
  | sessions js => exact .of_quiet _ (Quiet.of_eq rfl rfl rfl rfl id)
  | roster getBuddy => exact .of_quiet _ (Quiet.of_eq rfl rfl rfl rfl id)

/-! ## Leaving a room -/

/-- What leaving a room does to the conversations. -/
inductive Left (room : String) (a : Account) : Chats → Bool → Prop
  | unknown (h : a.convs.getConversation room = none) : Left room a a.convs a.fault
  | removed {key : String} {c : Conversation} (h : a.convs.getConversation room = some (key, c))
      (hlive : a.convs.allLive = true) :
      Left room a ((a.convs.removeConversation key c).delete key) a.fault
  | fault : Left room a a.convs true

theorem Left.of_fault {room : String} {a : Account} {cs : Chats} {fault : Bool}
    (h : Left room a cs fault) (ha : a.fault = true) : fault = true := by
  cases h with
  | unknown _ => exact ha
  | removed _ _ => exact ha
  | fault => rfl

theorem left_leaveRoom (room : String) (a : Account) :
    Left room a (a.leaveRoom room).convs (a.leaveRoom room).fault := by
  unfold leaveRoom
  dsimp only
  split
  · rename_i hnone
    exact .unknown hnone
  · rename_i key c hsome
    split
    · rename_i hlive
      exact .removed hsome hlive
    · exact .fault

@[simp] theorem log_leaveRoom (room : String) (a : Account) :
    (a.leaveRoom room).log = .roomLeft room :: a.log := by
  unfold leaveRoom
  dsimp only
  split
  · rfl
  · split <;> rfl

@[simp] theorem env_leaveRoom (room : String) (a : Account) : (a.leaveRoom room).env = a.env := by
  unfold leaveRoom
  dsimp only
  split
  · rfl
  · split <;> rfl

theorem joinedRooms_leaveRoom (room : String) (a : Account) :
    (a.leaveRoom room).joinedRooms ⊆ a.joinedRooms := by
  have herase : a.joinedRooms.eraseP
      (fun p => legacyName a.env.toConfig p.toJid = room) ⊆ a.joinedRooms :=
    fun _ hp => List.mem_of_mem_eraseP hp
  unfold leaveRoom
  dsimp only
  split
  · exact herase
  · split <;> exact herase

theorem Path.env {leaving : Bool} {a b : Account} (h : Path leaving a b) : b.env = a.env := by
  induction h with
  | refl => rfl
  | quiet _ hq ih => exact hq.env.trans ih
  | add _ _ ih => exact ih
  | postpone _ _ ih => exact ih
  | join _ _ ih => exact ih
  | leave room _ _ ih => exact (env_leaveRoom room _).trans ih

theorem Path.roomsJoined {leaving : Bool} {a b : Account} (h : Path leaving a b)
    (ha : RoomsJoined a) : RoomsJoined b := by
  induction h with
  | refl => exact ha
  | quiet _ hq ih => exact fun p hp => ih p (hq.joinedRooms ▸ hp)
  | add _ _ ih => exact ih
  | postpone _ hp ih =>
    intro q hq
    rcases List.mem_append.mp hq with hq | hq
    · exact ih q hq
    · rw [List.mem_singleton.mp hq]
      exact hp
  | join _ _ ih => exact ih
  | leave room _ _ ih => exact fun p hp => ih p (joinedRooms_leaveRoom room _ hp)

theorem step_eq {a a' : Account} {e : Event} (h : step a e = some a') :
    e.enabled a = true ∧ a' = e.run a ∧ a'.fault = false := by
  unfold step at h
  split at h
  · rename_i hcond
    cases h
    exact ⟨hcond.1, rfl, hcond.2⟩
  · cases h

theorem roomsJoined {tr : List (Account × Event)} {a : Account} (h : machine.Run tr a) :
    RoomsJoined a := by
  refine h.invariant ?_ ?_
  · rintro a ⟨x, caps, rfl⟩ p hp
    cases hp
  · intro a e a' hs ha
    obtain ⟨-, rfl, -⟩ := step_eq hs
    exact (path_run ha e).roomsJoined ha

end Spectrum.Account
