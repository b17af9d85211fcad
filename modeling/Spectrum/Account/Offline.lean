import Spectrum.Account.Cache

/-!
# Messages for a user who is offline

In server mode with `stay_connected` the messages of a user who is offline wait in his chats.
They should be sent when he comes online, and not before. The flush is tied to the wrong edge of
the flag: it happens when the caching of messages starts, not when it ends. So a user gets his
messages in time only if none waits when he comes online.
-/

namespace Spectrum.Account

open Lib

/-- A chat has the message in its cache. -/
def Waiting (key : String) (m : Message) (a : Account) : Prop :=
  ∃ c, (key, c) ∈ a.convs ∧ c.muc = false ∧ m ∈ c.cachedMessages

/-- No resource of the user is available. -/
def Offline (a : Account) : Prop :=
  ∀ p ∈ a.oracle.getAllPresence a.env.user.toBare, p.type ≠ .available

/-- The step from `a` to `a'` sends the message. -/
def SentIn (a a' : Account) (m : Message) : Prop :=
  ∃ outs, a'.log = outs ++ a.log ∧ ∃ j ss, Output.message (m.setTo j) ss ∈ outs

/-- An available presence to the transport. -/
def Event.comesOnline : Event → Bool
  | .presence p => p.toJid.node = "" ∧ p.type = .available
  | _ => false

/-- What a step owes to the messages that wait: they are sent when the user comes online, none is
sent while he is offline, and they are kept until they are sent. -/
structure Timely (a : Account) (e : Event) (a' : Account) : Prop where
  online : e.comesOnline = true → ∀ key m, Waiting key m a → SentIn a a' m
  offline : Offline a' → ∀ key m, Waiting key m a → ¬ SentIn a a' m
  kept : ∀ kc ∈ a.convs, kc.2.muc = false → (∀ m ∈ kc.2.cachedMessages, SentIn a a' m) ∨
    ∃ c, (kc.1, c) ∈ a'.convs ∧ c.muc = false ∧ Kept kc.2.cachedMessages c.cachedMessages

/-- The best presence, if any, is an unavailable one. -/
def StillOffline (o : Oracle) (bareJid : Jid) : Prop :=
  ∀ p, o.getHighestPriorityPresence bareJid = some p → p.type = .unavailable

/-- The presence is not one to a room, and does not say goodbye to a contact. -/
def reachesTransport (p : Presence) : Bool :=
  p.toJid.node = "" ∨ p.type ≠ .unavailable ∧ p.isMUC = false

/-- A chat that is found for the name has no cached messages. -/
def NoneWaitingAt (name : String) (cs : Chats) : Prop :=
  ∀ kc, cs.getConversation name = some kc → kc.2.muc = false → kc.2.cachedMessages = []

/-- The condition. No message waits when an available presence comes, or a presence after which
the best presence is not an unavailable one. Besides, a join does not find a chat with cached
messages, and no occupant error removes a conversation. -/
def Spared (a : Account) : Event → Prop
  | .presence p =>
    ((p.toJid.node = "" ∧ p.type = .available ∨ reachesTransport p = true ∧
      ¬ StillOffline (a.oracle.handleIncomingPresence p).1 a.env.user.toBare) →
        NoneWaiting a.convs) ∧
      (IsJoin p → NoneWaitingAt (legacyName a.env.toConfig p.toJid) a.convs)
  | .connected => a.joinedRooms = [] ∨ NoneWaiting a.convs
  | .participant p => ∀ kc, a.convs.getConversation p.room = some kc → ¬ expels p kc.2 = true
  | _ => True

section Steps

variable {a : Account}

/-! ## Becoming ready -/

theorem steady_setReady (ha : Calm a) : Steady a a.setReady := by
  have hready : Steady a { a with readyForConnect := true } :=
    Steady.of_store ha rfl
  exact hready.trans (Steady.emit hready.calm (by simp))

theorem steady_onConnectingTimeout (ha : Calm a) : Steady a a.onConnectingTimeout := by
  unfold onConnectingTimeout
  split
  · exact Steady.refl ha
  · have htimer : Steady a { a with reconnectTimer := false } :=
      Steady.of_store ha rfl
    have hready := htimer.trans (steady_setReady htimer.calm)
    dsimp only
    split
    · exact hready
    · exact hready.trans (Steady.emit hready.calm (by simp))

theorem steady_sendCapabilitiesRequest (ha : Calm a) (j : Jid) :
    Steady a (a.sendCapabilitiesRequest j).2 := by
  unfold sendCapabilitiesRequest
  split
  · exact steady_onConnectingTimeout ha
  · exact Steady.refl ha

theorem steady_checkReady (ha : Calm a) (p : Presence) : Steady a (a.checkReady p) := by
  have hcaps := steady_sendCapabilitiesRequest ha p.fromJid
  have hstart : ∀ {b : Account}, Calm b → Steady b b.startTimer := fun hb =>
    Steady.of_store hb rfl
  unfold checkReady
  split
  · exact Steady.refl ha
  · split
    · split
      · rename_i b heq
        rw [heq] at hcaps
        exact hcaps.trans (steady_setReady hcaps.calm)
      · rename_i b heq
        rw [heq] at hcaps
        exact hcaps.trans (hstart hcaps.calm)
    · split
      · exact steady_setReady ha
      · exact hstart ha

/-! ## Messages -/

theorem steady_forward (ha : Calm a) (key : String) (ms : List Message) (nickname : String)
    (carbon : Bool) : Steady a (a.forward key ms nickname carbon) := by
  unfold forward
  induction ms generalizing a with
  | nil => exact Steady.refl ha
  | cons m ms ih =>
    have hone : Steady a (a.call key fun x c => c.handleMessage x m nickname carbon) :=
      Steady.call ha fun kc _ _ => cares_handleMessage ha.mode m nickname carbon
    exact hone.trans (ih hone.calm)

theorem steady_handleConvMessagePayload (ha : Calm a) (payload : ConversationMessage)
    (subject : Bool) : Steady a (a.handleConvMessagePayload payload subject) := by
  unfold handleConvMessagePayload
  dsimp only
  split
  · rename_i hnone
    split
    · exact Steady.refl ha
    · have hadd : Steady a
          (a.addConversation (Conversation.create a.env payload.buddyname false)) :=
        Steady.addConversation ha (Chats.find_eq_none hnone) rfl rfl
      exact hadd.trans (steady_forward hadd.calm _ _ _ _)
  · split
    · split
      · exact steady_forward ha _ _ _ _
      · rename_i hnone
        have hadd : Steady a
            (a.addConversation (privateChat a.env payload.buddyname payload.nickname)) :=
          Steady.addConversation ha (Chats.find_eq_none hnone) rfl rfl
        exact hadd.trans (steady_forward hadd.calm _ _ _ _)
    · exact steady_forward ha _ _ _ _

theorem steady_handleAttentionPayload (ha : Calm a) (payload : ConversationMessage) :
    Steady a (a.handleAttentionPayload payload) := by
  unfold handleAttentionPayload
  dsimp only
  split
  · exact steady_forward ha _ _ _ _
  · rename_i hnone
    have hadd : Steady a (a.addConversation (Conversation.create a.env payload.buddyname false)) :=
      Steady.addConversation ha (Chats.find_eq_none hnone) rfl rfl
    exact hadd.trans (steady_forward hadd.calm _ _ _ _)

theorem steady_forwardExisting (ha : Calm a) (name : String) (payload : Payload) :
    Steady a (a.forwardExisting name payload) := by
  unfold forwardExisting
  split
  · exact Steady.refl ha
  · exact steady_forward ha _ _ _ _

theorem steady_sendMessage (ha : Calm a) (key : String) (m : Message) :
    Steady a (a.sendMessage key m) :=
  Steady.call ha fun _ _ _ => Cares.of_same rfl rfl rfl (by simp)

theorem steady_messageReceived (ha : Calm a) (m : Message) : Steady a (a.messageReceived m) := by
  have hreceived : Steady a (a.handleMessageReceived m) := by
    unfold handleMessageReceived
    dsimp only
    split
    · exact Steady.refl ha
    · split
      · rename_i hnone
        have hadd : Steady a
            (a.addConversation (Conversation.create a.env (a.buddyName m.head.toJid) false)) :=
          Steady.addConversation ha hnone rfl rfl
        exact hadd.trans (steady_sendMessage hadd.calm _ _)
      · split
        · exact Steady.setFault ha
        · split
          · split
            · exact steady_sendMessage ha _ _
            · rename_i hnone
              have hadd : Steady a (a.addConversation
                  (privateChat a.env (a.buddyName m.head.toJid) m.head.toJid.resource)) :=
                Steady.addConversation ha hnone rfl rfl
              exact hadd.trans (steady_sendMessage hadd.calm _ _)
          · exact steady_sendMessage ha _ _
  unfold messageReceived
  dsimp only
  split
  · exact Steady.refl ha
  · split
    · exact Steady.refl ha
    · exact hreceived

/-! ## Occupants -/

theorem steady_announce (ha : Calm a) (key : String) (p : ParticipantChange) :
    Steady a (a.announce key p).2 := by
  unfold announce
  dsimp only
  split
  · exact Steady.setFault ha
  · exact Steady.call
      (f := fun x c => (c.changeParticipant x p.nickname p.flag p.status p.statusMessage p.newname
        p.iconHash p.nickAlias).2) ha fun kc _ _ => cares_changeParticipant _ _ _ _ _ _ _ kc.2

theorem steady_settle (ha : Calm a) (key : String) {type : PresenceType}
    (htype : type ≠ .error) : Steady a (a.settle key type) := by
  unfold settle
  dsimp only
  split
  · exact absurd rfl htype
  · exact Steady.call ha fun _ _ _ => cares_sendSubject _

theorem steady_handleParticipantChangedPayload (ha : Calm a) {p : ParticipantChange}
    (hp : ∀ kc, a.convs.getConversation p.room = some kc → ¬ expels p kc.2 = true) :
    Steady a (a.handleParticipantChangedPayload p) := by
  unfold handleParticipantChangedPayload
  split
  · exact Steady.refl ha
  · rename_i key c hsome
    obtain ⟨houter, hinner⟩ :=
      announce_ne_error (Chats.mem_of_getConversation hsome).2 (hp _ hsome)
    have hannounced := steady_announce ha key p
    unfold handleParticipantChanged
    dsimp only
    split
    · exact hannounced.trans (steady_settle hannounced.calm key houter)
    · rename_i hnewname
      have hrenamed := hannounced.trans (steady_announce hannounced.calm key p.renamed)
      have hone := hrenamed.trans (steady_settle hrenamed.calm key (hinner hnewname))
      exact hone.trans (steady_settle hone.calm key houter)

/-! ## Rooms -/

theorem steady_leaveContact (ha : Calm a) (hstay : a.env.stayConnected = true) (p : Presence) :
    Steady a (a.leaveContact p) := by
  unfold leaveContact
  dsimp only
  split
  · exact Steady.refl ha
  · rename_i key c _
    have hcall : Steady a (a.call key fun x c => c.removeJid x p.fromJid) :=
      Steady.call ha fun kc _ _ => cares_removeJid p.fromJid kc.2
    split
    · exact hcall
    · rw [if_pos (by rw [hcall.env]; exact hstay)]
      exact hcall

theorem steady_createRoom (ha : Calm a) {p : Presence}
    (hnone : a.convs.getConversation (legacyName a.env.toConfig p.toJid) = none) :
    Steady a (a.createRoom p) := by
  have hadd : Steady a
      (a.addConversation (newRoom a.env p (legacyName a.env.toConfig p.toJid))) :=
    Steady.addConversation ha (Chats.find_eq_none hnone) rfl rfl
  exact hadd.trans (Steady.emit hadd.calm (by simp [joinedSignal]))

theorem steady_joinRoom (ha : Calm a) (hs : SortedKeys a.convs) {p : Presence}
    (hp : NoneWaitingAt (legacyName a.env.toConfig p.toJid) a.convs) (forceJoin : Bool) :
    Steady a (a.joinRoom p forceJoin) := by
  obtain ⟨b, hb, hjoins⟩ := joinRoom_joins p forceJoin a
  obtain ⟨hready, hconvs⟩ : Steady a b ∧ b.convs = a.convs := by
    rcases hb with rfl | rfl
    · exact ⟨Steady.refl ha, rfl⟩
    · exact ⟨steady_setReady ha, rfl⟩
  have hpostponed : ∀ {d : Account}, d = b ∨ d = { b with joinedRooms := b.joinedRooms ++ [p] } →
      Steady a d ∧ d.env = b.env ∧ d.convs = b.convs := by
    rintro d (rfl | rfl)
    · exact ⟨hready, rfl, rfl⟩
    · exact ⟨hready.trans (Steady.of_store hready.calm rfl), rfl, rfl⟩
  generalize a.joinRoom p forceJoin = r at hjoins ⊢
  cases hjoins with
  | @known key c d hsome hd =>
    rw [hready.env, hconvs] at hsome
    obtain ⟨hmem, -⟩ := Chats.mem_of_getConversation hsome
    have hadmitted : Steady b d := by
      cases hd with
      | freed => exact Steady.setFault hready.calm
      | present => exact Steady.refl hready.calm
      | added =>
        refine Steady.call hready.calm fun kc hkc hkey => ?_
        rw [hconvs] at hkc
        -- a key is stored once, so this is the conversation that was found
        have heq : kc = (key, c) := SortedBy.eq_of_key hs hkc hmem hkey
        rw [heq]
        exact cares_addParticipant p (hp _ hsome)
    have hall := hready.trans hadmitted
    split
    · exact hall.trans (Steady.emit hall.calm (by simp [joinedSignal]))
    · exact hall
  | postponed hnone hd => exact (hpostponed hd).1
  | created hnone hd =>
    obtain ⟨hall, henv, hconvs'⟩ := hpostponed hd
    refine hall.trans (steady_createRoom hall.calm ?_)
    rw [henv, hconvs']
    exact hnone

/-! ## Presences to the transport -/

theorem steady_resetResources (ha : Calm a) : Steady a a.resetResources := by
  refine Steady.callAll ha fun kc _ => ?_
  split
  · exact Cares.of_same rfl rfl rfl fun _ _ h => nomatch h
  · exact Cares.of_same rfl rfl rfl fun _ _ h => nomatch h

theorem steady_clearJids (ha : Calm a) : Steady a a.clearJids :=
  Steady.callAll ha fun _ _ => Cares.of_same rfl rfl rfl fun _ _ h => nomatch h

theorem steady_removeJid (ha : Calm a) (hstay : a.env.stayConnected = true) (j : Jid) :
    Steady a (a.removeJid j) := by
  have hall : Steady a
      (a.callAll fun key c => if key = "" then (c, []) else c.removeJid a.toContext j) := by
    refine Steady.callAll ha fun kc _ => ?_
    split
    · exact Cares.of_same rfl rfl rfl fun _ _ h => nomatch h
    · exact cares_removeJid j kc.2
  unfold removeJid
  dsimp only
  rw [if_pos (by rw [hall.env]; exact hstay)]
  exact hall

theorem NoneWaiting.callAll (h : NoneWaiting a.convs)
    {f : String → Conversation → Conversation × List Output}
    (hf : ∀ key c, (f key c).1.muc = c.muc ∧
      (c.cachedMessages = [] → (f key c).1.cachedMessages = [])) :
    NoneWaiting (a.callAll f).convs := by
  unfold Account.callAll
  split
  · intro kd hkd hmuc
    obtain ⟨kc, hkc, rfl⟩ := List.mem_map.mp hkd
    obtain ⟨hsame, hempty⟩ := hf kc.1 kc.2
    exact hempty (h kc hkc (hsame ▸ hmuc))
  · exact h

theorem noneWaiting_resetResources (h : NoneWaiting a.convs) :
    NoneWaiting a.resetResources.convs := by
  refine h.callAll fun key c => ?_
  split
  · exact ⟨rfl, id⟩
  · exact ⟨rfl, id⟩

theorem noneWaiting_removeJid (h : NoneWaiting a.convs) (hstay : a.env.stayConnected = true)
    (j : Jid) : NoneWaiting (a.removeJid j).convs := by
  have hall : NoneWaiting
      (a.callAll fun key c => if key = "" then (c, []) else c.removeJid a.toContext j).convs := by
    refine h.callAll fun key c => ?_
    split
    · exact ⟨rfl, id⟩
    · refine ⟨(cares_removeJid (x := a.toContext) j c).muc, fun hempty => ?_⟩
      unfold Conversation.removeJid
      dsimp only
      split
      · simpa using hempty
      · exact hempty
  have henv := (quiet_callAll_removeJid j a).env
  unfold removeJid
  dsimp only
  rw [if_pos (by rw [henv]; exact hstay)]
  exact hall

/-- Caching starts: the chats have nothing to flush. -/
theorem calm_goOffline (ha : Calm a) : Calm a.goOffline := by
  have hresources : Steady a { a with resources := 0 } :=
    Steady.of_store ha rfl
  have hcleared := (hresources.trans (steady_clearJids hresources.calm)).calm
  unfold goOffline
  generalize clearJids { a with resources := 0 } = b at hcleared
  have hon : ∀ {c : Account}, Calm c → Calm { c with cacheMessages := true } := by
    intro c hc
    exact ⟨hc.mode, hc.typed, fun hoff => by cases hoff⟩
  unfold setCacheMessages
  dsimp only
  split
  · rename_i hedge
    have hoff : b.cacheMessages = false := by
      simp only [Bool.and_true, Bool.and_eq_true, Bool.not_eq_true'] at hedge
      exact hedge.2
    refine hon (Steady.calm (a := b) (Steady.callAll hcleared fun kc hkc => ?_))
    split
    · exact Cares.of_same rfl rfl rfl fun _ _ h => nomatch h
    · rename_i hmuc
      exact cares_sendCachedMessages (fun h => hcleared.idle hoff kc hkc h) none
  · exact hon hcleared

/-- While messages are cached, going offline again flushes nothing. -/
theorem steady_goOffline (ha : Calm a) (hcache : a.cacheMessages = true) :
    Steady a a.goOffline := by
  have hresources : Steady a { a with resources := 0 } :=
    Steady.of_store ha rfl
  have hcleared := hresources.trans (steady_clearJids hresources.calm)
  unfold goOffline
  generalize clearJids { a with resources := 0 } = b at hcleared
  have hon : b.cacheMessages = true := hcleared.cache.trans hcache
  have hset : b.setCacheMessages true = { b with cacheMessages := true } := by
    simp [setCacheMessages, hon]
  rw [hset]
  exact hcleared.trans (Steady.of_eq hcleared.calm rfl rfl hon.symm rfl (List.nil_append _).symm
    fun _ _ h => nomatch h)

theorem calm_changeLegacyPresence (ha : Calm a) (hstay : a.env.stayConnected = true)
    (hon : ¬ StillOffline a.oracle a.env.user.toBare → NoneWaiting a.convs) :
    Calm a.changeLegacyPresence := by
  unfold changeLegacyPresence
  split
  · exact ha
  · split
    · rename_i highest hhighest
      split
      · exact calm_goOffline ha
      · rename_i htype
        have hnone : NoneWaiting a.convs := by
          refine hon fun hstill => htype ⟨hstill highest hhighest, hstay⟩
        have hset : (a.emit [.presenceChanged highest]).setCacheMessages false =
            { a.emit [.presenceChanged highest] with cacheMessages := false } := by
          simp [setCacheMessages]
        rw [hset]
        exact ⟨ha.mode, ha.typed, fun _ => hnone⟩
    · exact calm_goOffline ha

theorem steady_changeLegacyPresence (ha : Calm a) (hstay : a.env.stayConnected = true)
    (hcache : a.cacheMessages = true) (hstill : StillOffline a.oracle a.env.user.toBare) :
    Steady a a.changeLegacyPresence := by
  unfold changeLegacyPresence
  split
  · exact Steady.refl ha
  · split
    · rename_i highest hhighest
      rw [if_pos ⟨hstill highest hhighest, hstay⟩]
      exact steady_goOffline ha hcache
    · exact steady_goOffline ha hcache

/-- What a presence to the transport does: the invariant holds after it, and it is steady while
messages are cached and the user stays offline. -/
theorem handleTransportPresence_caches (ha : Calm a) (hstay : a.env.stayConnected = true)
    (hon : ¬ StillOffline a.oracle a.env.user.toBare → NoneWaiting a.convs) (p : Presence) :
    Calm (a.handleTransportPresence p) ∧
      (a.cacheMessages = true → StillOffline a.oracle a.env.user.toBare →
        Steady a (a.handleTransportPresence p)) := by
  unfold handleTransportPresence
  dsimp only
  have hreset := steady_resetResources ha
  have hremoved : Steady a (if p.type = .unavailable then a.resetResources.removeJid p.fromJid
      else a.resetResources) := by
    split
    · exact hreset.trans (steady_removeJid hreset.calm (by rw [hreset.env]; exact hstay) p.fromJid)
    · exact hreset
  have hnone : NoneWaiting a.convs → NoneWaiting (if p.type = .unavailable then
      a.resetResources.removeJid p.fromJid else a.resetResources).convs := by
    intro h
    split
    · exact noneWaiting_removeJid (noneWaiting_resetResources h) (by rw [hreset.env]; exact hstay) _
    · exact noneWaiting_resetResources h
  generalize (if p.type = .unavailable then a.resetResources.removeJid p.fromJid
    else a.resetResources) = b at hremoved hnone
  have hcount : Steady b { b with
      resources := (a.oracle.getAllPresence a.env.user.toBare).length } :=
    Steady.of_store hremoved.calm rfl
  have hall := hremoved.trans hcount
  have hstay' : b.env.stayConnected = true := by rw [hremoved.env]; exact hstay
  constructor
  · refine calm_changeLegacyPresence hcount.calm hstay' fun hno => hnone (hon ?_)
    rw [hall.oracle, hall.env] at hno
    exact hno
  · intro hcache hstill
    refine hall.trans (steady_changeLegacyPresence hall.calm hstay' (hall.cache.trans hcache) ?_)
    rw [hall.oracle, hall.env]
    exact hstill

theorem handlePresence_caches (ha : Calm a) (hstay : a.env.stayConnected = true)
    (hs : SortedKeys a.convs) {p : Presence}
    (hjoin : IsJoin p → NoneWaitingAt (legacyName a.env.toConfig p.toJid) a.convs)
    (hon : reachesTransport p = true → ¬ StillOffline a.oracle a.env.user.toBare →
      NoneWaiting a.convs) (forceJoin : Bool) :
    Calm (a.handlePresence p forceJoin) ∧
      (a.cacheMessages = true →
        (reachesTransport p = true → StillOffline a.oracle a.env.user.toBare) →
        Steady a (a.handlePresence p forceJoin)) := by
  have hready := steady_checkReady ha p
  have hconvs := convs_checkReady p a
  unfold handlePresence
  dsimp only
  generalize a.checkReady p = b at hready hconvs
  have hstay' : b.env.stayConnected = true := by rw [hready.env]; exact hstay
  split
  · have hleave := hready.trans (steady_leaveContact hready.calm hstay' p)
    exact ⟨hleave.calm, fun _ _ => hleave⟩
  · rename_i hunavailable
    split
    · rename_i hmuc
      have hp : IsJoin p := ⟨hmuc.1, hmuc.2, fun htype => hunavailable ⟨hmuc.1, htype⟩⟩
      have hjoined := hready.trans (steady_joinRoom hready.calm (hconvs ▸ hs)
        (by rw [hready.env, hconvs]; exact hjoin hp) forceJoin)
      exact ⟨hjoined.calm, fun _ _ => hjoined⟩
    · rename_i hmuc
      have hreaches : reachesTransport p = true := by
        refine decide_eq_true ?_
        by_cases hnode : p.toJid.node = ""
        · exact .inl hnode
        · refine .inr ⟨fun htype => hunavailable ⟨hnode, htype⟩, ?_⟩
          cases hm : p.isMUC with
          | false => rfl
          | true => exact absurd ⟨hnode, hm⟩ hmuc
      obtain ⟨hcalm, hsteady⟩ := handleTransportPresence_caches hready.calm hstay'
        (by rw [hready.oracle, hready.env, hconvs]; exact hon hreaches) p
      refine ⟨hcalm, fun hcache hstill => hready.trans (hsteady (hready.cache.trans hcache) ?_)⟩
      rw [hready.oracle, hready.env]
      exact hstill hreaches

theorem componentPresence_caches (ha : Calm a) (hstay : a.env.stayConnected = true)
    (hs : SortedKeys a.convs)
    (hon : ¬ StillOffline a.oracle a.env.user.toBare → NoneWaiting a.convs) (p : Presence) :
    Calm (a.componentPresence p) ∧
      (a.cacheMessages = true → StillOffline a.oracle a.env.user.toBare →
        Steady a (a.componentPresence p)) := by
  have hcaps := steady_sendCapabilitiesRequest ha p.fromJid
  have hsame : Calm a ∧ (a.cacheMessages = true → StillOffline a.oracle a.env.user.toBare →
      Steady a a) := ⟨ha, fun _ _ => Steady.refl ha⟩
  unfold componentPresence
  split
  · exact hsame
  · rename_i hto
    have hnojoin : ¬ IsJoin p := fun hp => hto (.inl hp.node)
    have hpresence := handlePresence_caches (p := p) ha hstay hs (fun hp => absurd hp hnojoin)
      (fun _ => hon) false
    have hpresence' := handlePresence_caches (p := p) hcaps.calm (by rw [hcaps.env]; exact hstay)
      (by rw [convs_sendCapabilitiesRequest]; exact hs) (fun hp => absurd hp hnojoin)
      (by rw [hcaps.oracle, hcaps.env, convs_sendCapabilitiesRequest]; exact fun _ => hon) false
    have hcapsPresence : Calm ((a.sendCapabilitiesRequest p.fromJid).2.handlePresence p false) ∧
        (a.cacheMessages = true → StillOffline a.oracle a.env.user.toBare →
          Steady a ((a.sendCapabilitiesRequest p.fromJid).2.handlePresence p false)) := by
      refine ⟨hpresence'.1, fun hcache hstill => hcaps.trans ?_⟩
      refine hpresence'.2 (hcaps.cache.trans hcache) ?_
      rw [hcaps.oracle, hcaps.env]
      exact fun _ => hstill
    split
    all_goals first
      | exact hsame
      | exact hcapsPresence
      | exact ⟨hpresence.1, fun hcache hstill => hpresence.2 hcache fun _ => hstill⟩

/-- What a presence does to the caches, from the state in which the oracle knows it. -/
theorem presenceReceived_caches (ha : Calm a) (hstay : a.env.stayConnected = true)
    (hs : SortedKeys a.convs) {p : Presence} (hp : Spared a (.presence p)) :
    Calm (a.presenceReceived p) ∧ (¬ NoneWaiting a.convs →
      Steady { a with oracle := (a.oracle.handleIncomingPresence p).1 } (a.presenceReceived p)) := by
  obtain ⟨honline, hjoin⟩ := hp
  have hflag : ¬ NoneWaiting a.convs → a.cacheMessages = true := by
    intro hwaiting
    by_contra hoff
    exact hwaiting (ha.idle (by simpa using hoff))
  by_cases hnode : p.toJid.node = ""
  · have hreaches : reachesTransport p = true := decide_eq_true (.inl hnode)
    have hresult : a.presenceReceived p = a.passOn p := by
      rw [presenceReceived_eq]
      exact if_neg fun h => h.1 hnode
    have hcalm : Calm { a with oracle := (a.oracle.handleIncomingPresence p).1 } :=
      ⟨ha.mode, ha.typed, ha.idle⟩
    rw [hresult, passOn]
    cases (a.oracle.handleIncomingPresence p).2 with
    | none => exact ⟨hcalm, fun _ => Steady.refl hcalm⟩
    | some passed =>
      obtain ⟨hafter, hsteady⟩ := componentPresence_caches hcalm hstay hs
        (fun hno => honline (.inr ⟨hreaches, hno⟩)) passed
      refine ⟨hafter, fun hwaiting => hsteady (hflag hwaiting) ?_⟩
      by_contra hno
      exact hwaiting (honline (.inr ⟨hreaches, hno⟩))
  · have hskip : a.oracle.handleIncomingPresence p = (a.oracle, none) := by
      simp [Oracle.handleIncomingPresence, hnode]
    rw [hskip] at honline
    have hresult : a.presenceReceived p =
        if p.type = .available ∨ p.type = .unavailable then a.handlePresence p false else a := by
      unfold presenceReceived
      rw [hskip]
      simp [hnode]
    rw [hresult, hskip]
    split
    · obtain ⟨hcalm, hsteady⟩ := handlePresence_caches ha hstay hs hjoin
        (fun hreaches hno => honline (.inr ⟨hreaches, hno⟩)) false
      refine ⟨hcalm, fun hwaiting => hsteady (hflag hwaiting) fun hreaches => ?_⟩
      by_contra hno
      exact hwaiting (honline (.inr ⟨hreaches, hno⟩))
    · exact ⟨ha, fun _ => Steady.refl ha⟩

/-! ## Rejoining the rooms -/

theorem noneWaiting_joinRoom (h : NoneWaiting a.convs) (p : Presence) (forceJoin : Bool) :
    NoneWaiting (a.joinRoom p forceJoin).convs := by
  obtain ⟨b, hb, hjoins⟩ := joinRoom_joins p forceJoin a
  have hb : NoneWaiting b.convs := by
    rcases hb with rfl | rfl
    · exact h
    · exact h
  have hpostponed : ∀ {d : Account}, d = b ∨ d = { b with joinedRooms := b.joinedRooms ++ [p] } →
      NoneWaiting d.convs := by
    rintro d (rfl | rfl)
    · exact hb
    · exact hb
  generalize a.joinRoom p forceJoin = r at hjoins ⊢
  cases hjoins with
  | @known key c d _ hd =>
    have hadmitted : NoneWaiting d.convs := by
      cases hd with
      | freed => exact hb
      | present => exact hb
      | added =>
        unfold call
        split
        · exact hb
        · split
          · exact hb
          · intro kd hkd hmuc
            obtain ⟨kc, hkc, rfl⟩ := List.mem_map.mp hkd
            split
            · rfl
            · rename_i hkey
              rw [if_neg hkey] at hmuc
              exact hb kc hkc hmuc
    split
    · exact hadmitted
    · exact hadmitted
  | postponed hnone hd => exact hpostponed hd
  | created hnone hd =>
    intro kd hkd hmuc
    rcases Chats.mem_of_mem_addConversation hkd with rfl | hkd
    · cases hmuc
    · exact hpostponed hd kd hkd hmuc

theorem calm_rejoin {rooms : List Presence} (hrooms : ∀ p ∈ rooms, IsJoin p) (ha : Calm a)
    (hn : NoneWaiting a.convs) (hs : SortedKeys a.convs) :
    Calm (rooms.foldl (fun a p => a.handlePresence p true) a) := by
  induction rooms generalizing a with
  | nil => exact ha
  | cons p rooms ih =>
    have hp := hrooms p List.mem_cons_self
    have hjoin : a.handlePresence p true = (a.checkReady p).joinRoom p true := by
      simp [handlePresence, hp.node, hp.type, hp.muc]
    have hready := steady_checkReady ha p
    have hconvs := convs_checkReady p a
    have hpath : Path false a (a.handlePresence p true) :=
      path_handlePresence p (fun h => absurd h hp.type) true a
    rw [List.foldl_cons]
    refine ih (fun q hq => hrooms q (List.mem_cons_of_mem p hq)) ?_ ?_ (hpath.sortedKeys hs)
    · rw [hjoin]
      refine (steady_joinRoom hready.calm (hconvs ▸ hs) ?_ true).calm
      intro kc hkc hmuc
      rw [hconvs] at hkc
      exact hn kc (Chats.mem_of_getConversation hkc).1 hmuc
    · rw [hjoin]
      exact noneWaiting_joinRoom (hconvs ▸ hn) p true

theorem setConnected_caches (ha : Calm a) (hr : RoomsJoined a) (hs : SortedKeys a.convs)
    (hp : Spared a .connected) :
    Calm a.setConnected ∧ (¬ NoneWaiting a.convs → Steady a a.setConnected) := by
  have hconnected : Steady a { a with connected := true } :=
    Steady.of_store ha rfl
  rcases hp with hnone | hnone
  · have heq : a.setConnected = { a with connected := true } := by simp [setConnected, hnone]
    rw [heq]
    exact ⟨hconnected.calm, fun _ => hconnected⟩
  · exact ⟨calm_rejoin hr hconnected.calm hnone hs, fun hno => absurd hnone hno⟩

/-! ## Every event -/

theorem run_caches (ha : Calm a) (hstay : a.env.stayConnected = true) (hs : SortedKeys a.convs)
    (hr : RoomsJoined a) {e : Event} (hp : Spared a e) :
    Calm (e.run a) ∧
      (¬ NoneWaiting a.convs → ∃ o, Steady { a with oracle := o } (e.run a)) := by
  have hsteady : ∀ {b : Account}, Steady a b →
      Calm b ∧ (¬ NoneWaiting a.convs → ∃ o, Steady { a with oracle := o } b) :=
    fun h => ⟨h.calm, fun _ => ⟨a.oracle, h⟩⟩
  cases e with
  | presence p =>
    obtain ⟨hcalm, h⟩ := presenceReceived_caches ha hstay hs hp
    exact ⟨hcalm, fun hwaiting => ⟨_, h hwaiting⟩⟩
  | caps j known =>
    have hcaps : Steady a { a with caps := Function.update a.caps j known } :=
      Steady.of_store ha rfl
    simp only [Event.run]
    split
    · exact hsteady (hcaps.trans (steady_onConnectingTimeout hcaps.calm))
    · exact hsteady hcaps
  | connectingTimeout =>
    have htimer : Steady a { a with reconnectTimer := false } := Steady.of_store ha rfl
    exact hsteady (htimer.trans (steady_onConnectingTimeout htimer.calm))
  | connected =>
    obtain ⟨hcalm, h⟩ := setConnected_caches ha hr hs hp
    exact ⟨hcalm, fun hwaiting => ⟨a.oracle, h hwaiting⟩⟩
  | convMessage payload subject => exact hsteady (steady_handleConvMessagePayload ha _ _)
  | attention payload => exact hsteady (steady_handleAttentionPayload ha _)
  | chatState buddyname state => exact hsteady (steady_forwardExisting ha _ _)
  | ack payload =>
    simp only [Event.run, handleConvMessageAckPayload]
    split
    · exact hsteady (Steady.refl ha)
    · exact hsteady (steady_forwardExisting ha _ _)
  | participant p => exact hsteady (steady_handleParticipantChangedPayload ha hp)
  | roomNickname room nickname =>
    simp only [Event.run, handleRoomChangedPayload]
    split
    · exact hsteady (Steady.refl ha)
    · refine hsteady (Steady.call ha fun kc _ _ => ?_)
      exact Cares.of_same rfl rfl rfl fun _ _ h => absurd h List.not_mem_nil
  | message m => exact hsteady (steady_messageReceived ha m)
  | sessions js => exact hsteady (Steady.of_store ha rfl)
  | roster getBuddy => exact hsteady (Steady.of_store ha rfl)

end Steps

/-! ## Every run -/

theorem calm_of_spared {tr : List (Account × Event)} {a : Account} (h : machine.Run tr a)
    (hmode : a.env.serverMode = true) (hstay : a.env.stayConnected = true)
    (hp : Machine.Meets Spared tr) : Calm a := by
  induction h with
  | init h0 =>
    obtain ⟨x, caps, rfl⟩ := h0
    exact ⟨hmode, fun _ hkc => (nomatch hkc), fun _ _ hkc => (nomatch hkc)⟩
  | @step tr a a' e h hs ih =>
    obtain ⟨hcond, hrest⟩ := Machine.meets_cons.mp hp
    obtain ⟨-, rfl, -⟩ := step_eq hs
    have henv := (path_run (roomsJoined h) e).env
    rw [henv] at hmode hstay
    exact (run_caches (ih hmode hstay hrest) hstay (sortedKeys h) (roomsJoined h) hcond).1

/-- While messages are cached a steady step sends none of those that wait in a chat. -/
theorem Steady.not_sentIn {a b : Account} {o : Oracle} (h : Steady { a with oracle := o } b)
    (ha : Calm a) (hcache : a.cacheMessages = true) {key : String} {m : Message}
    (hm : Waiting key m a) : ¬ SentIn a b m := by
  rintro ⟨outs, hlog, j, ss, hout⟩
  obtain ⟨c, hc, hmuc, hcached⟩ := hm
  obtain ⟨outs', hlog', hgroup⟩ := h.log
  have houts : outs = outs' := List.append_cancel_right (hlog.symm.trans hlog')
  have htype := hgroup hcache _ ss (houts ▸ hout)
  rw [type_setTo, (ha.typed _ hc).cached m hcached, hmuc] at htype
  cases htype

/-- In server mode with `stay_connected`, in every run whose steps all meet the condition, every
step is in time. -/
theorem timely_of_spared {tr : List (Account × Event)} {a a' : Account} {e : Event}
    (h : machine.Run ((a, e) :: tr) a') (hmode : a.env.serverMode = true)
    (hstay : a.env.stayConnected = true) (hp : Machine.Meets Spared ((a, e) :: tr)) :
    Timely a e a' := by
  cases h with
  | step h hs =>
    obtain ⟨hcond, hrest⟩ := Machine.meets_cons.mp hp
    have ha := calm_of_spared h hmode hstay hrest
    obtain ⟨-, rfl, -⟩ := step_eq hs
    have hrun := (run_caches ha hstay (sortedKeys h) (roomsJoined h) hcond).2
    by_cases hnone : NoneWaiting a.convs
    · -- nothing waits, so nothing is owed
      have hfree : ∀ key m, ¬ Waiting key m a := by
        rintro key m ⟨c, hc, hmuc, hm⟩
        rw [hnone _ hc hmuc] at hm
        cases hm
      refine ⟨fun _ key m hm => absurd hm (hfree key m), fun _ key m hm => absurd hm (hfree key m),
        fun kc hkc hmuc => .inl fun m hm => ?_⟩
      rw [hnone kc hkc hmuc] at hm
      cases hm
    · obtain ⟨o, hsteady⟩ := hrun hnone
      have hcache : a.cacheMessages = true := by
        by_contra hoff
        exact hnone (ha.idle (by simpa using hoff))
      refine ⟨fun hcomes => ?_, fun _ key m hm => hsteady.not_sentIn ha hcache hm,
        fun kc hkc hmuc => .inr (hsteady.kept hcache kc hkc hmuc)⟩
      cases e with
      | presence p => exact absurd (hcond.1 (.inl (of_decide_eq_true hcomes))) hnone
      | _ => cases hcomes

namespace Sample

def carol (r : String) : Jid := ⟨"carol", "localhost", r⟩

/-- A user of server mode who stays connected. -/
def subscriber : Account :=
  start
    { env := { serverMode := true, stayConnected := true, user := carol "" }
      oracle := fun _ => [], sessions := [], getBuddy := fun _ => none, cacheMessages := false }
    fun _ => true

def toServer (type : PresenceType) : Presence where
  fromJid := carol "home"
  toJid := ⟨"", "localhost", ""⟩
  type := type

def hello : Event := .convMessage { buddyname := "bob", message := "hello" } false

/-- The user comes online, goes offline, and gets a message. -/
def offlineMessage : List Event :=
  [.presence (toServer .available), .connected, .presence (toServer .unavailable), hello]

end Sample

/-- A second message waits with the first one. -/
theorem timely_of_spared_hello : ∃ tr a a', machine.Run ((a, Sample.hello) :: tr) a' ∧
    Machine.Meets Spared ((a, Sample.hello) :: tr) ∧
    a'.convs.map (fun kc => kc.2.cachedMessages.length) = [2] ∧ Timely a Sample.hello a' := by
  have hinit : machine.Run [] Sample.subscriber := .init ⟨_, _, rfl⟩
  have honline := hinit.step (e := .presence (Sample.toServer .available)) rfl
  have hconnected := honline.step (e := .connected) rfl
  have hoffline := hconnected.step (e := .presence (Sample.toServer .unavailable)) rfl
  have hfirst := hoffline.step (e := Sample.hello) rfl
  have hsecond := hfirst.step (e := Sample.hello) rfl
  have hnojoin : ∀ type, ¬ IsJoin (Sample.toServer type) := fun _ hp => hp.node rfl
  refine ⟨_, _, _, hsecond, ?meets, by rfl, timely_of_spared hsecond rfl rfl ?meets⟩
  simp only [Machine.meets_cons]
  refine ⟨trivial, trivial, ?_, .inl rfl, ?_, Machine.meets_nil⟩
  · exact ⟨fun _ _ hkc => (nomatch hkc), fun hp => absurd hp (hnojoin _)⟩
  · exact ⟨fun _ _ hkc => (nomatch hkc), fun hp => absurd hp (hnojoin _)⟩

/-- The next available presence sends nothing, and the message waits on. -/
theorem not_timely_of_message :
    ¬ ∀ (tr : List (Account × Event)) (a a' : Account) (e : Event),
      machine.Run ((a, e) :: tr) a' → a.env.serverMode = true → a.env.stayConnected = true →
        Timely a e a' := by
  intro hall
  have hexec : ∃ a, machine.exec Sample.subscriber Sample.offlineMessage = some a ∧
      a.env.serverMode = true ∧ a.env.stayConnected = true ∧ (∃ m, Waiting "bob" m a) ∧
      ∃ a', step a (.presence (Sample.toServer .available)) = some a' ∧
        ∃ p, a'.log = [.presenceChanged p] ++ a.log :=
    ⟨_, by rfl, rfl, rfl, ⟨_, _, .head _, rfl, .head _⟩, _, by rfl, _, by rfl⟩
  obtain ⟨a, ha, hmode, hstay, ⟨m, hm⟩, a', hs, p, hlog⟩ := hexec
  have hinit : machine.init Sample.subscriber := ⟨_, _, rfl⟩
  obtain ⟨tr, hrun, -⟩ := Machine.exists_run_of_exec hinit ha
  have htimely := hall tr a a' _ (hrun.step hs) hmode hstay
  obtain ⟨outs, hlog', j, ss, hout⟩ := htimely.online rfl "bob" m hm
  rw [← List.append_cancel_right (hlog.symm.trans hlog')] at hout
  cases List.mem_singleton.mp hout

end Spectrum.Account
