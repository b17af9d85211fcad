import Spectrum.Account.Lookup
import Spectrum.Account.Keys

/-!
# The caches of the conversations

While a user of server mode is offline his chats keep the messages that arrive, the last hundred
of each. `Cares` says what every method of a conversation does to its cache: a cache grows at the
end while messages are cached and stays empty otherwise, and in the meantime only messages of
rooms are sent. `Steady` says the same of an operation of the account.
-/

namespace Spectrum.Account

open Lib

/-- Messages have been added at the end, and taken away in front only beyond a hundred. -/
def Kept (l l' : List Message) : Prop :=
  ∃ new n, l' = (l ++ new).drop n ∧ (n = 0 ∨ 100 ≤ l'.length)

theorem Kept.refl (l : List Message) : Kept l l := ⟨[], 0, by simp, .inl rfl⟩

theorem Kept.trans {l l' l'' : List Message} (h : Kept l l') (h' : Kept l' l'') : Kept l l'' := by
  obtain ⟨new, n, rfl, hn⟩ := h
  obtain ⟨new', n', rfl, hn'⟩ := h'
  have hle : n ≤ (l ++ new).length := by
    rcases hn with rfl | hn
    · exact Nat.zero_le _
    · rw [List.length_drop] at hn
      omega
  have hdrop : ((l ++ new).drop n ++ new').drop n' = (l ++ (new ++ new')).drop (n + n') := by
    rw [← List.drop_append_of_le_length hle, List.drop_drop, List.append_assoc]
  refine ⟨new ++ new', n + n', hdrop, ?_⟩
  simp only [List.length_drop, List.length_append] at hn hn' ⊢
  omega

/-- A room caches messages of the room, a chat caches other messages. -/
structure Typed (c : Conversation) : Prop where
  cached : ∀ m ∈ c.cachedMessages, (m.head.type = .groupchat ↔ c.muc = true)
  subject : ∀ m, c.subject = some m → m.head.type = .groupchat

/-- What a method does to the cache of its conversation. -/
structure Cares (x : Context) (c : Conversation) (r : Conversation × List Output) : Prop where
  muc : r.1.muc = c.muc
  typed : Typed c → Typed r.1
  kept : x.cacheMessages = true → c.muc = false → Kept c.cachedMessages r.1.cachedMessages
  empty : x.cacheMessages = false → c.muc = false → c.cachedMessages = [] →
    r.1.cachedMessages = []
  groupchat : x.cacheMessages = true → Typed c → ∀ m ss, Output.message m ss ∈ r.2 →
    m.head.type = .groupchat

section Methods

variable {x : Context} {c : Conversation}

theorem Cares.append {r r' : Conversation × List Output} (h : Cares x c r) (h' : Cares x r.1 r') :
    Cares x c (r'.1, r.2 ++ r'.2) where
  muc := h'.muc.trans h.muc
  typed := h'.typed ∘ h.typed
  kept := fun hx hc => (h.kept hx hc).trans (h'.kept hx (h.muc.trans hc))
  empty := fun hx hc hempty => h'.empty hx (h.muc.trans hc) (h.empty hx hc hempty)
  groupchat := by
    intro hx ht m ss hm
    rcases List.mem_append.mp hm with hm | hm
    · exact h.groupchat hx ht m ss hm
    · exact h'.groupchat hx (h.typed ht) m ss hm

/-- A method that leaves the cache and the subject alone and sends no message. -/
theorem Cares.of_same {r : Conversation × List Output} (hmuc : r.1.muc = c.muc)
    (hcached : r.1.cachedMessages = c.cachedMessages) (hsubject : r.1.subject = c.subject)
    (houts : ∀ m ss, Output.message m ss ∉ r.2) : Cares x c r where
  muc := hmuc
  typed := fun ht => ⟨by rw [hcached, hmuc]; exact ht.cached, by rw [hsubject]; exact ht.subject⟩
  kept := fun _ _ => hcached ▸ Kept.refl _
  empty := fun _ _ hempty => hcached.trans hempty
  groupchat := fun _ _ m ss hm => absurd hm (houts m ss)

theorem type_addPayload (p : Payload) (m : Message) : (m.addPayload p).head.type = m.head.type := by
  simp [Message.addPayload]

theorem type_setTo (j : Jid) (m : Message) : (m.setTo j).head.type = m.head.type := by
  simp [Message.setTo]

theorem kept_cacheMessage (m : Message) (c : Conversation) :
    Kept c.cachedMessages (c.cacheMessage m).cachedMessages := by
  unfold Conversation.cacheMessage
  dsimp only
  split
  · rename_i hlen
    refine ⟨[m.addPayload (.delay none)], 1, List.drop_one.symm, .inr ?_⟩
    rw [List.length_tail]
    omega
  · exact ⟨[m.addPayload (.delay none)], 0, rfl, .inl rfl⟩

theorem typed_cacheMessage {m : Message} (hm : m.head.type = .groupchat ↔ c.muc = true)
    (ht : Typed c) : Typed (c.cacheMessage m) := by
  have hall : ∀ m' ∈ c.cachedMessages ++ [m.addPayload (.delay none)],
      (m'.head.type = .groupchat ↔ c.muc = true) := by
    intro m' hm'
    rcases List.mem_append.mp hm' with hm' | hm'
    · exact ht.cached m' hm'
    · rw [List.mem_singleton.mp hm', type_addPayload]
      exact hm
  refine ⟨?_, ht.subject⟩
  unfold Conversation.cacheMessage
  dsimp only
  split
  · exact fun m' hm' => hall m' (List.mem_of_mem_tail hm')
  · exact hall

theorem cares_sendToJids {m : Message} (hm : m.head.type = .groupchat) (js : List Jid)
    (c : Conversation) : Cares x c (c.sendToJids x m js) := by
  have hsent : ∀ (j : Jid) (d : Conversation), Cares x d (d, [x.sendMessage (m.setTo j)]) := by
    intro j d
    refine ⟨rfl, id, fun _ _ => Kept.refl _, fun _ _ h => h, ?_⟩
    intro _ _ m' ss hm'
    cases List.mem_singleton.mp hm'
    rw [type_setTo]
    exact hm
  induction js generalizing c with
  | nil => exact Cares.of_same rfl rfl rfl fun _ _ h => absurd h List.not_mem_nil
  | cons j js ih =>
    unfold Conversation.sendToJids
    split
    · exact (hsent j c).append (ih c)
    · have hsubject : Cares x c ({ c with subject := some (m.setTo j) }, []) := by
        refine ⟨rfl, fun ht => ⟨ht.cached, ?_⟩, fun _ _ => Kept.refl _, fun _ _ h => h,
          fun _ _ _ _ h => absurd h List.not_mem_nil⟩
        intro m' hm'
        cases hm'
        rw [type_setTo]
        exact hm
      dsimp only
      split
      · exact hsubject
      · exact (hsubject.append (hsent j _)).append (ih _)

/-- A message of the right type: cached or sent to the participants of a room. -/
theorem cares_handleRawMessage (hmode : x.env.serverMode = true) {m : Message}
    (hm : m.head.type = .groupchat ↔ c.muc = true) : Cares x c (c.handleRawMessage x m) := by
  have hcached : (x.cacheMessages = false → c.muc = false → False) →
      Cares x c (c.cacheMessage m, []) := by
    intro hno
    exact ⟨rfl, typed_cacheMessage hm, fun _ _ => kept_cacheMessage m c,
      fun hx hc => (hno hx hc).elim, fun _ _ _ _ h => nomatch h⟩
  unfold Conversation.handleRawMessage
  split
  · split
    · rename_i hcache
      have hx : x.cacheMessages = true := by simpa [hmode] using hcache
      exact hcached fun hno => by simp [hx] at hno
    · rename_i hcache
      have hx : x.cacheMessages = false := by simpa [hmode] using hcache
      exact ⟨rfl, id, fun hno => by simp [hx] at hno, fun _ _ h => h,
        fun hno => by simp [hx] at hno⟩
  · rename_i htype
    have hgroup : m.head.type = .groupchat := by simpa using htype
    split
    · exact hcached fun _ hno => by simp [hm.mp hgroup] at hno
    · exact cares_sendToJids hgroup _ c

theorem cares_handleRawMessages (hmode : x.env.serverMode = true) {ms : List Message}
    (hms : ∀ m ∈ ms, (m.head.type = .groupchat ↔ c.muc = true)) :
    Cares x c (c.handleRawMessages x ms) := by
  induction ms generalizing c with
  | nil => exact Cares.of_same rfl rfl rfl fun _ _ h => nomatch h
  | cons m ms ih =>
    have hone := cares_handleRawMessage (x := x) hmode (hms m List.mem_cons_self)
    refine hone.append (ih fun m' hm' => ?_)
    rw [hone.muc]
    exact hms m' (List.mem_cons_of_mem m hm')

theorem messageType_eq_groupchat_iff {env : Env} {t : MessageType} :
    c.messageType env t = .groupchat ↔ c.muc = true := by
  unfold Conversation.messageType
  split
  · rename_i hmuc
    simp [hmuc]
  · rename_i hmuc
    split <;> simp [hmuc]

theorem type_address (nickname : String) (m : Message) :
    (c.address x nickname m).head.type = .groupchat ↔ c.muc = true := by
  have htype : c.messageType x.env m.head.type = .groupchat ↔ c.muc = true :=
    messageType_eq_groupchat_iff
  unfold Conversation.address
  dsimp only
  split
  · simpa [Message.setType, Message.setFrom] using htype
  · simpa [Message.setType, Message.setFrom, Message.setTo] using htype

theorem cares_handleMessage (hmode : x.env.serverMode = true) (m : Message) (nickname : String)
    (isCarbon : Bool) : Cares x c (c.handleMessage x m nickname isCarbon) := by
  have htype := type_address (x := x) (c := c) nickname m
  unfold Conversation.handleMessage
  dsimp only
  split
  · refine cares_handleRawMessages hmode fun m' hm' => ?_
    obtain ⟨j, -, rfl⟩ := List.mem_map.mp hm'
    have hsent : ∀ payload : Message,
        (Conversation.forwardAsCarbonSent x payload c j).head.type = payload.head.type := by
      intro payload
      rw [Conversation.forwardAsCarbonSent, if_pos hmode]
      rfl
    rw [hsent]
    simpa [Message.setTo, Message.setFrom] using htype
  · have hraw := cares_handleRawMessage (x := x) hmode htype
    split
    · refine hraw.append (cares_handleRawMessages hmode fun m' hm' => ?_)
      obtain ⟨p, -, rfl⟩ := List.mem_map.mp hm'
      rw [hraw.muc]
      exact htype
    · exact hraw

/-- The cache is sent: of a room, or of a chat that has none. -/
theorem cares_sendCachedMessages (hc : c.muc = false → c.cachedMessages = []) (toJid : Option Jid) :
    Cares x c (c.sendCachedMessages x toJid) where
  muc := rfl
  typed := by
    intro ht
    refine ⟨fun m hm => (nomatch hm), fun m hm => ?_⟩
    obtain ⟨m', hm', rfl⟩ := Option.map_eq_some_iff.mp hm
    rw [type_setTo]
    exact ht.subject m' hm'
  kept := by
    intro _ hmuc
    rw [hc hmuc]
    exact Kept.refl _
  empty := fun _ _ _ => rfl
  groupchat := by
    intro _ ht m ss hm
    obtain ⟨m', hm', heq⟩ := List.mem_map.mp hm
    cases heq
    rcases List.mem_append.mp hm' with hm' | hm'
    · obtain ⟨m'', hm'', rfl⟩ := List.mem_map.mp hm'
      rw [type_setTo]
      cases hmuc : c.muc with
      | true => exact (ht.cached m'' hm'').mpr hmuc
      | false =>
        rw [hc hmuc] at hm''
        cases hm''
    · obtain ⟨m'', hm'', rfl⟩ := Option.map_eq_some_iff.mp (Option.mem_toList.mp hm')
      rw [type_setTo]
      exact ht.subject m'' hm''

theorem cares_generatePresence (nickname : String) (flag : BitVec 32) (status : StatusType)
    (statusMessage newname iconhash : String) (c : Conversation) :
    Cares x c
      ((c.generatePresence x nickname flag status statusMessage newname iconhash).2, []) := by
  rcases @generatePresence_cases x nickname flag status statusMessage newname iconhash c with
    ⟨h, -⟩ | ⟨h, -⟩
  · rw [h]
    exact Cares.of_same rfl rfl rfl fun _ _ h => nomatch h
  · rw [h]
    exact Cares.of_same rfl rfl rfl fun _ _ h => nomatch h

/-- Presences may be sent in addition. -/
theorem Cares.presences {d : Conversation} (h : Cares x c (d, [])) {outs : List Output}
    (houts : ∀ m ss, Output.message m ss ∉ outs) : Cares x c (d, outs) :=
  ⟨h.muc, h.typed, h.kept, h.empty, fun _ _ m ss hm => absurd hm (houts m ss)⟩

theorem cares_renameTo (toJid : Jid) (nickname : String) (c : Conversation) :
    Cares x c (c.renameTo x toJid nickname) := by
  unfold Conversation.renameTo
  split
  · have hnick : Cares x c ({ c with nickname := nickname }, []) :=
      Cares.of_same rfl rfl rfl fun _ _ h => nomatch h
    have hfirst := hnick.append (cares_generatePresence nickname 0 (.ofShow .online) "" "" "" _)
    have hchanged : ∀ d : Conversation, Cares x d ({ d with nicknameChanged := true }, []) :=
      fun d => Cares.of_same rfl rfl rfl fun _ _ h => nomatch h
    have hsecond := (hfirst.append (hchanged _)).append
      (cares_generatePresence nickname 0 (.ofShow .online) "" c.nickname "" _)
    exact hsecond.presences (by simp)
  · exact Cares.of_same rfl rfl rfl fun _ _ h => nomatch h

theorem cares_sendParticipants (toJid : Jid) (nickname : String) (c : Conversation) :
    Cares x c (c.sendParticipants x toJid nickname) := by
  have hself := (cares_renameTo toJid nickname c).append
    (cares_generatePresence (x := x) (c.renameTo x toJid nickname).1.nickname 0 (.ofShow .online)
      "" "" "" _)
  rw [List.append_nil] at hself
  refine ⟨hself.muc, fun ht => ⟨(hself.typed ht).cached, (hself.typed ht).subject⟩, hself.kept,
    hself.empty, ?_⟩
  intro hx ht m ss hm
  rcases List.mem_append.mp hm with hm | hm
  · exact hself.groupchat hx ht m ss hm
  · rcases List.mem_cons.mp hm with hm | hm
    · cases hm
    · obtain ⟨np, -, heq⟩ := List.mem_map.mp hm
      cases heq

@[simp] theorem cached_generatePresence (nickname : String) (flag : BitVec 32)
    (status : StatusType) (statusMessage newname iconhash : String) (c : Conversation) :
    (c.generatePresence x nickname flag status statusMessage newname iconhash).2.cachedMessages =
      c.cachedMessages := by
  rcases @generatePresence_cases x nickname flag status statusMessage newname iconhash c with
    ⟨h, -⟩ | ⟨h, -⟩
  · rw [h]
  · rw [h]

theorem cached_sendParticipants (toJid : Jid) (nickname : String) (c : Conversation) :
    (c.sendParticipants x toJid nickname).1.cachedMessages = c.cachedMessages := by
  have hrename : (c.renameTo x toJid nickname).1.cachedMessages = c.cachedMessages := by
    unfold Conversation.renameTo
    split
    · simp [Conversation.selfPresence]
    · rfl
  simp [Conversation.sendParticipants, Conversation.selfPresence, hrename]

theorem cares_addParticipant (p : Presence) (hc : c.muc = false → c.cachedMessages = []) :
    Cares x c (addParticipant p x c) := by
  have hadd : Cares x c (c.addJid p.fromJid, []) :=
    Cares.of_same rfl rfl rfl fun _ _ h => nomatch h
  have hsent := hadd.append (cares_sendParticipants (x := x) p.fromJid p.toJid.resource _)
  refine hsent.append (cares_sendCachedMessages ?_ (some p.fromJid))
  intro hmuc
  rw [cached_sendParticipants]
  exact hc (hsent.muc ▸ hmuc)

theorem cares_removeJid (j : Jid) (c : Conversation) : Cares x c (c.removeJid x j) := by
  have hjids : ∀ d : Conversation,
      Cares x d ({ d with toConversation := d.toConversation.removeJid j }, []) :=
    fun d => Cares.of_same rfl rfl rfl fun _ _ h => nomatch h
  unfold Conversation.removeJid
  dsimp only
  split
  · have hself := (cares_generatePresence (x := x) c.nickname 0 (.ofShow .none) "" "" "" c).append
      (hjids _)
    exact hself.presences (by simp)
  · exact hjids c

theorem cares_changeParticipant (nick : String) (flag : BitVec 32) (status : StatusType)
    (statusMessage newname iconhash nickAlias : String) (c : Conversation) :
    Cares x c
      (c.changeParticipant x nick flag status statusMessage newname iconhash nickAlias).2 := by
  have hself := cares_generatePresence (x := x) (if nickAlias = "" then nick else nickAlias) flag
    status statusMessage newname iconhash c
  refine ⟨hself.muc, fun ht => ⟨(hself.typed ht).cached, (hself.typed ht).subject⟩, hself.kept,
    hself.empty, ?_⟩
  intro _ _ m ss hm
  obtain ⟨j, -, heq⟩ := List.mem_map.mp hm
  cases heq

theorem cares_sendSubject (c : Conversation) : Cares x c (c.sendSubject x) := by
  unfold Conversation.sendSubject
  split
  · rename_i m hsubject
    split
    · refine ⟨rfl, fun ht => ⟨ht.cached, ht.subject⟩, fun _ _ => Kept.refl _, fun _ _ h => h, ?_⟩
      intro _ ht m' ss hm'
      cases List.mem_singleton.mp hm'
      exact ht.subject m hsubject
    · exact Cares.of_same rfl rfl rfl fun _ _ h => nomatch h
  · exact Cares.of_same rfl rfl rfl fun _ _ h => nomatch h

end Methods

/-! ## The account -/

/-- No chat has cached messages. -/
def NoneWaiting (cs : Chats) : Prop := ∀ kc ∈ cs, kc.2.muc = false → kc.2.cachedMessages = []

/-- Server mode; messages wait only while they are cached. -/
structure Calm (a : Account) : Prop where
  mode : a.env.serverMode = true
  typed : ∀ kc ∈ a.convs, Typed kc.2
  idle : a.cacheMessages = false → NoneWaiting a.convs

/-- The operation does not end or start the caching of messages, keeps the chats with their
caches, and sends only messages of rooms while messages are cached. -/
structure Steady (a b : Account) : Prop where
  env : b.env = a.env
  oracle : b.oracle = a.oracle
  cache : b.cacheMessages = a.cacheMessages
  calm : Calm b
  kept : a.cacheMessages = true → ∀ kc ∈ a.convs, kc.2.muc = false →
    ∃ c, (kc.1, c) ∈ b.convs ∧ c.muc = false ∧ Kept kc.2.cachedMessages c.cachedMessages
  log : ∃ outs, b.log = outs ++ a.log ∧
    (a.cacheMessages = true → ∀ m ss, Output.message m ss ∈ outs → m.head.type = .groupchat)

/-- The fields that `Steady` speaks about. -/
def store (a : Account) := (a.env, a.oracle, a.cacheMessages, a.convs, a.log)

namespace Steady

variable {a b c : Account}

theorem trans (h : Steady a b) (h' : Steady b c) : Steady a c := by
  obtain ⟨outs, hlog, hgroup⟩ := h.log
  obtain ⟨outs', hlog', hgroup'⟩ := h'.log
  refine ⟨h'.env.trans h.env, h'.oracle.trans h.oracle, h'.cache.trans h.cache, h'.calm, ?_,
    outs' ++ outs, ?_, ?_⟩
  · intro hcache kc hkc hmuc
    obtain ⟨d, hd, hdmuc, hkept⟩ := h.kept hcache kc hkc hmuc
    obtain ⟨e, he, hemuc, hkept'⟩ := h'.kept (h.cache.trans hcache) (kc.1, d) hd hdmuc
    exact ⟨e, he, hemuc, hkept.trans hkept'⟩
  · rw [hlog', hlog, List.append_assoc]
  · intro hcache m ss hm
    rcases List.mem_append.mp hm with hm | hm
    · exact hgroup' (h.cache.trans hcache) m ss hm
    · exact hgroup hcache m ss hm

/-- The operation sends `outs` and leaves the rest alone. -/
theorem of_eq (ha : Calm a) (henv : b.env = a.env) (horacle : b.oracle = a.oracle)
    (hcache : b.cacheMessages = a.cacheMessages)
    (hconvs : b.convs = a.convs) {outs : List Output} (hlog : b.log = outs ++ a.log)
    (houts : ∀ m ss, Output.message m ss ∉ outs) : Steady a b := by
  refine ⟨henv, horacle, hcache, ⟨henv ▸ ha.mode, hconvs ▸ ha.typed, ?_⟩, ?_, outs, hlog, ?_⟩
  · rw [hcache, hconvs]
    exact ha.idle
  · intro _ kc hkc hmuc
    exact ⟨kc.2, hconvs ▸ hkc, hmuc, Kept.refl _⟩
  · exact fun _ m ss hm => absurd hm (houts m ss)

/-- A change of fields that `Steady` does not mention. -/
theorem of_store (ha : Calm a) (h : b.store = a.store) : Steady a b := by
  obtain ⟨henv, horacle, hcache, hconvs, hlog⟩ : b.env = a.env ∧ b.oracle = a.oracle ∧
      b.cacheMessages = a.cacheMessages ∧ b.convs = a.convs ∧ b.log = a.log := by
    simpa only [store, Prod.mk.injEq] using h
  exact of_eq ha henv horacle hcache hconvs (hlog.trans (List.nil_append _).symm)
    fun _ _ h => nomatch h

theorem refl (ha : Calm a) : Steady a a := of_store ha rfl

/-- A method that cares is called for the conversations that `f` chooses. -/
theorem of_cares (ha : Calm a) {f : String → Conversation → Conversation × List Output}
    (hf : ∀ kc ∈ a.convs, Cares a.toContext kc.2 (f kc.1 kc.2)) (henv : b.env = a.env)
    (horacle : b.oracle = a.oracle) (hcache : b.cacheMessages = a.cacheMessages)
    (hconvs : b.convs = a.convs.map fun kc => (kc.1, (f kc.1 kc.2).1)) {outs : List Output}
    (hlog : b.log = outs ++ a.log)
    (houts : ∀ o ∈ outs, ∃ kc ∈ a.convs, o ∈ (f kc.1 kc.2).2) : Steady a b := by
  have hmem : ∀ kd ∈ b.convs, ∃ kc ∈ a.convs, kd = (kc.1, (f kc.1 kc.2).1) := by
    intro kd hkd
    rw [hconvs] at hkd
    obtain ⟨kc, hkc, rfl⟩ := List.mem_map.mp hkd
    exact ⟨kc, hkc, rfl⟩
  refine ⟨henv, horacle, hcache, ⟨henv ▸ ha.mode, ?_, ?_⟩, ?_, outs, hlog, ?_⟩
  · intro kd hkd
    obtain ⟨kc, hkc, rfl⟩ := hmem kd hkd
    exact (hf kc hkc).typed (ha.typed kc hkc)
  · intro hoff kd hkd hmuc
    rw [hcache] at hoff
    obtain ⟨kc, hkc, rfl⟩ := hmem kd hkd
    have hmuc' : kc.2.muc = false := (hf kc hkc).muc ▸ hmuc
    exact (hf kc hkc).empty hoff hmuc' (ha.idle hoff kc hkc hmuc')
  · intro hon kc hkc hmuc
    refine ⟨(f kc.1 kc.2).1, ?_, (hf kc hkc).muc.trans hmuc, (hf kc hkc).kept hon hmuc⟩
    rw [hconvs]
    exact List.mem_map.mpr ⟨kc, hkc, rfl⟩
  · intro hon m ss hm
    obtain ⟨kc, hkc, hout⟩ := houts _ hm
    exact (hf kc hkc).groupchat hon (ha.typed kc hkc) m ss hout

theorem setFault (ha : Calm a) : Steady a a.setFault := of_store ha rfl

theorem emit (ha : Calm a) {outs : List Output} (houts : ∀ m ss, Output.message m ss ∉ outs) :
    Steady a (a.emit outs) :=
  of_eq ha rfl rfl rfl rfl rfl fun m ss hm => houts m ss (List.mem_reverse.mp hm)

theorem callAll (ha : Calm a) {f : String → Conversation → Conversation × List Output}
    (hf : ∀ kc ∈ a.convs, Cares a.toContext kc.2 (f kc.1 kc.2)) : Steady a (a.callAll f) := by
  unfold Account.callAll
  split
  · refine of_cares ha hf rfl rfl rfl rfl rfl fun o ho => ?_
    obtain ⟨kc, hkc, hout⟩ := List.mem_flatMap.mp (List.mem_reverse.mp ho)
    exact ⟨kc, hkc, hout⟩
  · exact setFault ha

theorem call (ha : Calm a) {key : String}
    {f : Context → Conversation → Conversation × List Output}
    (hf : ∀ kc ∈ a.convs, kc.1 = key → Cares a.toContext kc.2 (f a.toContext kc.2)) :
    Steady a (a.call key f) := by
  unfold Account.call
  split
  · exact setFault ha
  · rename_i key' c hfind
    obtain ⟨hmem, hkey⟩ := Chats.mem_of_find hfind
    dsimp only at hkey
    subst hkey
    split
    · exact setFault ha
    · have hcares : ∀ kc ∈ a.convs, Cares a.toContext kc.2
          (if kc.1 = key' then f a.toContext kc.2 else (kc.2, [])) := by
        intro kc hkc
        split
        · rename_i hkey
          exact hf kc hkc hkey
        · exact Cares.of_same rfl rfl rfl fun _ _ h => nomatch h
      refine of_cares (f := fun key d => if key = key' then f a.toContext d else (d, [])) ha hcares
        rfl rfl rfl ?_ rfl ?_
      · simp only [Account.emit, Chats.update]
        refine List.map_congr_left fun kc _ => ?_
        split <;> rfl
      · intro o ho
        refine ⟨(key', c), hmem, ?_⟩
        rw [if_pos rfl]
        exact List.mem_reverse.mp ho

/-- A new conversation is stored under a name that is not used. -/
theorem addConversation (ha : Calm a) {c : Conversation} (hfresh : a.convs.find c.legacyName = none)
    (hcached : c.cachedMessages = []) (hsubject : c.subject = none) :
    Steady a (a.addConversation c) := by
  have htyped : Typed c := by
    refine ⟨fun m hm => ?_, fun m hm => ?_⟩
    · rw [hcached] at hm
      cases hm
    · rw [hsubject] at hm
      cases hm
  refine ⟨rfl, rfl, rfl, ⟨ha.mode, ?_, ?_⟩, ?_, [], rfl, fun _ _ _ h => nomatch h⟩
  · intro kd hkd
    rcases Chats.mem_of_mem_addConversation hkd with rfl | hkd
    · exact htyped
    · exact ha.typed kd hkd
  · intro hoff kd hkd hmuc
    rcases Chats.mem_of_mem_addConversation hkd with rfl | hkd
    · exact hcached
    · exact ha.idle hoff kd hkd hmuc
  · intro _ kc hkc hmuc
    refine ⟨kc.2, ?_, hmuc, Kept.refl _⟩
    refine Lib.mem_upsert_of_ne hkc ?_
    intro heq
    obtain ⟨d, hfind⟩ := Chats.exists_find_of_mem hkc
    rw [show kc.1 = c.legacyName from heq, hfresh] at hfind
    cases hfind

end Steady

end Spectrum.Account
