import Spectrum.Transport.Association
import Spectrum.Server.RawIq

/-!
# Handlers that forward to the backend of a user

The handlers of `NetworkPluginServer` that pass something on to the backend of a user: they read
`getData`, which is NULL while the user waits for a backend, and write to the connection behind
it. An `Outcome` is what one call has sent, and whether it went through the NULL pointer. With
`features.rawxml` stanzas are passed on as they are.

* `forwardsSafely_iff`: in the runs whose reconnects find a backend at once, a call is safe
  unless it forwards an attention or a subject for a user without a backend.
-/

namespace Spectrum

open World NetworkPluginServer

namespace Forward

/-- What the handlers read of a message of a client. -/
structure ClientMessage where
  type : Account.MessageType := .chat
  toJid : Jid
  id : String := ""
  body : String := ""
  subject : String := ""
  chatState : Option Account.ChatState := none
  attention : Bool := false
  xhtml : Option String := none
  receiptRequest : Bool := false
  deriving DecidableEq, Repr

/-- What the handlers read of a buddy. -/
structure BuddyItem where
  name : String
  nickname : String := ""
  groups : List String := []
  blocked : Bool := false
  deriving DecidableEq, Repr

structure VCard where
  photo : String
  nickname : String
  deriving DecidableEq, Repr

/-- `BUDDY_STOPPED_TYPING`, `BUDDY_TYPING` and `BUDDY_TYPED`. -/
inductive Typing
  | stopped | typing | typed
  deriving DecidableEq, Repr

inductive Stanza
  | message (m : ClientMessage)
  | presence (p : Presence)
  | iq (iq : RawIq.Iq)
  deriving DecidableEq, Repr

/-- The messages of these handlers, wrapped as the backend gets them. -/
inductive Wrapped
  | plain (m : ToBackend)
  | rawXml (stanza : Stanza)
  | chatState (user : Jid) (state : Typing) (buddyname : String)
  | attention (user : Jid) (buddyname message : String)
  | roomSubjectChanged (user : Jid) (buddyname message : String)
  | convMessage (user : Jid) (buddyname message xhtml id : String)
  | buddyRemoved (user : Jid) (b : BuddyItem)
  | buddyChanged (user : Jid) (b : BuddyItem)
  | vcard (user : Jid) (buddyname : String) (id : Nat) (card : VCard)
  deriving DecidableEq, Repr

structure Outcome where
  sent : List (BackendId × Wrapped) := []
  nullDeref : Bool := false
  deriving DecidableEq, Repr

/-- Nothing goes through a NULL pointer or to a backend that is gone. -/
def Outcome.Safe (w : World) (o : Outcome) : Prop :=
  o.nullDeref = false ∧ ∀ bm ∈ o.sent, bm.1 ∈ w.clients

def Outcome.andThen (o o' : Outcome) : Outcome :=
  ⟨o.sent ++ o'.sent, o.nullDeref || o'.nullDeref⟩

/-- `if (!c) return; send(c->connection, message);`. -/
def forward (x : User) (ms : List Wrapped) : Outcome :=
  match x.data with
  | none => {}
  | some c => { sent := ms.map fun m => (c, m) }

/-- `send(c->connection, message)` without the test. -/
def forwardUnchecked (x : User) (m : Wrapped) : Outcome :=
  match x.data with
  | none => { nullDeref := true }
  | some c => { sent := [(c, m)] }

/-- `features.rawxml`, and how Swiften splits a legacy name into a JID. -/
structure Settings where
  rawxml : Bool
  parseJid : String → Jid

def Settings.legacyTo (st : Settings) (w : World) (toJid : Jid) : Jid :=
  RawIq.legacyTo { toConfig := w.cfg, parseJid := st.parseJid } toJid

/-! ## Presences, rooms and the session -/

def handleRawPresenceReceived (st : Settings) (w : World) (p : Presence) : Outcome :=
  if st.rawxml = false then {}
  else
    match w.users p.fromJid.toBare with
    | none => {}
    | some u =>
      forward (w.user u) [.rawXml (.presence { p with toJid := st.legacyTo w p.toJid })]

def handleRawIQReceived (st : Settings) (w : World) (iq : RawIq.Iq) : Outcome :=
  match w.users iq.fromJid.toBare with
  | none => {}
  | some u => forward (w.user u) [.rawXml (.iq { iq with toJid := st.legacyTo w iq.toJid })]

def handleUserReadyToConnect (w : World) (x : User) : Outcome :=
  forward x (.plain (.login x.jid.toBare x.info.uin x.info.password) ::
    if w.cfg.sendBuddiesOnLogin then [.plain (.buddies x.jid.toBare)] else [])

def handleUserPresenceChanged (st : Settings) (w : World) (x : User) (p : Presence) : Outcome :=
  if p.getShow = .none then {}
  else
    (handleRawPresenceReceived st w p).andThen
      (forward x [.plain (.statusChanged x.jid.toBare (statusOf p) p.status)])

def handleRoomJoined (x : User) (room nickname password : String) : Outcome :=
  forward x [.plain (.joinRoom x.jid.toBare nickname room password)]

def handleRoomLeft (x : User) (room : String) : Outcome :=
  forward x [.plain (.leaveRoom x.jid.toBare room)]

def handleUserDestroyed (x : User) : Outcome :=
  forward x [.plain (.logout x.jid.toBare x.info.uin)]

/-! ## Messages -/

/-- The chat states that a backend is told. -/
def typingOf : Option Account.ChatState → Option Typing
  | some .active => some .stopped
  | some .composing => some .typing
  | some .paused => some .typed
  | _ => none

/-- The part of `handleMessageReceived` after the chat state. -/
def forwardContent (x : User) (conv : String) (m : ClientMessage) : Outcome :=
  let xhtml := m.xhtml.getD ""
  if m.attention then forwardUnchecked x (.attention x.jid.toBare conv m.body)
  else if m.subject ≠ "" then forwardUnchecked x (.roomSubjectChanged x.jid.toBare conv m.subject)
  else if m.body ≠ "" ∨ xhtml ≠ "" then
    forward x [.convMessage x.jid.toBare conv m.body xhtml (if m.receiptRequest then m.id else "")]
  else {}

def handleMessageReceived (st : Settings) (w : World) (x : User) (conv : String)
    (m : ClientMessage) : Outcome :=
  if st.rawxml then
    forward x [.rawXml (.message { m with toJid := st.legacyTo w m.toJid })]
  else
    match typingOf m.chatState, x.data with
    | none, _ => forwardContent x conv m
    | some _, none => {}
    | some state, some c =>
      Outcome.andThen { sent := [(c, .chatState x.jid.toBare state conv)] }
        (forwardContent x conv m)

/-! ## Buddies and vCards -/

def handleBuddyRemoved (x : User) (b : BuddyItem) : Outcome :=
  forward x [.buddyRemoved x.jid.toBare b]

/-- The name and the groups of the roster item replace those of the buddy. -/
def handleBuddyUpdated (x : User) (b : BuddyItem) (nickname : String) (groups : List String) :
    Outcome :=
  forward x [.buddyChanged x.jid.toBare { b with nickname := nickname, groups := groups }]

def handleBuddyAdded (x : User) (b : BuddyItem) (nickname : String) (groups : List String) :
    Outcome :=
  handleBuddyUpdated x b nickname groups

def handleUserBuddyAdded (x : User) (b : BuddyItem) : Outcome :=
  forward x [.buddyChanged x.jid.toBare b]

def handleUserBuddyRemoved (x : User) (b : BuddyItem) : Outcome := handleBuddyRemoved x b

def handleBlockToggled (x : User) (b : BuddyItem) : Outcome :=
  forward x [.buddyChanged x.jid.toBare { b with blocked := !b.blocked }]

def handleVCardUpdated (x : User) (card : Option VCard) : Outcome :=
  match card with
  | none => {}
  | some v => forward x [.vcard x.jid.toBare "" 0 v]

def handleVCardRequired (x : User) (name : String) (id : Nat) : Outcome :=
  forward x [.vcard x.jid.toBare name id ⟨"", ""⟩]

/-! ## All handlers -/

/-- A message of a conversation, or a signal of a user, of a buddy or of the frontend. -/
inductive Call
  | readyToConnect
  | presenceChanged (p : Presence)
  | rawPresence (p : Presence)
  | rawIq (iq : RawIq.Iq)
  | roomJoined (room nickname password : String)
  | roomLeft (room : String)
  | destroyed
  | message (conv : String) (m : ClientMessage)
  | buddyRemoved (b : BuddyItem)
  | buddyUpdated (b : BuddyItem) (nickname : String) (groups : List String)
  | buddyAdded (b : BuddyItem) (nickname : String) (groups : List String)
  | userBuddyAdded (b : BuddyItem)
  | userBuddyRemoved (b : BuddyItem)
  | blockToggled (b : BuddyItem)
  | vcardUpdated (card : Option VCard)
  | vcardRequired (name : String) (id : Nat)
  deriving DecidableEq, Repr

/-- What the call does for the user `u`. -/
def handle (st : Settings) (w : World) (u : UserId) : Call → Outcome
  | .readyToConnect => handleUserReadyToConnect w (w.user u)
  | .presenceChanged p => handleUserPresenceChanged st w (w.user u) p
  | .rawPresence p => handleRawPresenceReceived st w p
  | .rawIq iq => handleRawIQReceived st w iq
  | .roomJoined room nickname password => handleRoomJoined (w.user u) room nickname password
  | .roomLeft room => handleRoomLeft (w.user u) room
  | .destroyed => handleUserDestroyed (w.user u)
  | .message conv m => handleMessageReceived st w (w.user u) conv m
  | .buddyRemoved b => handleBuddyRemoved (w.user u) b
  | .buddyUpdated b nickname groups => handleBuddyUpdated (w.user u) b nickname groups
  | .buddyAdded b nickname groups => handleBuddyAdded (w.user u) b nickname groups
  | .userBuddyAdded b => handleUserBuddyAdded (w.user u) b
  | .userBuddyRemoved b => handleUserBuddyRemoved (w.user u) b
  | .blockToggled b => handleBlockToggled (w.user u) b
  | .vcardUpdated card => handleVCardUpdated (w.user u) card
  | .vcardRequired name id => handleVCardRequired (w.user u) name id

/-- `UserManager::handleMessageReceived` passes the message on to a conversation. -/
def passes (m : ClientMessage) : Bool :=
  m.type != .error && (m.body != "" || m.chatState.isSome || m.subject != "")

/-- The call can happen: a message has passed `UserManager`. -/
def Call.possible : Call → Bool
  | .message _ m => passes m
  | _ => true

/-- An attention or a subject is forwarded without the test, and nothing before it returns. -/
def unchecked (st : Settings) : Call → Bool
  | .message _ m =>
    !st.rawxml && (typingOf m.chatState).isNone && (m.attention || m.subject != "")
  | _ => false

/-! ## Safety -/

/-- The pointer of the user is NULL or points to a backend. -/
def Attached (w : World) (x : User) : Prop := ∀ c, x.data = some c → c ∈ w.clients

variable {st : Settings} {w : World} {x : User} {u : UserId}

theorem safe_nothing : Outcome.Safe w {} := ⟨rfl, fun _ hbm => absurd hbm List.not_mem_nil⟩

theorem safe_andThen {o o' : Outcome} :
    (o.andThen o').Safe w ↔ o.Safe w ∧ o'.Safe w := by
  simp only [Outcome.Safe, Outcome.andThen, Bool.or_eq_false_iff, List.mem_append]
  constructor
  · rintro ⟨⟨h, h'⟩, hsent⟩
    exact ⟨⟨h, fun bm hbm => hsent bm (.inl hbm)⟩, h', fun bm hbm => hsent bm (.inr hbm)⟩
  · rintro ⟨⟨h, hsent⟩, h', hsent'⟩
    exact ⟨⟨h, h'⟩, fun bm hbm => hbm.elim (hsent bm) (hsent' bm)⟩

theorem safe_forward (hx : Attached w x) (ms : List Wrapped) : (forward x ms).Safe w := by
  unfold forward
  split
  · exact safe_nothing
  · rename_i c hc
    refine ⟨rfl, fun bm hbm => ?_⟩
    obtain ⟨m, -, rfl⟩ := List.mem_map.mp hbm
    exact hx c hc

theorem safe_forwardUnchecked (hx : Attached w x) (m : Wrapped) :
    (forwardUnchecked x m).Safe w ↔ x.data ≠ none := by
  unfold forwardUnchecked
  split
  · rename_i hnone
    simp [Outcome.Safe, hnone]
  · rename_i c hc
    have hsafe : Outcome.Safe w { sent := [(c, m)] } := by
      refine ⟨rfl, fun bm hbm => ?_⟩
      rw [List.mem_singleton.mp hbm]
      exact hx c hc
    simp [hsafe, hc]

theorem safe_rawPresence (hall : ∀ v, w.Managed v → Attached w (w.user v))
    (hlink : Link none none w) (p : Presence) : (handleRawPresenceReceived st w p).Safe w := by
  unfold handleRawPresenceReceived
  split
  · exact safe_nothing
  · split
    · exact safe_nothing
    · rename_i v hv
      exact safe_forward (hall v (hlink.managed_of_users hv)) _

theorem safe_rawIq (hall : ∀ v, w.Managed v → Attached w (w.user v))
    (hlink : Link none none w) (iq : RawIq.Iq) : (handleRawIQReceived st w iq).Safe w := by
  unfold handleRawIQReceived
  split
  · exact safe_nothing
  · rename_i v hv
    exact safe_forward (hall v (hlink.managed_of_users hv)) _

theorem safe_forwardContent (hx : Attached w x) (conv : String) (m : ClientMessage) :
    (forwardContent x conv m).Safe w ↔
      ¬ (x.data = none ∧ (m.attention || m.subject != "") = true) := by
  unfold forwardContent
  dsimp only
  split
  · rename_i hattention
    rw [safe_forwardUnchecked hx]
    simp [hattention]
  · rename_i hattention
    split
    · rename_i hsubject
      rw [safe_forwardUnchecked hx]
      simp [hsubject]
    · rename_i hsubject
      have hsafe : ∀ o : Outcome, o.Safe w → (o.Safe w ↔
          ¬ (x.data = none ∧ (m.attention || m.subject != "") = true)) := by
        intro o ho
        simp only [ne_eq, Decidable.not_not] at hsubject
        simp [ho, hattention, hsubject]
      split
      · exact hsafe _ (safe_forward hx _)
      · exact hsafe _ safe_nothing

theorem safe_message (hx : Attached w x) (conv : String) (m : ClientMessage) :
    (handleMessageReceived st w x conv m).Safe w ↔
      ¬ (x.data = none ∧ unchecked st (.message conv m) = true) := by
  unfold handleMessageReceived
  split
  · rename_i hraw
    simp [safe_forward hx, unchecked, hraw]
  · rename_i hraw
    have hraw : st.rawxml = false := by simpa using hraw
    split
    · rename_i htyping
      rw [safe_forwardContent hx]
      simp [unchecked, hraw, htyping]
    · rename_i state htyping hdata
      simp [safe_nothing, unchecked, htyping]
    · rename_i state c htyping hdata
      rw [safe_andThen, safe_forwardContent hx]
      have hfirst : Outcome.Safe w { sent := [(c, .chatState x.jid.toBare state conv)] } := by
        refine ⟨rfl, fun bm hbm => ?_⟩
        rw [List.mem_singleton.mp hbm]
        exact hx c hdata
      simp [hfirst, hdata]

/-- In a run whose reconnects all find a backend at once, a handler uses only backends that
exist, unless it forwards an attention or a subject of a user who has none. -/
theorem forwardsSafely_iff {tr : List (World × Event)} (h : machine.Run tr w)
    (hr : Lib.Machine.Meets Resettles tr) (hu : w.Managed u) (call : Call) :
    (handle st w u call).Safe w ↔
      ¬ ((w.user u).data = none ∧ unchecked st call = true) := by
  obtain ⟨hlink, htied⟩ := tied_of_run h hr
  have hall : ∀ v, w.Managed v → Attached w (w.user v) := fun v hv c hc => (htied v hv c hc).1
  have hx := hall u hu
  have hchecked : ∀ o : Outcome, o.Safe w → unchecked st call = false → (o.Safe w ↔
      ¬ ((w.user u).data = none ∧ unchecked st call = true)) := by
    intro o ho hcall
    simp [ho, hcall]
  cases call with
  | message conv m => exact safe_message hx conv m
  | presenceChanged p =>
    refine hchecked _ ?_ rfl
    simp only [handle, handleUserPresenceChanged]
    split
    · exact safe_nothing
    · exact safe_andThen.mpr ⟨safe_rawPresence hall hlink p, safe_forward hx _⟩
  | rawPresence p => exact hchecked _ (safe_rawPresence hall hlink p) rfl
  | rawIq iq => exact hchecked _ (safe_rawIq hall hlink iq) rfl
  | vcardUpdated card =>
    refine hchecked _ ?_ rfl
    simp only [handle, handleVCardUpdated]
    split
    · exact safe_nothing
    · exact safe_forward hx _
  | _ => exact hchecked _ (safe_forward hx _) rfl

namespace Sample

def settings : Settings := ⟨false, fun name => ⟨"", name, ""⟩⟩

/-- A message that also asks for the attention of the contact. -/
def buzz : ClientMessage :=
  { toJid := ⟨"bob", "localhost", ""⟩, body := "hello", attention := true }

end Sample

/-- A message without an attention is safe for a user who waits for a backend. -/
theorem forwardsSafely_iff_alice :
    ∃ tr w, machine.Run tr w ∧ w.Managed 0 ∧ (w.user 0).data = none ∧
      (handle Sample.settings w 0 (.message "bob" { Sample.buzz with attention := false })).Safe w := by
  have hexec : ∃ w, (machine.restrict Resettles).exec (World.start Spectrum.Sample.cfg 0 none)
      [.presence (Spectrum.Sample.available "alice")] = some w ∧ w.users (w.user 0).jid = some 0 ∧
      (w.user 0).data = none := ⟨_, by rfl, by rfl, by rfl⟩
  obtain ⟨w, hw, hm, hdata⟩ := hexec
  obtain ⟨tr, hrun, hmeets⟩ :=
    Lib.Machine.exists_run_of_restrict (init_start Spectrum.Sample.cfg 0 none) hw
  refine ⟨tr, w, hrun, hm, hdata, (forwardsSafely_iff hrun hmeets hm _).mpr ?_⟩
  rintro ⟨-, hcall⟩
  exact absurd hcall (by decide)

/-- A user who waits for a backend sends a message that asks for attention. -/
theorem not_forwardsSafely_of_attention :
    ¬ ∀ tr w, machine.Run tr w → ∀ u, w.Managed u → ∀ st call, call.possible = true →
      (handle st w u call).Safe w := by
  intro hall
  have hexec : ∃ w, machine.exec (World.start Spectrum.Sample.cfg 0 none)
      [.presence (Spectrum.Sample.available "alice")] = some w ∧ w.users (w.user 0).jid = some 0 ∧
      (handle Sample.settings w 0 (.message "bob" Sample.buzz)).nullDeref = true :=
    ⟨_, by rfl, by rfl, by rfl⟩
  obtain ⟨w, hw, hm, hnull⟩ := hexec
  obtain ⟨tr, hrun, -⟩ :=
    Lib.Machine.exists_run_of_exec (init_start Spectrum.Sample.cfg 0 none) hw
  have hsafe := (hall tr w hrun 0 hm Sample.settings (.message "bob" Sample.buzz) rfl).1
  rw [hnull] at hsafe
  cases hsafe

end Forward

end Spectrum
