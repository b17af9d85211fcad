import Spectrum.Wire.Message

/-!
# The receiver of the server

`NetworkPluginServer::handleDataRead`: the loop that takes wrapper messages off the buffer of
a backend and calls the handler of each. A message that does not parse is skipped, but a
message of a type that has no handler ends the call, whatever follows it in the buffer. So the
server keeps up with a backend in the calls in which such a message comes last, and a stream of
messages with handlers arrives complete however it is cut.
-/

namespace Spectrum.Wire.Server

open Lib

/-- `Swift::ChatState::ChatStateType`, as far as it is used. -/
inductive ChatState
  | composing | paused | active
  deriving DecidableEq, Repr

/-- The calls of the handlers. -/
inductive Call
  | handleConnectedPayload (data : Bytes)
  | handleDisconnectedPayload (data : Bytes)
  | handleBuddyChangedPayload (data : Bytes)
  | handleConvMessagePayload (data : Bytes) (subject : Bool)
  | handlePongReceived
  | handleParticipantChangedPayload (data : Bytes)
  | handleRoomChangedPayload (data : Bytes)
  | handleVCardPayload (data : Bytes)
  | handleChatStatePayload (data : Bytes) (type : ChatState)
  | handleAuthorizationPayload (data : Bytes)
  | handleAttentionPayload (data : Bytes)
  | handleStatsPayload (data : Bytes)
  | handleBuddyRemovedPayload (data : Bytes)
  | handleQueryPayload (data : Bytes)
  | handleBackendConfigPayload (data : Bytes)
  | handleRoomListPayload (data : Bytes)
  | handleConvMessageAckPayload (data : Bytes)
  | handleRawXML (data : Bytes)
  deriving DecidableEq, Repr

/-- The switch of `handleDataRead`; `none` is its default. -/
def dispatch (wrapper : WrapperMessage) : Option Call :=
  match wrapper.type with
  | .connected => some (.handleConnectedPayload wrapper.payload)
  | .disconnected => some (.handleDisconnectedPayload wrapper.payload)
  | .buddyChanged => some (.handleBuddyChangedPayload wrapper.payload)
  | .convMessage => some (.handleConvMessagePayload wrapper.payload false)
  | .roomSubjectChanged => some (.handleConvMessagePayload wrapper.payload true)
  | .pong => some .handlePongReceived
  | .participantChanged => some (.handleParticipantChangedPayload wrapper.payload)
  | .roomNicknameChanged => some (.handleRoomChangedPayload wrapper.payload)
  | .vcard => some (.handleVCardPayload wrapper.payload)
  | .buddyTyping => some (.handleChatStatePayload wrapper.payload .composing)
  | .buddyTyped => some (.handleChatStatePayload wrapper.payload .paused)
  | .buddyStoppedTyping => some (.handleChatStatePayload wrapper.payload .active)
  | .authRequest => some (.handleAuthorizationPayload wrapper.payload)
  | .attention => some (.handleAttentionPayload wrapper.payload)
  | .stats => some (.handleStatsPayload wrapper.payload)
  | .buddyRemoved => some (.handleBuddyRemovedPayload wrapper.payload)
  | .query => some (.handleQueryPayload wrapper.payload)
  | .backendConfig => some (.handleBackendConfigPayload wrapper.payload)
  | .roomList => some (.handleRoomListPayload wrapper.payload)
  | .convMessageAck => some (.handleConvMessageAckPayload wrapper.payload)
  | .rawXml => some (.handleRawXML wrapper.payload)
  | _ => none

section Read

variable (parse : Bytes → Option WrapperMessage)

/-- The loop of `handleDataRead` on the buffer of a backend. -/
def readLoop (data : Bytes) : List Call × Bytes :=
  match _h : nextFrame data with
  | none => ([], data)
  | some (body, rest) =>
    match parse body with
    | none => readLoop rest
    | some wrapper =>
      match dispatch wrapper with
      | some call => (call :: (readLoop rest).1, (readLoop rest).2)
      | none => ([], rest)
termination_by data.length
decreasing_by all_goals exact frames.shorter _h

/-- The calls made so far and the buffer `c->data`. -/
abbrev State := List Call × Bytes

def handleDataRead (s : State) (data : Bytes) : State :=
  (s.1 ++ (readLoop parse (s.2 ++ data)).1, (readLoop parse (s.2 ++ data)).2)

/-- A new backend, and then one call for each chunk. -/
def receive (chunks : List Bytes) : State := chunks.foldl (handleDataRead parse) ([], [])

/-- The call that a frame is for. -/
def callOf (body : Bytes) : Option Call := (parse body).bind dispatch

/-- A frame as a reader sees it: it returns after a message without a handler. -/
def act (body : Bytes) : List Call × Bool :=
  ((callOf parse body).toList,
    match parse body with
    | none => false
    | some wrapper => (dispatch wrapper).isNone)

variable {parse}

theorem readLoop_eq_drain (data : Bytes) : readLoop parse data = frames.drain (act parse) data := by
  induction data using Cutter.cut_induction (C := frames) with
  | hnone data h =>
    rw [Cutter.drain_of_none h, readLoop]
    split
    · rfl
    · rename_i heq
      rw [show nextFrame data = none from h] at heq
      cases heq
  | hsome data body rest h ih =>
    rw [Cutter.drain_of_some h, readLoop]
    split
    · rename_i heq
      rw [show nextFrame data = some (body, rest) from h] at heq
      cases heq
    · rename_i heq
      rw [show nextFrame data = some (body, rest) from h] at heq
      cases heq
      rw [ih]
      cases hp : parse body with
      | none => simp [act, callOf, hp]
      | some wrapper => cases hd : dispatch wrapper <;> simp [act, callOf, hp, hd]

theorem outcome_eq (stream : Bytes) :
    frames.outcome (act parse) stream = (frames.cut stream).1.filterMap (callOf parse) :=
  Cutter.outcome_toList (fun _ => rfl) stream

theorem handleDataRead_eq_feed : handleDataRead parse = frames.feed (act parse) := by
  funext s data
  simp only [handleDataRead, Cutter.feed, readLoop_eq_drain]

end Read

/-! ## Messages with handlers -/

/-- Messages with handlers, framed and cut in any way, are all dispatched, in order and once,
and nothing is left in the buffer. -/
theorem receive_send (parse : Bytes → Option WrapperMessage) (serialize : WrapperMessage → Bytes)
    (ms : List WrapperMessage) (chunks : List Bytes)
    (hparse : ∀ m ∈ ms, parse (serialize m) = some m)
    (hsize : ∀ m ∈ ms, 1 ≤ (serialize m).length ∧ (serialize m).length < 2 ^ 31)
    (hhandled : ∀ m ∈ ms, (dispatch m).isSome)
    (hcut : chunks.flatten = (ms.map fun m => send (serialize m)).flatten) :
    (receive parse chunks).1.map some = ms.map dispatch ∧ (receive parse chunks).2 = [] := by
  have hframes : frames.cut chunks.flatten = (ms.map serialize, []) :=
    cut_messages (fun m hm => (hsize m hm).2) hcut
  have hun : frames.Unhindered (act parse) chunks := by
    intro p c hp f hf
    have hmem := Cutter.mem_cut_of_completed hp (List.dropLast_subset _ hf)
    rw [hframes] at hmem
    obtain ⟨m, hm, rfl⟩ := List.mem_map.mp hmem
    have hsome := hhandled m hm
    simp only [act, hparse m hm]
    simpa using hsome
  have hrun : receive parse chunks =
      ((ms.map serialize).filterMap (callOf parse), []) := by
    unfold receive
    rw [handleDataRead_eq_feed, Cutter.foldl_feed_of_unhindered hun,
      outcome_eq, hframes]
  rw [hrun]
  refine ⟨?_, rfl⟩
  clear hcut hframes hun hrun
  induction ms with
  | nil => rfl
  | cons m ms ih =>
    have hm : callOf parse (serialize m) = dispatch m := by
      simp [callOf, hparse m List.mem_cons_self]
    obtain ⟨call, hcall⟩ := Option.isSome_iff_exists.mp (hhandled m List.mem_cons_self)
    have hms := ih (fun m' h => hparse m' (List.mem_cons_of_mem m h))
      (fun m' h => hsize m' (List.mem_cons_of_mem m h))
      (fun m' h => hhandled m' (List.mem_cons_of_mem m h))
    rw [List.map_cons, List.filterMap_cons, hm, hcall, List.map_cons, hms, List.map_cons, hcall]

/-- A CONNECTED and a PONG, cut inside the second header. -/
theorem receive_send_pong :
    (receive Sample.parse [[0, 0, 0, 5, 8, 1, 18, 1, 97, 0, 0], [0], [2, 8, 10]]).1.map some =
        [⟨.connected, [97]⟩, ⟨.pong, []⟩].map dispatch ∧
      (receive Sample.parse [[0, 0, 0, 5, 8, 1, 18, 1, 97, 0, 0], [0], [2, 8, 10]]).2 = [] :=
  receive_send Sample.parse Sample.serialize [⟨.connected, [97]⟩, ⟨.pong, []⟩] _ (by decide)
    (by decide) (by decide) (by decide)

/-! ## Any stream -/

section Robust

variable (parse : Bytes → Option WrapperMessage)

/-- After every call the buffer holds no complete message, and the calls made are those of the
messages received so far. -/
def Robust (chunks : List Bytes) : Prop :=
  ∀ p, p <+: chunks →
    (receive parse p).1 = (frames.cut p.flatten).1.filterMap (callOf parse) ∧
      nextFrame (receive parse p).2 = none

/-- A message that parses but has no handler is the last one that its call completes. -/
def LastUnhandled (chunks : List Bytes) : Prop :=
  ∀ p c, p ++ [c] <+: chunks → ∀ f ∈ (frames.completed p.flatten c).dropLast,
    ∀ m, parse f = some m → (dispatch m).isSome

variable {parse}

theorem robust_eq (chunks : List Bytes) :
    Robust parse chunks = frames.KeepsUp (act parse) chunks := by
  unfold Robust Cutter.KeepsUp Cutter.Current receive
  simp only [handleDataRead_eq_feed, outcome_eq]
  rfl

theorem act_returns {f : Bytes} :
    (act parse f).2 = false ↔ ∀ m, parse f = some m → (dispatch m).isSome := by
  cases h : parse f with
  | none => simp [act, h]
  | some m => simp [act, h]

/-- The server keeps up with a stream exactly if only the last message of a call is one
without a handler. -/
theorem robust_iff_lastUnhandled (parse : Bytes → Option WrapperMessage) (chunks : List Bytes) :
    Robust parse chunks ↔ LastUnhandled parse chunks := by
  rw [robust_eq, Cutter.keepsUp_iff]
  unfold Cutter.Unhindered LastUnhandled
  simp only [act_returns]

end Robust

/-- A LOGIN, which the server has no handler for, and a PONG in one chunk: the PONG stays in
the buffer. -/
theorem not_robust_of_login :
    ¬ ∀ (parse : Bytes → Option WrapperMessage) (chunks : List Bytes), Robust parse chunks := by
  intro hall
  have hone : frames.next [0, 0, 0, 2, 8, 3, 0, 0, 0, 2, 8, 10] =
      some ([8, 3], [0, 0, 0, 2, 8, 10]) := by decide +kernel
  have hloop : readLoop Sample.parse [0, 0, 0, 2, 8, 3, 0, 0, 0, 2, 8, 10] =
      ([], [0, 0, 0, 2, 8, 10]) := by
    rw [readLoop_eq_drain, Cutter.drain_of_some hone]
    decide
  have hrun : receive Sample.parse [[0, 0, 0, 2, 8, 3, 0, 0, 0, 2, 8, 10]] =
      ([], [0, 0, 0, 2, 8, 10]) := by
    simp only [receive, List.foldl_cons, List.foldl_nil, handleDataRead, List.nil_append, hloop]
  have hnone := (hall Sample.parse [[0, 0, 0, 2, 8, 3, 0, 0, 0, 2, 8, 10]] _
    (List.prefix_refl _)).2
  have hpong : nextFrame [0, 0, 0, 2, 8, 10] = some ([8, 10], []) := by decide +kernel
  rw [hrun] at hnone
  exact absurd (hpong.symm.trans hnone) (by simp)

end Spectrum.Wire.Server
