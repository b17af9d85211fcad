import Spectrum.Wire.Message

/-!
# The receiver of a backend

`NetworkPlugin::handleDataRead` of the C++ backends. It ends a call at a message that does not
parse or that it has no handler for. The server emits three types that the backends do not
handle: QUERY, BUDDIES and API_VERSION. A backend keeps up with the server in the calls in which
a message of such a type comes last.
-/

namespace Spectrum.Wire.Plugin

open Lib

/-- The calls of the handlers. -/
inductive Call
  | handleLoginPayload (data : Bytes)
  | handleLogoutPayload (data : Bytes)
  | sendPong
  | handleConvMessagePayload (data : Bytes)
  | handleRoomSubjectChangedPayload (data : Bytes)
  | handleJoinRoomPayload (data : Bytes)
  | handleLeaveRoomPayload (data : Bytes)
  | handleVCardPayload (data : Bytes)
  | handleBuddyChangedPayload (data : Bytes)
  | handleBuddyRemovedPayload (data : Bytes)
  | handleStatusChangedPayload (data : Bytes)
  | handleChatStatePayload (data : Bytes) (type : WrapperType)
  | handleAttentionPayload (data : Bytes)
  | handleExitRequest
  | handleRawXML (data : Bytes)
  deriving DecidableEq, Repr

/-- The switch of `handleDataRead`; `none` is its default. -/
def dispatch (wrapper : WrapperMessage) : Option Call :=
  match wrapper.type with
  | .login => some (.handleLoginPayload wrapper.payload)
  | .logout => some (.handleLogoutPayload wrapper.payload)
  | .ping => some .sendPong
  | .convMessage => some (.handleConvMessagePayload wrapper.payload)
  | .roomSubjectChanged => some (.handleRoomSubjectChangedPayload wrapper.payload)
  | .joinRoom => some (.handleJoinRoomPayload wrapper.payload)
  | .leaveRoom => some (.handleLeaveRoomPayload wrapper.payload)
  | .vcard => some (.handleVCardPayload wrapper.payload)
  | .buddyChanged => some (.handleBuddyChangedPayload wrapper.payload)
  | .buddyRemoved => some (.handleBuddyRemovedPayload wrapper.payload)
  | .statusChanged => some (.handleStatusChangedPayload wrapper.payload)
  | .buddyTyping => some (.handleChatStatePayload wrapper.payload .buddyTyping)
  | .buddyTyped => some (.handleChatStatePayload wrapper.payload .buddyTyped)
  | .buddyStoppedTyping => some (.handleChatStatePayload wrapper.payload .buddyStoppedTyping)
  | .attention => some (.handleAttentionPayload wrapper.payload)
  | .exit => some .handleExitRequest
  | .rawXml => some (.handleRawXML wrapper.payload)
  | _ => none

/-- The types of the messages that `NetworkPluginServer` writes. -/
def emitted : List WrapperType :=
  [.exit, .query, .rawXml, .login, .buddies, .statusChanged, .joinRoom, .leaveRoom, .logout,
    .buddyTyping, .buddyTyped, .buddyStoppedTyping, .attention, .roomSubjectChanged, .convMessage,
    .buddyRemoved, .buddyChanged, .vcard, .ping, .apiVersion]

/-- The emitted types that no backend handles. -/
def unknown : List WrapperType := [.query, .buddies, .apiVersion]

theorem dispatch_isSome_iff {m : WrapperMessage} (h : m.type ∈ emitted) :
    (dispatch m).isSome ↔ m.type ∉ unknown := by
  obtain ⟨type, payload⟩ := m
  cases type <;> simp [dispatch, unknown, emitted] at h ⊢

section Read

variable (parse : Bytes → Option WrapperMessage)

/-- The loop of `handleDataRead` on the buffer `m_data`. -/
def readLoop (data : Bytes) : List Call × Bytes :=
  match _h : nextFrame data with
  | none => ([], data)
  | some (body, rest) =>
    match parse body with
    | none => ([], rest)
    | some wrapper =>
      match dispatch wrapper with
      | some call => (call :: (readLoop rest).1, (readLoop rest).2)
      | none => ([], rest)
termination_by data.length
decreasing_by all_goals exact frames.shorter _h

/-- The calls made so far and the buffer. -/
abbrev State := List Call × Bytes

def handleDataRead (s : State) (data : Bytes) : State :=
  (s.1 ++ (readLoop parse (s.2 ++ data)).1, (readLoop parse (s.2 ++ data)).2)

def receive (chunks : List Bytes) : State := chunks.foldl (handleDataRead parse) ([], [])

def callOf (body : Bytes) : Option Call := (parse body).bind dispatch

/-- A frame as a reader sees it: it returns after a message that it makes no call for. -/
def act (body : Bytes) : List Call × Bool := ((callOf parse body).toList, (callOf parse body).isNone)

/-- After every call the buffer holds no complete message, and the calls made are those of the
messages received so far. -/
def NoStall (chunks : List Bytes) : Prop :=
  ∀ p, p <+: chunks →
    (receive parse p).1 = (frames.cut p.flatten).1.filterMap (callOf parse) ∧
      nextFrame (receive parse p).2 = none

/-- A QUERY, BUDDIES or API_VERSION is the last message that its call completes. -/
def LastUnknown (chunks : List Bytes) : Prop :=
  ∀ p c, p ++ [c] <+: chunks → ∀ f ∈ (frames.completed p.flatten c).dropLast,
    ∀ m, parse f = some m → m.type ∉ unknown

variable {parse}

theorem readLoop_eq_drain (data : Bytes) : readLoop parse data = frames.drain (act parse) data := by
  induction data using Cutter.cut_induction (C := frames) with
  | hnone data h =>
    rw [Cutter.drain_of_none h, readLoop]
    split
    · rfl
    · rename_i heq
      rw [show nextFrame data = none from h] at heq
      cases heq
  | hsome data body rest h ih =>
    rw [Cutter.drain_of_some h, readLoop]
    split
    · rename_i heq
      rw [show nextFrame data = some (body, rest) from h] at heq
      cases heq
    · rename_i heq
      rw [show nextFrame data = some (body, rest) from h] at heq
      cases heq
      rw [ih]
      cases hp : parse body with
      | none => simp [act, callOf, hp]
      | some wrapper => cases hd : dispatch wrapper <;> simp [act, callOf, hp, hd]

theorem outcome_eq (stream : Bytes) :
    frames.outcome (act parse) stream = (frames.cut stream).1.filterMap (callOf parse) :=
  Cutter.outcome_toList (fun _ => rfl) stream

theorem handleDataRead_eq_feed : handleDataRead parse = frames.feed (act parse) := by
  funext s data
  simp only [handleDataRead, Cutter.feed, readLoop_eq_drain]

theorem noStall_eq (chunks : List Bytes) :
    NoStall parse chunks = frames.KeepsUp (act parse) chunks := by
  unfold NoStall Cutter.KeepsUp Cutter.Current receive
  simp only [handleDataRead_eq_feed, outcome_eq]
  rfl

end Read

/-- A backend keeps up with the messages of the server exactly if only the last message of a
call is a QUERY, BUDDIES or API_VERSION. -/
theorem noStall_iff_lastUnknown (parse : Bytes → Option WrapperMessage)
    (serialize : WrapperMessage → Bytes) (ms : List WrapperMessage) (chunks : List Bytes)
    (hparse : ∀ m ∈ ms, parse (serialize m) = some m)
    (hsize : ∀ m ∈ ms, (serialize m).length < 2 ^ 31) (hemitted : ∀ m ∈ ms, m.type ∈ emitted)
    (hcut : chunks.flatten = (ms.map fun m => send (serialize m)).flatten) :
    NoStall parse chunks ↔ LastUnknown parse chunks := by
  rw [noStall_eq, Cutter.keepsUp_iff]
  have hact : ∀ p c, p ++ [c] <+: chunks → ∀ f ∈ (frames.completed p.flatten c).dropLast,
      ((act parse f).2 = false ↔ ∀ m, parse f = some m → m.type ∉ unknown) := by
    intro p c hp f hf
    have hmem := Cutter.mem_cut_of_completed hp (List.dropLast_subset _ hf)
    rw [cut_messages hsize hcut] at hmem
    obtain ⟨m, hm, rfl⟩ := List.mem_map.mp hmem
    have hknown := dispatch_isSome_iff (hemitted m hm)
    simp only [act, callOf, hparse m hm, Option.bind_some, Option.some.injEq, forall_eq']
    rw [← hknown]
    cases dispatch m <;> simp
  constructor
  · intro h p c hp f hf
    exact (hact p c hp f hf).mp (h p c hp f hf)
  · intro h p c hp f hf
    exact (hact p c hp f hf).mpr (h p c hp f hf)

/-- A LOGIN with its BUDDIES, and the PING in a chunk of its own. -/
theorem noStall_iff_lastUnknown_login :
    NoStall Sample.parse [[0, 0, 0, 5, 8, 3, 18, 1, 97, 0, 0, 0, 5, 8, 35, 18, 1, 97],
        [0, 0, 0, 2, 8, 9]] ↔
      LastUnknown Sample.parse [[0, 0, 0, 5, 8, 3, 18, 1, 97, 0, 0, 0, 5, 8, 35, 18, 1, 97],
        [0, 0, 0, 2, 8, 9]] :=
  noStall_iff_lastUnknown Sample.parse Sample.serialize
    [⟨.login, [97]⟩, ⟨.buddies, [97]⟩, ⟨.ping, []⟩] _ (by decide) (by decide) (by decide)
    (by decide)

/-- The BUDDIES of a login and a PING in one chunk: the PING stays in the buffer. -/
theorem not_noStall_of_buddies :
    ¬ ∀ (parse : Bytes → Option WrapperMessage) (serialize : WrapperMessage → Bytes)
      (ms : List WrapperMessage) (chunks : List Bytes),
      (∀ m ∈ ms, parse (serialize m) = some m) → (∀ m ∈ ms, (serialize m).length < 2 ^ 31) →
      (∀ m ∈ ms, m.type ∈ emitted) →
      chunks.flatten = (ms.map fun m => send (serialize m)).flatten → NoStall parse chunks := by
  intro hall
  have hlogin : frames.next [0, 0, 0, 5, 8, 3, 18, 1, 97, 0, 0, 0, 5, 8, 35, 18, 1, 97, 0, 0, 0, 2,
      8, 9] = some ([8, 3, 18, 1, 97], [0, 0, 0, 5, 8, 35, 18, 1, 97, 0, 0, 0, 2, 8, 9]) := by
    decide +kernel
  have hbuddies : frames.next [0, 0, 0, 5, 8, 35, 18, 1, 97, 0, 0, 0, 2, 8, 9] =
      some ([8, 35, 18, 1, 97], [0, 0, 0, 2, 8, 9]) := by decide +kernel
  have hping : nextFrame [0, 0, 0, 2, 8, 9] = some ([8, 9], []) := by decide +kernel
  have hloop : readLoop Sample.parse [0, 0, 0, 5, 8, 3, 18, 1, 97, 0, 0, 0, 5, 8, 35, 18, 1, 97, 0,
      0, 0, 2, 8, 9] = ([.handleLoginPayload [97]], [0, 0, 0, 2, 8, 9]) := by
    rw [readLoop_eq_drain, Cutter.drain_of_some hlogin, Cutter.drain_of_some hbuddies]
    decide
  have hrun : receive Sample.parse [[0, 0, 0, 5, 8, 3, 18, 1, 97, 0, 0, 0, 5, 8, 35, 18, 1, 97, 0,
      0, 0, 2, 8, 9]] = ([.handleLoginPayload [97]], [0, 0, 0, 2, 8, 9]) := by
    simp only [receive, List.foldl_cons, List.foldl_nil, handleDataRead, List.nil_append, hloop]
  have hnone := (hall Sample.parse Sample.serialize
    [⟨.login, [97]⟩, ⟨.buddies, [97]⟩, ⟨.ping, []⟩] [[0, 0, 0, 5, 8, 3, 18, 1, 97, 0, 0, 0, 5, 8,
      35, 18, 1, 97, 0, 0, 0, 2, 8, 9]] (by decide) (by decide) (by decide) (by decide) _
    (List.prefix_refl _)).2
  rw [hrun] at hnone
  exact absurd (hping.symm.trans hnone) (by simp)

end Spectrum.Wire.Plugin
