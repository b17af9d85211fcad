import Mathlib.Data.List.Count
import Mathlib.Data.List.Infix
import Spectrum.Lib.Machine
import Spectrum.Wire.Server

/-!
# The plugin in Python

`NetworkPlugin.handleDataRead` of the Python plugins. Unlike the C++ loop it goes on after a message
that it has no handler for. `ParseFromString` raises an exception for bytes that it cannot parse, which
stay in the buffer, and returns the number of bytes, so that the loop ends its call at an empty message.
`handleExitRequest` ends the process, and so does a `checkPing` without a PING since the last one. What
the handlers of a plugin send and whether they raise an exception is up to the plugin, which can also
send at any other time.

* `calls_of_run`: what is called and when the process ends, for every stream of the server, however it
  is cut and however the checks fall into it, if the handlers return;
* `pongs_of_run`: what the server reads of what any plugin writes.
-/

namespace Spectrum.Wire.Python

open Lib

/-- The calls of the handlers. -/
inductive Call
  | handleLoginPayload (data : Bytes)
  | handleLogoutPayload (data : Bytes)
  | sendPong
  | handleConvMessagePayload (data : Bytes)
  | handleJoinRoomPayload (data : Bytes)
  | handleLeaveRoomPayload (data : Bytes)
  | handleVCardPayload (data : Bytes)
  | handleBuddyChangedPayload (data : Bytes)
  | handleBuddyRemovedPayload (data : Bytes)
  | handleStatusChangedPayload (data : Bytes)
  | handleChatStatePayload (data : Bytes) (msgType : WrapperType)
  | handleAttentionPayload (data : Bytes)
  | handleExitRequest
  | handleConvMessageAckPayload (data : Bytes)
  | handleRawXmlRequest (xml : Bytes)
  | handleBuddiesPayload (data : Bytes)
  deriving DecidableEq, Repr

/-- The chain of `elif` in `handleDataRead`. -/
def dispatch (wrapper : WrapperMessage) : Option Call :=
  match wrapper.type with
  | .login => some (.handleLoginPayload wrapper.payload)
  | .logout => some (.handleLogoutPayload wrapper.payload)
  | .ping => some .sendPong
  | .convMessage => some (.handleConvMessagePayload wrapper.payload)
  | .joinRoom => some (.handleJoinRoomPayload wrapper.payload)
  | .leaveRoom => some (.handleLeaveRoomPayload wrapper.payload)
  | .vcard => some (.handleVCardPayload wrapper.payload)
  | .buddyChanged => some (.handleBuddyChangedPayload wrapper.payload)
  | .buddyRemoved => some (.handleBuddyRemovedPayload wrapper.payload)
  | .statusChanged => some (.handleStatusChangedPayload wrapper.payload)
  | .buddyTyping => some (.handleChatStatePayload wrapper.payload .buddyTyping)
  | .buddyTyped => some (.handleChatStatePayload wrapper.payload .buddyTyped)
  | .buddyStoppedTyping => some (.handleChatStatePayload wrapper.payload .buddyStoppedTyping)
  | .attention => some (.handleAttentionPayload wrapper.payload)
  | .exit => some .handleExitRequest
  | .convMessageAck => some (.handleConvMessageAckPayload wrapper.payload)
  | .rawXml => some (.handleRawXmlRequest wrapper.payload)
  | .buddies => some (.handleBuddiesPayload wrapper.payload)
  | _ => none

/-- The methods with which a plugin writes to the server. -/
inductive Sender
  | handleMessage | handleMessageAck | handleAttention | handleVCard | handleSubject
  | handleBuddyChanged | handleBuddyRemoved | handleBuddyTyping | handleBuddyTyped
  | handleBuddyStoppedTyping | handleAuthorization | handleConnected | handleDisconnected
  | handleParticipantChanged | handleRoomNicknameChanged | handleRoomList | handleBackendConfig
  deriving DecidableEq, Repr

/-- The second argument of `WRAP`. -/
def Sender.type : Sender → WrapperType
  | .handleMessage => .convMessage
  | .handleMessageAck => .convMessageAck
  | .handleAttention => .attention
  | .handleVCard => .vcard
  | .handleSubject => .roomSubjectChanged
  | .handleBuddyChanged => .buddyChanged
  | .handleBuddyRemoved => .buddyRemoved
  | .handleBuddyTyping => .buddyTyping
  | .handleBuddyTyped => .buddyTyped
  | .handleBuddyStoppedTyping => .buddyStoppedTyping
  | .handleAuthorization => .authRequest
  | .handleConnected => .connected
  | .handleDisconnected => .disconnected
  | .handleParticipantChanged => .participantChanged
  | .handleRoomNicknameChanged => .roomNicknameChanged
  | .handleRoomList => .roomList
  | .handleBackendConfig => .backendConfig

def Sender.wrap (sender : Sender) (payload : Bytes) : WrapperMessage := ⟨sender.type, payload⟩

/-- What the handlers of a plugin do, by the calls up to the one that is handled: what they send,
whether they raise an exception in the end, and the payload of `sendMemoryUsage`. The handler of
`sendPong` is `handleMemoryUsage`. -/
structure Plugin where
  sends : List Call → List (Sender × Bytes) := fun _ => []
  raises : List Call → Bool := fun _ => false
  stats : List Call → Bytes

def Plugin.own (P : Plugin) (calls : List Call) : List WrapperMessage :=
  (P.sends calls).map fun m => m.1.wrap m.2

/-- `sendPong` with `sendMemoryUsage`. -/
def Plugin.pong (P : Plugin) (calls : List Call) : List WrapperMessage :=
  ⟨.pong, []⟩ :: P.own calls ++ if P.raises calls then [] else [⟨.stats, P.stats calls⟩]

/-- The plugin without its buffer, with the messages that it sent. -/
structure Agent where
  pingReceived : Bool := false
  calls : List Call := []
  sent : List WrapperMessage := []
  exited : Bool := false
  deriving DecidableEq, Repr

def Agent.send (a : Agent) (ms : List WrapperMessage) : Agent := { a with sent := a.sent ++ ms }

/-- A call of a handler. -/
def Agent.call (P : Plugin) (a : Agent) (c : Call) : Agent :=
  let a := { a with calls := a.calls ++ [c] }
  match c with
  | .sendPong => { a with pingReceived := true }.send (P.pong a.calls)
  | .handleExitRequest => { a with exited := true }
  | _ => a.send (P.own a.calls)

/-- A message and its handler. -/
def Agent.handle (P : Plugin) (a : Agent) (wrapper : WrapperMessage) : Agent :=
  match dispatch wrapper with
  | some c => a.call P c
  | none => a

/-- The handler of a message raises an exception. -/
def Agent.raises (P : Plugin) (a : Agent) (wrapper : WrapperMessage) : Bool :=
  (dispatch wrapper).any fun c => P.raises (a.calls ++ [c])

/-- The buffer, and whether the last call ended in an exception. -/
structure State where
  agent : Agent := {}
  data : Bytes := []
  raised : Bool := false
  deriving DecidableEq, Repr

section Read

variable (parse : Bytes → Option WrapperMessage) (P : Plugin)

/-- The loop of `handleDataRead`. A message is off the buffer before its handler is called. -/
def readLoop (a : Agent) (data : Bytes) : State :=
  match _h : nextFrame data with
  | none => ⟨a, data, false⟩
  | some (body, rest) =>
    match parse body with
    | none => ⟨a, data, true⟩
    | some wrapper =>
      if body = [] then ⟨a, rest, false⟩
      else if (a.handle P wrapper).exited then ⟨a.handle P wrapper, rest, false⟩
      else if a.raises P wrapper then ⟨a.handle P wrapper, rest, true⟩
      else readLoop (a.handle P wrapper) rest
termination_by data.length
decreasing_by exact frames.shorter _h

/-- `checkPing`. -/
def Agent.checkPing (a : Agent) : Agent :=
  if a.pingReceived then { a with pingReceived := false } else { a with exited := true }

inductive Event
  | data (chunk : Bytes)
  | checkPing
  /-- The plugin writes on its own account, as when the legacy network has news. -/
  | sends (sender : Sender) (payload : Bytes)
  deriving DecidableEq, Repr

def next (s : State) : Event → State
  | .data chunk => readLoop parse P s.agent (s.data ++ chunk)
  | .checkPing => ⟨s.agent.checkPing, s.data, false⟩
  | .sends sender payload => ⟨s.agent.send [sender.wrap payload], s.data, false⟩

def step (s : State) (e : Event) : Option State :=
  if s.agent.exited then none else some (next parse P s e)

def machine : Machine State Event where
  init s := s = {}
  step := step parse P

/-! ## The history -/

/-- What was received. The events of a history are listed newest first. -/
def received : List Event → Bytes
  | [] => []
  | .data chunk :: es => received es ++ chunk
  | .checkPing :: es | .sends _ _ :: es => received es

/-- What had been received at the last check. -/
def checked : List Event → Bytes
  | [] => []
  | .data _ :: es | .sends _ _ :: es => checked es
  | .checkPing :: es => received es

/-- The messages that are complete in a stream. -/
def messages (stream : Bytes) : List WrapperMessage := (frames.cut stream).1.filterMap parse

/-- The messages that were completed since the last check. -/
def fresh (es : List Event) : List WrapperMessage :=
  (messages parse (received es)).drop (messages parse (checked es)).length

/-- At one of the checks there was no PING since the check before. -/
def Missed (es : List Event) : Prop :=
  ∃ older, .checkPing :: older <:+ es ∧ ∀ m ∈ fresh parse older, m.type ≠ .ping

/-- The messages up to the first EXIT. -/
def untilExit : List WrapperMessage → List WrapperMessage
  | [] => []
  | m :: ms => if m.type = .exit then [m] else m :: untilExit ms

/-- Every message that is complete in the stream is one. -/
def Sound (stream : Bytes) : Prop := ∀ f ∈ (frames.cut stream).1, f ≠ [] ∧ (parse f).isSome

end Read

/-- What the server writes. -/
def stream (serialize : WrapperMessage → Bytes) (ms : List WrapperMessage) : Bytes :=
  (ms.map fun m => send (serialize m)).flatten

variable {parse : Bytes → Option WrapperMessage} {P : Plugin}
  {serialize : WrapperMessage → Bytes} {ms : List WrapperMessage} {m : WrapperMessage}
  {a b : Bytes} {es : List Event} {s s' : State} {x : Agent}

/-! ## Streams of the server -/

theorem stream_append (ms ms' : List WrapperMessage) :
    stream serialize (ms ++ ms') = stream serialize ms ++ stream serialize ms' := by
  unfold stream
  rw [List.map_append, List.flatten_append]

/-- A stream that ends inside a message has no complete frame. -/
theorem nextFrame_of_short {body rest r : Bytes} (hsize : body.length < 2 ^ 31)
    (hr : r <+: send body ++ rest) (hlt : r.length < (send body).length) : nextFrame r = none := by
  obtain ⟨tail, htail⟩ := hr
  cases hn : nextFrame r with
  | none => rfl
  | some p =>
    obtain ⟨f, r'⟩ := p
    have hlong := frames.extends_append tail hn
    rw [htail] at hlong
    have hsend := nextFrame_send (Nat.lt_of_lt_of_le hsize (by decide)) rest
    have hf : body = f := congrArg Prod.fst (Option.some_inj.mp (hsend.symm.trans hlong))
    obtain ⟨b₀, b₁, b₂, b₃, hshape, -⟩ := nextFrame_eq_some hn
    rw [hshape, hf] at hlt
    simp only [send, header, List.length_cons, List.length_append, List.length_nil] at hlt
    omega

/-- What is complete in a part of the stream: the longest sequence of messages that arrived. -/
theorem cut_of_prefix (hsize : ∀ m ∈ ms, (serialize m).length < 2 ^ 31) {r : Bytes}
    (hr : r <+: stream serialize ms) : ∃ done, done <+: ms ∧
      (frames.cut r).1 = done.map serialize ∧ stream serialize done ++ (frames.cut r).2 = r ∧
      ∀ p, p <+: ms → stream serialize p <+: r → p <+: done := by
  induction ms generalizing r with
  | nil =>
    obtain rfl := List.prefix_nil.mp hr
    have hnone : frames.cut [] = ([], []) := Cutter.cut_of_none rfl
    exact ⟨[], List.prefix_refl _, by rw [hnone]; rfl, by rw [hnone]; rfl,
      fun p hp _ => hp⟩
  | cons m ms ih =>
    have hm := hsize m List.mem_cons_self
    have hms := fun m' h => hsize m' (List.mem_cons_of_mem m h)
    have hcons : ∀ p, stream serialize (m :: p) = send (serialize m) ++ stream serialize p :=
      fun p => List.flatten_cons
    rw [hcons] at hr
    rcases Nat.lt_or_ge r.length (send (serialize m)).length with hlt | hge
    · have hnone : frames.cut r = ([], r) :=
        Cutter.cut_of_none (nextFrame_of_short hm hr hlt)
      refine ⟨[], List.nil_prefix, by rw [hnone]; rfl, by rw [hnone]; rfl, fun p hp hin => ?_⟩
      cases p with
      | nil => exact List.prefix_refl _
      | cons m' p =>
        obtain ⟨rfl, -⟩ := List.cons_prefix_cons.mp hp
        rw [hcons] at hin
        have hle := ((List.prefix_append _ _).trans hin).length_le
        exact absurd hle (Nat.not_le.mpr hlt)
    · obtain ⟨r, rfl⟩ := List.prefix_of_prefix_length_le (List.prefix_append _ _) hr hge
      have hrest := (List.prefix_append_right_inj _).mp hr
      obtain ⟨done, hdone, hframes, hsplit, hmost⟩ := ih hms hrest
      have hcut : frames.cut (send (serialize m) ++ r) =
          (serialize m :: (frames.cut r).1, (frames.cut r).2) :=
        Cutter.cut_of_some (nextFrame_send (Nat.lt_of_lt_of_le hm (by decide)) r)
      refine ⟨m :: done, List.cons_prefix_cons.mpr ⟨rfl, hdone⟩, by rw [hcut, hframes]; rfl, ?_,
        fun p hp hin => ?_⟩
      · rw [hcut, hcons, List.append_assoc, hsplit]
      · cases p with
        | nil => exact List.nil_prefix
        | cons m' p =>
          obtain ⟨rfl, hp'⟩ := List.cons_prefix_cons.mp hp
          rw [hcons] at hin
          exact List.cons_prefix_cons.mpr
            ⟨rfl, hmost p hp' ((List.prefix_append_right_inj _).mp hin)⟩

theorem filterMap_serialize (hparse : ∀ m ∈ ms, parse (serialize m) = some m) :
    (ms.map serialize).filterMap parse = ms := by
  rw [List.filterMap_map]
  exact (List.filterMap_congr fun m hm => hparse m hm).trans List.filterMap_some

/-- The messages that arrived, of those that were sent. -/
theorem messages_of_isPrefix (hparse : ∀ m ∈ ms, parse (serialize m) = some m)
    (hsize : ∀ m ∈ ms, 1 ≤ (serialize m).length ∧ (serialize m).length < 2 ^ 31) {r : Bytes}
    (hr : r <+: stream serialize ms) : Sound parse r ∧ messages parse r <+: ms ∧
      ∀ p, p <+: ms → (stream serialize p <+: r ↔ p <+: messages parse r) := by
  obtain ⟨done, hdone, hframes, hsplit, hmost⟩ := cut_of_prefix (fun m hm => (hsize m hm).2) hr
  have hmessages : messages parse r = done := by
    rw [messages, hframes, filterMap_serialize fun m hm => hparse m (hdone.subset hm)]
  rw [hmessages]
  refine ⟨fun f hf => ?_, hdone, fun p hp => ⟨hmost p hp, ?_⟩⟩
  · rw [hframes] at hf
    obtain ⟨m, hm, rfl⟩ := List.mem_map.mp hf
    have hin := hdone.subset hm
    exact ⟨List.ne_nil_of_length_pos (hsize m hin).1, by rw [hparse m hin]; rfl⟩
  · rintro ⟨q, rfl⟩
    rw [← hsplit, stream_append, List.append_assoc]
    exact List.prefix_append _ _

theorem messages_append (a b : Bytes) :
    messages parse (a ++ b) = messages parse a ++ messages parse ((frames.cut a).2 ++ b) := by
  unfold messages
  rw [Cutter.cut_append, List.filterMap_append]

theorem sound_append : Sound parse (a ++ b) ↔ Sound parse a ∧ Sound parse ((frames.cut a).2 ++ b) := by
  unfold Sound
  rw [Cutter.cut_append]
  simp only [List.mem_append, or_imp, forall_and]
  exact ⟨fun h => ⟨⟨h.1.1, h.2.1⟩, h.1.2, h.2.2⟩, fun h => ⟨⟨h.1.1, h.2.1⟩, h.1.2, h.2.2⟩⟩

/-! ## The loop -/

theorem handle_exited (P : Plugin) (h : x.exited = false) :
    (x.handle P m).exited = true ↔ m.type = .exit := by
  unfold Agent.handle dispatch
  cases m.type <;> simp [Agent.call, Agent.send, h]

/-- What messages do, up to an EXIT. -/
def handleAll (P : Plugin) (x : Agent) (ms : List WrapperMessage) : Agent :=
  (untilExit ms).foldl (Agent.handle P) x

theorem handleAll_cons (m : WrapperMessage) (ms : List WrapperMessage) :
    handleAll P x (m :: ms) = if m.type = .exit then x.handle P m
      else handleAll P (x.handle P m) ms := by
  unfold handleAll
  rw [untilExit]
  split <;> rfl

theorem raises_of_returns (hP : ∀ calls, P.raises calls = false) : x.raises P m = false := by
  unfold Agent.raises
  cases dispatch m <;> simp [hP]

/-- The loop handles the messages that are complete, and stops behind an EXIT. -/
theorem readLoop_eq (hP : ∀ calls, P.raises calls = false) (h : Sound parse a)
    (hx : x.exited = false) : (readLoop parse P x a).agent = handleAll P x (messages parse a) ∧
      (readLoop parse P x a).raised = false ∧
      ((readLoop parse P x a).agent.exited = false →
        (readLoop parse P x a).data = (frames.cut a).2) := by
  induction a using Cutter.cut_induction (C := frames) generalizing x with
  | hnone a hn =>
    rw [messages, Cutter.cut_of_none hn, readLoop]
    split
    · exact ⟨rfl, rfl, fun _ => rfl⟩
    · rename_i heq
      rw [show nextFrame a = none from hn] at heq
      cases heq
  | hsome a body rest hn ih =>
    rw [Sound, Cutter.cut_of_some hn] at h
    obtain ⟨⟨hne, hsome⟩, hrest⟩ := List.forall_mem_cons.mp h
    obtain ⟨m, hm⟩ := Option.isSome_iff_exists.mp hsome
    rw [messages, Cutter.cut_of_some hn, List.filterMap_cons_some hm, handleAll_cons, readLoop]
    split
    · rename_i heq
      rw [show nextFrame a = some (body, rest) from hn] at heq
      cases heq
    · rename_i heq
      rw [show nextFrame a = some (body, rest) from hn] at heq
      cases heq
      rw [hm]
      simp only [if_neg hne, raises_of_returns hP, Bool.false_eq_true, if_false]
      by_cases hexit : m.type = .exit
      · have hout := (handle_exited P hx).mpr hexit
        rw [if_pos hout, if_pos hexit]
        exact ⟨rfl, rfl, fun hin => absurd (hin.symm.trans hout) (by decide)⟩
      · have hin := Bool.eq_false_iff.mpr (mt (handle_exited P hx).mp hexit)
        rw [if_neg (Bool.eq_false_iff.mp hin), if_neg hexit]
        exact ih hrest hin

/-! ## What messages do -/

theorem handle_calls : (x.handle P m).calls = x.calls ++ (dispatch m).toList := by
  unfold Agent.handle dispatch
  cases m.type <;> simp [Agent.call, Agent.send]

theorem foldl_calls (ms : List WrapperMessage) (x : Agent) :
    (ms.foldl (Agent.handle P) x).calls = x.calls ++ ms.filterMap dispatch := by
  induction ms generalizing x with
  | nil => exact (List.append_nil _).symm
  | cons m ms ih =>
    rw [List.foldl_cons, ih, handle_calls, List.append_assoc, List.filterMap_cons]
    cases dispatch m <;> rfl

theorem handle_pingReceived : (x.handle P m).pingReceived = true ↔
    x.pingReceived = true ∨ m.type = .ping := by
  unfold Agent.handle dispatch
  cases m.type <;> simp [Agent.call, Agent.send]

theorem foldl_pingReceived (ms : List WrapperMessage) (x : Agent) :
    (ms.foldl (Agent.handle P) x).pingReceived = true ↔
      x.pingReceived = true ∨ ∃ m ∈ ms, m.type = .ping := by
  induction ms generalizing x with
  | nil => simp
  | cons m ms ih =>
    rw [List.foldl_cons, ih, handle_pingReceived, or_assoc, List.exists_mem_cons_iff]

theorem handleAll_exited (P : Plugin) (hx : x.exited = false) (ms : List WrapperMessage) :
    (handleAll P x ms).exited = true ↔ ∃ m ∈ ms, m.type = .exit := by
  induction ms generalizing x with
  | nil => simp [handleAll, untilExit, hx]
  | cons m ms ih =>
    rw [handleAll_cons, List.exists_mem_cons_iff]
    by_cases hexit : m.type = .exit
    · rw [if_pos hexit]
      exact iff_of_true ((handle_exited P hx).mpr hexit) (.inl hexit)
    · rw [if_neg hexit, ih (Bool.eq_false_iff.mpr (mt (handle_exited P hx).mp hexit)),
        or_iff_right hexit]

theorem untilExit_append (hms : ∀ m ∈ ms, m.type ≠ .exit) (ms' : List WrapperMessage) :
    untilExit (ms ++ ms') = ms ++ untilExit ms' := by
  induction ms with
  | nil => rfl
  | cons m ms ih =>
    obtain ⟨hm, hrest⟩ := List.forall_mem_cons.mp hms
    rw [List.cons_append, untilExit, if_neg hm, ih hrest, List.cons_append]

theorem untilExit_of_not_mem (hms : ∀ m ∈ ms, m.type ≠ .exit) : untilExit ms = ms := by
  have happ := untilExit_append hms []
  rwa [List.append_nil, untilExit, List.append_nil] at happ

/-! ## Every run -/

/-- What a plugin is after a history. -/
structure Heard (parse : Bytes → Option WrapperMessage) (es : List Event) (s : State) : Prop where
  calls : s.agent.calls = (untilExit (messages parse (received es))).filterMap dispatch
  exited : s.agent.exited = true ↔
    (∃ m ∈ messages parse (received es), m.type = .exit) ∨ Missed parse es
  data : s.agent.exited = false → s.data = (frames.cut (received es)).2
  pingReceived : s.agent.exited = false →
    (s.agent.pingReceived = true ↔ ∃ m ∈ fresh parse es, m.type = .ping)
  raised : s.raised = false

theorem missed_data (chunk : Bytes) : Missed parse (.data chunk :: es) ↔ Missed parse es := by
  unfold Missed
  simp only [List.suffix_cons_iff, List.cons.injEq, reduceCtorEq, false_and, false_or]

theorem missed_sends (sender : Sender) (payload : Bytes) :
    Missed parse (.sends sender payload :: es) ↔ Missed parse es := by
  unfold Missed
  simp only [List.suffix_cons_iff, List.cons.injEq, reduceCtorEq, false_and, false_or]

theorem missed_checkPing : Missed parse (.checkPing :: es) ↔
    (∀ m ∈ fresh parse es, m.type ≠ .ping) ∨ Missed parse es := by
  unfold Missed
  constructor
  · rintro ⟨older, hsuffix, hnone⟩
    rcases List.suffix_cons_iff.mp hsuffix with heq | hold
    · cases heq
      exact .inl hnone
    · exact .inr ⟨older, hold, hnone⟩
  · rintro (hnone | ⟨older, hold, hnone⟩)
    · exact ⟨es, List.suffix_refl _, hnone⟩
    · exact ⟨older, hold.trans (List.suffix_cons _ _), hnone⟩

/-- What was checked is a part of what was received. -/
theorem checked_prefix (es : List Event) : checked es <+: received es := by
  induction es with
  | nil => exact List.prefix_refl _
  | cons e es ih =>
    cases e with
    | data chunk => exact ih.trans (List.prefix_append _ _)
    | checkPing => exact List.prefix_refl _
    | sends sender payload => exact ih

theorem messages_length_le (es : List Event) :
    (messages parse (checked es)).length ≤ (messages parse (received es)).length := by
  obtain ⟨rest, hrest⟩ := checked_prefix es
  rw [← hrest, messages_append, List.length_append]
  exact Nat.le_add_right _ _

theorem heard_data {chunk : Bytes} (hP : ∀ calls, P.raises calls = false) (h : Heard parse es s)
    (hsound : Sound parse (received es ++ chunk)) (hin : s.agent.exited = false) :
    Heard parse (.data chunk :: es) (readLoop parse P s.agent (s.data ++ chunk)) := by
  have hquiet := mt h.exited.mpr (Bool.eq_false_iff.mp hin)
  obtain ⟨hnoexit, hnomiss⟩ := not_or.mp hquiet
  have hold : ∀ m ∈ messages parse (received es), m.type ≠ .exit :=
    fun m hm heq => hnoexit ⟨m, hm, heq⟩
  rw [h.data hin]
  obtain ⟨hagent, hraised, hdata⟩ := readLoop_eq hP (sound_append.mp hsound).2 hin
  have hall : messages parse (received (.data chunk :: es)) = messages parse (received es) ++
      messages parse ((frames.cut (received es)).2 ++ chunk) := messages_append _ _
  have huntil := untilExit_append hold
    (messages parse ((frames.cut (received es)).2 ++ chunk))
  have hexited := handleAll_exited P hin
    (messages parse ((frames.cut (received es)).2 ++ chunk))
  rw [← hagent] at hexited
  refine ⟨?_, ?_, fun hin' => ?_, fun hin' => ?_, hraised⟩
  · rw [hall, huntil, hagent, handleAll, foldl_calls, h.calls, untilExit_of_not_mem hold,
      List.filterMap_append]
  · rw [hexited, hall, missed_data, or_iff_left hnomiss]
    constructor
    · rintro ⟨m, hm, heq⟩
      exact ⟨m, List.mem_append_right _ hm, heq⟩
    · rintro ⟨m, hm, heq⟩
      exact ⟨m, (List.mem_append.mp hm).resolve_left fun hm => hold m hm heq, heq⟩
  · rw [hdata hin']
    exact (congrArg Prod.snd (Cutter.cut_append (C := frames) (received es) chunk)).symm
  · have hnone := mt hexited.mpr (Bool.eq_false_iff.mp hin')
    rw [hagent, handleAll, foldl_pingReceived, h.pingReceived hin,
      untilExit_of_not_mem fun m hm heq => hnone ⟨m, hm, heq⟩]
    have hfresh : fresh parse (.data chunk :: es) = fresh parse es ++
        messages parse ((frames.cut (received es)).2 ++ chunk) := by
      rw [fresh, hall]
      exact List.drop_append_of_le_length (messages_length_le es)
    simp only [hfresh, List.mem_append, or_and_right, exists_or]

theorem heard_checkPing (h : Heard parse es s) (hin : s.agent.exited = false) :
    Heard parse (.checkPing :: es) ⟨s.agent.checkPing, s.data, false⟩ := by
  have hquiet := mt h.exited.mpr (Bool.eq_false_iff.mp hin)
  obtain ⟨hnoexit, hnomiss⟩ := not_or.mp hquiet
  have hping := h.pingReceived hin
  unfold Agent.checkPing
  cases hreceived : s.agent.pingReceived with
  | true =>
    obtain ⟨m, hm, heq⟩ := hping.mp hreceived
    have hfalse : ¬ Missed parse (.checkPing :: es) := by
      rw [missed_checkPing, not_or]
      exact ⟨fun hnone => hnone m hm heq, hnomiss⟩
    refine ⟨h.calls, ?_, h.data, fun _ => ?_, rfl⟩
    · exact iff_of_false (Bool.eq_false_iff.mp hin) (not_or.mpr ⟨hnoexit, hfalse⟩)
    · refine iff_of_false Bool.false_ne_true ?_
      rw [fresh, show checked (.checkPing :: es) = received (.checkPing :: es) from rfl,
        List.drop_length]
      rintro ⟨m, hm, -⟩
      exact List.not_mem_nil hm
  | false =>
    refine ⟨h.calls, ?_, fun hout => Bool.noConfusion hout, fun hout => Bool.noConfusion hout, rfl⟩
    refine iff_of_true rfl (.inr (missed_checkPing.mpr (.inl fun m hm heq => ?_)))
    exact absurd (hping.mpr ⟨m, hm, heq⟩) (by rw [hreceived]; decide)

theorem heard_sends (h : Heard parse es s) (sender : Sender) (payload : Bytes) :
    Heard parse (.sends sender payload :: es) ⟨s.agent.send [sender.wrap payload], s.data, false⟩ where
  calls := h.calls
  exited := by
    rw [missed_sends]
    exact h.exited
  data := h.data
  pingReceived := h.pingReceived
  raised := rfl

theorem heard_init : Heard parse [] {} := by
  have hnone : frames.cut [] = ([], []) := Cutter.cut_of_none rfl
  have hmessages : messages parse (received []) = [] := by
    rw [messages, received, hnone]
    rfl
  refine ⟨by rw [hmessages]; rfl, ?_, fun _ => ?_, fun _ => ?_, rfl⟩
  · refine iff_of_false Bool.false_ne_true (not_or.mpr ⟨?_, ?_⟩)
    · rw [hmessages]
      rintro ⟨m, hm, -⟩
      exact List.not_mem_nil hm
    · rintro ⟨older, hsuffix, -⟩
      exact List.cons_ne_nil _ _ (List.suffix_nil.mp hsuffix)
  · rw [received, hnone]
  · refine iff_of_false Bool.false_ne_true ?_
    rw [fresh, hmessages, List.drop_nil]
    rintro ⟨m, hm, -⟩
    exact List.not_mem_nil hm

theorem step_eq_some {e : Event} :
    step parse P s e = some s' ↔ s.agent.exited = false ∧ next parse P s e = s' := by
  unfold step
  cases s.agent.exited <;> simp

theorem heard_step (hP : ∀ calls, P.raises calls = false) {e : Event} (h : Heard parse es s)
    (hsound : Sound parse (received (e :: es))) (hs : step parse P s e = some s') :
    Heard parse (e :: es) s' := by
  obtain ⟨hin, rfl⟩ := step_eq_some.mp hs
  cases e with
  | data chunk => exact heard_data hP h hsound hin
  | checkPing => exact heard_checkPing h hin
  | sends sender payload => exact heard_sends h sender payload

theorem heard_of_run (hP : ∀ calls, P.raises calls = false) {tr : List (State × Event)}
    (h : (machine parse P).Run tr s) (hsound : Sound parse (received (tr.map Prod.snd))) :
    Heard parse (tr.map Prod.snd) s := by
  induction h with
  | init h0 =>
    cases h0
    exact heard_init
  | @step tr s s' e hrun hs ih =>
    refine heard_step hP (ih ?_) hsound hs
    cases e with
    | data chunk => exact (sound_append.mp hsound).1
    | checkPing => exact hsound
    | sends sender payload => exact hsound

/-- However the stream of the server is cut and the checks fall into it, if the handlers return, no
exception is raised, the plugin makes the calls for the messages that are complete, in order and up to
the first EXIT, and the process ends if and only if there was an EXIT or a check without a PING since
the check before. -/
theorem calls_of_run (hP : ∀ calls, P.raises calls = false)
    (hparse : ∀ m ∈ ms, parse (serialize m) = some m)
    (hsize : ∀ m ∈ ms, 1 ≤ (serialize m).length ∧ (serialize m).length < 2 ^ 31)
    {tr : List (State × Event)} (h : (machine parse P).Run tr s)
    (hsent : received (tr.map Prod.snd) <+: stream serialize ms) :
    ∃ done, done <+: ms ∧
      (∀ p, p <+: ms → (stream serialize p <+: received (tr.map Prod.snd) ↔ p <+: done)) ∧
      s.agent.calls = (untilExit done).filterMap dispatch ∧
      (s.agent.exited = true ↔
        (∃ m ∈ done, m.type = .exit) ∨ Missed parse (tr.map Prod.snd)) ∧
      (s.agent.exited = false → ∀ e, received (e :: tr.map Prod.snd) <+: stream serialize ms →
        ∃ s', step parse P s e = some s' ∧ s'.raised = false) := by
  obtain ⟨hsound, hdone, hmost⟩ := messages_of_isPrefix hparse hsize hsent
  have hheard := heard_of_run hP h hsound
  refine ⟨_, hdone, hmost, hheard.calls, hheard.exited, fun hin e he => ?_⟩
  have hs : step parse P s e = some (next parse P s e) := step_eq_some.mpr ⟨hin, rfl⟩
  exact ⟨_, hs, (heard_step hP hheard (messages_of_isPrefix hparse hsize he).1 hs).raised⟩

namespace Sample

/-- A plugin that is connected at once. -/
def plugin : Plugin where
  sends calls :=
    match calls.getLast? with
    | some (.handleLoginPayload _) => [(.handleConnected, [10, 1, 97])]
    | _ => []
  stats _ := [8, 0, 16, 0, 24, 0, 34, 1, 49]

/-- The login of the user `a` with the name `b` and the password `c`. -/
def login : Bytes := [10, 1, 97, 18, 1, 98, 26, 1, 99]

/-- A LOGIN, a QUERY, for which there is no handler, and a PING. -/
def written : List WrapperMessage := [⟨.login, login⟩, ⟨.query, []⟩, ⟨.ping, []⟩]

/-- The stream of the server, cut inside the second header. -/
def cut : List Event :=
  [.data [2, 8, 31, 0, 0, 0, 2, 8, 9],
    .data [0, 0, 0, 13, 8, 3, 18, 9, 10, 1, 97, 18, 1, 98, 26, 1, 99, 0, 0, 0]]

theorem received_cut : received cut = stream Wire.Sample.serialize written := by decide +kernel

/-- The plugin reads both parts. -/
theorem exists_run_cut : ∃ tr s, (machine Wire.Sample.parse plugin).Run tr s ∧
    received (tr.map Prod.snd) = stream Wire.Sample.serialize written := by
  have hread : ∀ {r : Bytes}, r <+: received cut →
      Sound Wire.Sample.parse r ∧ messages Wire.Sample.parse r <+: written := fun hr => by
    rw [received_cut] at hr
    exact (messages_of_isPrefix (by decide) (by decide) hr).imp id And.left
  obtain ⟨hfirst, hnoexit⟩ := hread (List.prefix_append (received cut.tail) _)
  have hheard := heard_data (P := plugin) (fun _ => rfl) heard_init hfirst rfl
  have hin : (readLoop Wire.Sample.parse plugin {} (received cut.tail)).agent.exited = false := by
    refine Bool.eq_false_iff.mpr (mt hheard.exited.mp (not_or.mpr ⟨?_, ?_⟩))
    · rintro ⟨m, hm, heq⟩
      have hall : ∀ m ∈ written, m.type ≠ .exit := by decide
      exact hall m (hnoexit.subset hm) heq
    · rw [missed_data]
      rintro ⟨older, hsuffix, -⟩
      exact List.cons_ne_nil _ _ (List.suffix_nil.mp hsuffix)
  exact ⟨[(_, .data _), ({}, .data _)], _, .step (.step (.init rfl) rfl)
    (if_neg (Bool.eq_false_iff.mp hin)), received_cut⟩

end Sample

theorem calls_of_run_cut : ∃ tr s, (machine Wire.Sample.parse Sample.plugin).Run tr s ∧
    s.agent.calls = [.handleLoginPayload Sample.login, .sendPong] := by
  obtain ⟨tr, s, hrun, hreceived⟩ := Sample.exists_run_cut
  have hsent : received (tr.map Prod.snd) <+: stream Wire.Sample.serialize Sample.written :=
    hreceived ▸ List.prefix_refl _
  obtain ⟨done, hdone, hall, hcalls, -⟩ := calls_of_run (fun _ => rfl) (by decide) (by decide) hrun
    hsent
  rw [hreceived] at hall
  have hcomplete := (hall _ (List.prefix_refl _)).mp (List.prefix_refl _)
  obtain rfl := hdone.eq_of_length_le hcomplete.length_le
  exact ⟨tr, s, hrun, hcalls⟩

/-! ## What the plugin writes -/

/-- A PONG or figures. -/
def isAnswer (m : WrapperMessage) : Bool :=
  match m.type with
  | .pong | .stats => true
  | _ => false

/-- A PONG for every PING, with the figures unless `handleMemoryUsage` raised an exception. -/
def answers (P : Plugin) (calls : List Call) : List WrapperMessage :=
  calls.inits.flatMap fun done =>
    if done.getLast? = some .sendPong then
      ⟨.pong, []⟩ :: if P.raises done then [] else [⟨.stats, P.stats done⟩]
    else []

/-- The answers to the PINGs are written in order, and all else comes from the senders. -/
structure Answered (P : Plugin) (a : Agent) : Prop where
  answers : a.sent.filter isAnswer = answers P a.calls
  senders : ∀ m ∈ a.sent, isAnswer m = false → ∃ (sender : Sender) (payload : Bytes),
    m = sender.wrap payload

theorem answers_append (P : Plugin) (calls : List Call) (c : Call) : answers P (calls ++ [c]) =
    answers P calls ++ if c = .sendPong then
      ⟨.pong, []⟩ :: if P.raises (calls ++ [c]) then [] else [⟨.stats, P.stats (calls ++ [c])⟩]
    else [] := by
  unfold answers
  rw [List.inits_append, List.flatMap_append]
  simp

theorem isAnswer_wrap (sender : Sender) (payload : Bytes) :
    isAnswer (sender.wrap payload) = false := by
  cases sender <;> rfl

theorem filter_own (P : Plugin) (calls : List Call) : (P.own calls).filter isAnswer = [] := by
  rw [List.filter_eq_nil_iff]
  intro m hm
  obtain ⟨own, -, rfl⟩ := List.mem_map.mp hm
  rw [isAnswer_wrap]
  exact Bool.false_ne_true

/-- Messages of the senders are no answers. -/
theorem Answered.send (h : Answered P x) (hms : ∀ m ∈ ms, ∃ (sender : Sender) (payload : Bytes),
    m = sender.wrap payload) : Answered P (x.send ms) := by
  refine ⟨?_, fun m hm hother => ?_⟩
  · have hnone : ms.filter isAnswer = [] := by
      rw [List.filter_eq_nil_iff]
      intro m hm
      obtain ⟨sender, payload, rfl⟩ := hms m hm
      rw [isAnswer_wrap]
      exact Bool.false_ne_true
    rw [Agent.send, List.filter_append, hnone, List.append_nil]
    exact h.answers
  · rcases List.mem_append.mp hm with hm | hm
    · exact h.senders m hm hother
    · exact hms m hm

theorem mem_own {calls : List Call} (hm : m ∈ P.own calls) :
    ∃ (sender : Sender) (payload : Bytes), m = sender.wrap payload := by
  obtain ⟨own, -, rfl⟩ := List.mem_map.mp hm
  exact ⟨own.1, own.2, rfl⟩

theorem Answered.handle (h : Answered P x) (m : WrapperMessage) : Answered P (x.handle P m) := by
  unfold Agent.handle
  cases dispatch m with
  | none => exact h
  | some c =>
    have hother : c ≠ .sendPong → Answered P { x with calls := x.calls ++ [c] } := by
      intro hc
      refine ⟨?_, h.senders⟩
      rw [answers_append, if_neg hc, List.append_nil]
      exact h.answers
    cases c with
    | sendPong =>
      refine ⟨?_, fun m hm hno => ?_⟩
      · simp only [Agent.call, Agent.send, Plugin.pong, List.filter_append, List.filter_cons,
          List.cons_append, filter_own, h.answers, answers_append, if_true, List.nil_append]
        rw [if_pos (show isAnswer ⟨.pong, []⟩ = true from rfl)]
        split <;> simp [isAnswer]
      · simp only [Agent.call, Agent.send, Plugin.pong, List.mem_append, List.mem_cons,
          List.cons_append] at hm
        rcases hm with hm | rfl | hm | hm
        · exact h.senders m hm hno
        · cases hno
        · exact mem_own hm
        · split at hm
          · cases hm
          · obtain rfl := List.mem_singleton.mp hm
            cases hno
    | handleExitRequest =>
      have hexit := hother (by simp)
      exact ⟨hexit.answers, hexit.senders⟩
    | _ => exact (hother (by simp)).send fun m hm => mem_own hm

theorem answered_readLoop (h : Answered P x) (a : Bytes) : Answered P (readLoop parse P x a).agent := by
  induction a using Cutter.cut_induction (C := frames) generalizing x with
  | hnone a hn =>
    rw [readLoop]
    split
    · exact h
    · rename_i heq
      rw [show nextFrame a = none from hn] at heq
      cases heq
  | hsome a body rest hn ih =>
    rw [readLoop]
    split
    · exact h
    · rename_i heq
      rw [show nextFrame a = some (body, rest) from hn] at heq
      cases heq
      split
      · exact h
      · rename_i wrapper _
        have hnext := h.handle wrapper
        split
        · exact h
        · split
          · exact hnext
          · split
            · exact hnext
            · exact ih hnext

theorem answered_of_run {tr : List (State × Event)} (h : (machine parse P).Run tr s) :
    Answered P s.agent := by
  induction h with
  | init h0 =>
    cases h0
    exact ⟨rfl, fun _ hm => nomatch hm⟩
  | @step tr s s' e hrun hs ih =>
    obtain ⟨-, rfl⟩ := step_eq_some.mp hs
    cases e with
    | data chunk => exact answered_readLoop ih _
    | checkPing =>
      change Answered P s.agent.checkPing
      unfold Agent.checkPing
      split <;> exact ⟨ih.answers, ih.senders⟩
    | sends sender payload =>
      apply ih.send
      intro m hm
      exact ⟨sender, payload, List.mem_singleton.mp hm⟩

/-- The server has a handler for everything that a plugin writes. -/
theorem Answered.handled (h : Answered P x) (hm : m ∈ x.sent) : (Server.dispatch m).isSome := by
  cases hanswer : isAnswer m with
  | false =>
    obtain ⟨sender, payload, rfl⟩ := h.senders m hm hanswer
    cases sender <;> rfl
  | true =>
    unfold isAnswer at hanswer
    unfold Server.dispatch
    cases htype : m.type <;> simp_all

theorem count_pong (P : Plugin) (calls : List Call) :
    (answers P calls).countP (·.type = .pong) = calls.count .sendPong := by
  induction calls using List.reverseRecOn with
  | nil => simp [answers]
  | append_singleton calls c ih =>
    rw [answers_append, List.countP_append, List.count_append, ih]
    congr 1
    by_cases hc : c = .sendPong
    · rw [if_pos hc, hc]
      split <;> simp
    · rw [if_neg hc]
      simp [hc]

/-- The server reads all that a plugin writes, however it receives it and whatever the plugin received
and its handlers do: the messages of the senders, and in order one PONG for every PING that was
handled, with the figures unless `handleMemoryUsage` raised an exception. -/
theorem pongs_of_run {tr : List (State × Event)} (h : (machine parse P).Run tr s)
    (hcodec : ∀ m ∈ s.agent.sent, parse (serialize m) = some m ∧ 1 ≤ (serialize m).length ∧
      (serialize m).length < 2 ^ 31) {chunks : List Bytes}
    (hcut : chunks.flatten = stream serialize s.agent.sent) :
    (Server.receive parse chunks).1.map some = s.agent.sent.map Server.dispatch ∧
      (Server.receive parse chunks).2 = [] ∧
      s.agent.sent.filter isAnswer = answers P s.agent.calls ∧
      (∀ m ∈ s.agent.sent, isAnswer m = false → ∃ (sender : Sender) (payload : Bytes),
        m = sender.wrap payload) ∧
      (Server.receive parse chunks).1.count .handlePongReceived = s.agent.calls.count .sendPong := by
  have hanswered := answered_of_run h
  obtain ⟨hread, hrest⟩ := Server.receive_send parse serialize s.agent.sent chunks
    (fun m hm => (hcodec m hm).1) (fun m hm => (hcodec m hm).2) (fun _ hm => hanswered.handled hm) hcut
  refine ⟨hread, hrest, hanswered.answers, hanswered.senders, ?_⟩
  have hcount : s.agent.sent.countP (·.type = .pong) = s.agent.calls.count .sendPong := by
    rw [← count_pong P, ← hanswered.answers, List.countP_filter]
    refine List.countP_congr fun m _ => ?_
    unfold isAnswer
    cases m.type <;> simp
  rw [← hcount, ← List.count_map_of_injective _ some (fun _ _ => Option.some.inj), hread, List.count,
    List.countP_map]
  refine List.countP_congr fun m _ => ?_
  rw [Function.comp_apply, Server.dispatch]
  cases m.type <;> simp

/-- The plugin answers the LOGIN and the PING, and the server receives this in two parts. -/
theorem pongs_of_run_cut : ∃ tr s, (machine Wire.Sample.parse Sample.plugin).Run tr s ∧
    s.agent.sent = [Sender.handleConnected.wrap [10, 1, 97], ⟨.pong, []⟩,
      ⟨.stats, [8, 0, 16, 0, 24, 0, 34, 1, 49]⟩] ∧
    (Server.receive Wire.Sample.parse [(stream Wire.Sample.serialize s.agent.sent).take 7,
      (stream Wire.Sample.serialize s.agent.sent).drop 7]).1.count .handlePongReceived = 1 := by
  have harrived : Sound Wire.Sample.parse (stream Wire.Sample.serialize Sample.written) ∧
      messages Wire.Sample.parse (stream Wire.Sample.serialize Sample.written) = Sample.written := by
    have hparse : ∀ m ∈ Sample.written, Wire.Sample.parse (Wire.Sample.serialize m) = some m := by
      decide
    obtain ⟨hsound, hpart, hall⟩ := messages_of_isPrefix hparse (by decide) (List.prefix_refl _)
    have hcomplete := (hall _ (List.prefix_refl _)).mp (List.prefix_refl _)
    exact ⟨hsound, hpart.eq_of_length_le hcomplete.length_le⟩
  have hread : (readLoop Wire.Sample.parse Sample.plugin {}
      (stream Wire.Sample.serialize Sample.written)).agent =
        handleAll Sample.plugin {} Sample.written := by
    rw [(readLoop_eq (fun _ => rfl) harrived.1 rfl).1, harrived.2]
  have hrun : (machine Wire.Sample.parse Sample.plugin).Run
      [({}, .data (stream Wire.Sample.serialize Sample.written))] (readLoop Wire.Sample.parse
        Sample.plugin {} (stream Wire.Sample.serialize Sample.written)) := .step (.init rfl) rfl
  have hcut : ∀ out : Bytes, [out.take 7, out.drop 7].flatten = out := by simp
  obtain ⟨-, -, -, -, hcount⟩ := pongs_of_run hrun (by rw [hread]; decide +kernel)
    (hcut (stream Wire.Sample.serialize _))
  refine ⟨_, _, hrun, by rw [hread]; decide +kernel, hcount.trans ?_⟩
  rw [hread]
  decide +kernel

end Spectrum.Wire.Python
