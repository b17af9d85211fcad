import Mathlib.Algebra.Group.Nat.Defs
import Spectrum.Lib.Frames

/-!
# Messages between the server and its backends

A message on the wire is a serialized `pbnetwork::WrapperMessage` behind its length, four
bytes in network order. `NetworkPlugin::send` and `NetworkPluginServer::send` write it in the
same way, and both receive loops take it off their buffer in the same way. The protobuf
functions are parameters of what follows.
-/

namespace Spectrum.Wire

open Lib

abbrev Bytes := List UInt8

/-- `WrapperMessage::Type`. -/
inductive WrapperType
  | connected | disconnected | login | logout | buddyChanged | buddyRemoved | convMessage | ping
  | pong | joinRoom | leaveRoom | participantChanged | roomNicknameChanged | roomSubjectChanged
  | vcard | statusChanged | buddyTyping | buddyStoppedTyping | buddyTyped | authRequest
  | attention | stats | ftStart | ftFinish | ftData | ftPause | ftContinue | exit | backendConfig
  | query | roomList | convMessageAck | rawXml | buddies | apiVersion
  deriving DecidableEq, Repr

/-- `pbnetwork::WrapperMessage`; a missing payload reads as the empty one. -/
structure WrapperMessage where
  type : WrapperType
  payload : Bytes := []
  deriving DecidableEq, Repr

/-! ## The header -/

/-- The four bytes of `htonl(data.size())`. -/
def header (n : Nat) : Bytes :=
  [.ofNat (n / 2 ^ 24), .ofNat (n / 2 ^ 16), .ofNat (n / 2 ^ 8), .ofNat n]

/-- `ntohl` of the first four bytes. -/
def expectedSize (b₀ b₁ b₂ b₃ : UInt8) : Nat :=
  b₀.toNat * 2 ^ 24 + b₁.toNat * 2 ^ 16 + b₂.toNat * 2 ^ 8 + b₃.toNat

/-- `send`: the header and the data are written together. -/
def send (data : Bytes) : Bytes := header data.length ++ data

/-- The wrapper message at the start of a buffer that holds it completely, and what follows. -/
def nextFrame : Bytes → Option (Bytes × Bytes)
  | b₀ :: b₁ :: b₂ :: b₃ :: data =>
    if data.length < expectedSize b₀ b₁ b₂ b₃ then none
    else some (data.take (expectedSize b₀ b₁ b₂ b₃), data.drop (expectedSize b₀ b₁ b₂ b₃))
  | _ => none

theorem nextFrame_eq_some {a f r : Bytes} (h : nextFrame a = some (f, r)) :
    ∃ b₀ b₁ b₂ b₃, a = b₀ :: b₁ :: b₂ :: b₃ :: (f ++ r) ∧ f.length = expectedSize b₀ b₁ b₂ b₃ := by
  unfold nextFrame at h
  split at h
  · rename_i b₀ b₁ b₂ b₃ data
    split at h
    · cases h
    · rename_i hlen
      cases h
      refine ⟨b₀, b₁, b₂, b₃, by rw [List.take_append_drop], ?_⟩
      rw [List.length_take]
      omega
  · cases h

theorem nextFrame_of_length {b₀ b₁ b₂ b₃ : UInt8} {f : Bytes}
    (h : f.length = expectedSize b₀ b₁ b₂ b₃) (r : Bytes) :
    nextFrame (b₀ :: b₁ :: b₂ :: b₃ :: (f ++ r)) = some (f, r) := by
  have hlen : ¬ (f ++ r).length < f.length := by simp
  simp only [nextFrame, ← h, if_neg hlen, List.take_left, List.drop_left]

/-- The frames of a stream of wrapper messages. -/
def frames : Cutter UInt8 where
  next := nextFrame
  shorter := by
    intro a f r h
    obtain ⟨b₀, b₁, b₂, b₃, rfl, -⟩ := nextFrame_eq_some h
    simp only [List.length_cons, List.length_append]
    omega
  extends_append := by
    intro a f r b h
    obtain ⟨b₀, b₁, b₂, b₃, rfl, hlen⟩ := nextFrame_eq_some h
    simpa using nextFrame_of_length hlen (r ++ b)

theorem expectedSize_header {n : Nat} (h : n < 2 ^ 32) :
    expectedSize (.ofNat (n / 2 ^ 24)) (.ofNat (n / 2 ^ 16)) (.ofNat (n / 2 ^ 8)) (.ofNat n) =
      n := by
  simp only [expectedSize, UInt8.toNat_ofNat']
  omega

theorem nextFrame_send {data : Bytes} (h : data.length < 2 ^ 32) (r : Bytes) :
    nextFrame (send data ++ r) = some (data, r) :=
  nextFrame_of_length (expectedSize_header h).symm r

/-- A stream of sent messages is cut into these messages. -/
theorem cut_send {ds : List Bytes} (h : ∀ d ∈ ds, d.length < 2 ^ 32) :
    frames.cut (ds.map send).flatten = (ds, []) := by
  induction ds with
  | nil => exact Cutter.cut_of_none rfl
  | cons d ds ih =>
    have hd := nextFrame_send (h d List.mem_cons_self) (ds.map send).flatten
    have hds := ih fun d' hd' => h d' (List.mem_cons_of_mem d hd')
    rw [List.map_cons, List.flatten_cons, Cutter.cut_of_some hd, hds]

/-- However a stream of serialized messages is cut into chunks, its frames are these messages. -/
theorem cut_messages {serialize : WrapperMessage → Bytes} {ms : List WrapperMessage}
    {chunks : List Bytes} (hsize : ∀ m ∈ ms, (serialize m).length < 2 ^ 31)
    (hcut : chunks.flatten = (ms.map fun m => send (serialize m)).flatten) :
    frames.cut chunks.flatten = (ms.map serialize, []) := by
  have hmap : (ms.map fun m => send (serialize m)) = (ms.map serialize).map send := by
    rw [List.map_map]
    rfl
  rw [hcut, hmap]
  apply cut_send
  intro d hd
  obtain ⟨m, hm, rfl⟩ := List.mem_map.mp hd
  have hlt := hsize m hm
  omega

/-! ## A codec for short messages -/

namespace Sample

/-- The field number of `WrapperMessage::Type`. -/
def number : WrapperType → UInt8
  | .connected => 1 | .disconnected => 2 | .login => 3 | .logout => 4 | .buddyChanged => 6
  | .buddyRemoved => 7 | .convMessage => 8 | .ping => 9 | .pong => 10 | .joinRoom => 11
  | .leaveRoom => 12 | .participantChanged => 13 | .roomNicknameChanged => 14
  | .roomSubjectChanged => 15 | .vcard => 16 | .statusChanged => 17 | .buddyTyping => 18
  | .buddyStoppedTyping => 19 | .buddyTyped => 20 | .authRequest => 21 | .attention => 22
  | .stats => 23 | .ftStart => 24 | .ftFinish => 25 | .ftData => 26 | .ftPause => 27
  | .ftContinue => 28 | .exit => 29 | .backendConfig => 30 | .query => 31 | .roomList => 32
  | .convMessageAck => 33 | .rawXml => 34 | .buddies => 35 | .apiVersion => 36

def typeOf (n : UInt8) : Option WrapperType :=
  [.connected, .disconnected, .login, .logout, .buddyChanged, .buddyRemoved, .convMessage, .ping,
    .pong, .joinRoom, .leaveRoom, .participantChanged, .roomNicknameChanged, .roomSubjectChanged,
    .vcard, .statusChanged, .buddyTyping, .buddyStoppedTyping, .buddyTyped, .authRequest,
    .attention, .stats, .ftStart, .ftFinish, .ftData, .ftPause, .ftContinue, .exit, .backendConfig,
    .query, .roomList, .convMessageAck, .rawXml, .buddies, .apiVersion].find? fun t => number t = n

/-- The protobuf encoding of a message with a payload of less than 128 bytes: the varint field
1 and, unless the payload is empty, the length-delimited field 2. -/
def serialize (m : WrapperMessage) : Bytes :=
  8 :: number m.type ::
    (if m.payload = [] then [] else 18 :: UInt8.ofNat m.payload.length :: m.payload)

def parse : Bytes → Option WrapperMessage
  | [8, n] => (typeOf n).map fun t => { type := t }
  | 8 :: n :: 18 :: l :: payload =>
    if payload.length = l.toNat then (typeOf n).map fun t => ⟨t, payload⟩ else none
  | _ => none

end Sample

end Spectrum.Wire
