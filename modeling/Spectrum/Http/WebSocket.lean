import Spectrum.Lib.Frames
import Spectrum.Lib.Rfc6455

/-!
# WebSocketClient

`write` sends a text as one masked frame, `handleDataRead` takes the frames of the server off its
buffer. Both know the lengths of 7 and of 16 bits only.
-/

namespace Spectrum.WebSocket

open Lib Rfc6455

/-! ## The writer -/

/-- `mask_bits`. -/
def maskBits : Key := ⟨0x11, 0x22, 0x33, 0x44⟩

/-- The loop of `write` over the payload. -/
def maskPayload (data : Bytes) : Bytes :=
  data.mapIdx fun i b => b ^^^ maskBits.toBytes.getD (i &&& 3) 0

/-- The bytes of `htons(size16)`. -/
def htons (size16 : UInt16) : Bytes := [.ofNat (size16.toNat / 256), .ofNat size16.toNat]

/-- `write` on a connection. -/
def write (data : Bytes) : Bytes :=
  let opcode : UInt8 := if data = [] then 138 else 129
  let payload := maskPayload data
  if data.length ≤ 125 then
    let size7 : UInt8 := .ofNat (data.length + 128)
    [opcode] ++ [size7] ++ maskBits.toBytes ++ payload
  else
    let size7 : UInt8 := 126 + 128
    let size16 : UInt16 := .ofNat data.length
    [opcode] ++ [size7] ++ htons size16 ++ maskBits.toBytes ++ payload

/-- One unfragmented text frame with the payload, and nothing behind it. -/
def IsTextFrame (bytes payload : Bytes) : Prop :=
  ∃ f, decode bytes = some (f, []) ∧ f.fin = true ∧ f.rsv = noExtension ∧ f.opcode = Opcode.text ∧
    f.key.isSome = true ∧ f.payload = payload

theorem maskPayload_eq (data : Bytes) : maskPayload data = maskBits.apply data := by
  unfold maskPayload Key.apply Key.byte
  refine congrArg (data.mapIdx ·) (funext fun i => ?_)
  have hand : i &&& 3 = i % 4 := Nat.and_two_pow_sub_one_eq_mod i 2
  rw [hand]

/-- The frame of a text. -/
def textFrame (data : Bytes) (h : data.length < 2 ^ 63) : Frame :=
  ⟨true, noExtension, Opcode.text, some maskBits, data, h⟩

theorem htons_eq (n : Nat) : htons (.ofNat n) = bigEndian 2 n := by
  have hlow : UInt8.ofNat (UInt16.ofNat n).toNat = .ofNat n := by
    refine UInt8.toNat_inj.mp ?_
    simp only [UInt8.toNat_ofNat', UInt16.toNat_ofNat']
    omega
  have hhigh : UInt8.ofNat ((UInt16.ofNat n).toNat / 256) = .ofNat (n / 256) := by
    refine UInt8.toNat_inj.mp ?_
    simp only [UInt8.toNat_ofNat', UInt16.toNat_ofNat']
    omega
  rw [htons, hlow, hhigh, bigEndian, bigEndian, bigEndian, pow_one, pow_zero, Nat.div_one]

/-- A short text is sent as its frame. -/
theorem write_eq_encode {data : Bytes} (hne : data ≠ []) (hlt : data.length < 2 ^ 16)
    (h : data.length < 2 ^ 63) : write data = (textFrame data h).encode := by
  unfold write Frame.encode Frame.head textFrame extendedLength length7
  simp only [if_neg hne, maskPayload_eq, if_pos hlt, Option.isSome_some, if_true]
  split
  · rw [Nat.add_comm]
    rfl
  · rw [htons_eq]
    rfl

theorem length_lt_of_isTextFrame {data : Bytes} (h : IsTextFrame (write data) data) :
    data.length < 2 ^ 16 := by
  obtain ⟨f, hdecode, -, -, -, -, rfl⟩ := h
  by_contra hlong
  have hlarge : ¬ f.payload.length ≤ 125 := by omega
  unfold write at hdecode
  rw [if_neg hlarge] at hdecode
  exact hlong (length_lt_of_decode_126 hdecode rfl)

/-- A text is encoded in one frame exactly if its length fits into 16 bits. -/
theorem isTextFrame_write_iff (data : Bytes) (hne : data ≠ []) :
    IsTextFrame (write data) data ↔ data.length < 2 ^ 16 := by
  constructor
  · exact length_lt_of_isTextFrame
  · intro hlt
    have h : data.length < 2 ^ 63 := by omega
    refine ⟨textFrame data h, ?_, rfl, rfl, rfl, rfl, rfl⟩
    have hdecode := decode_encode (textFrame data h) []
    rw [List.append_nil, ← write_eq_encode hne hlt h] at hdecode
    exact hdecode

theorem isTextFrame_write_iff_ok : IsTextFrame (write [111, 107]) [111, 107] := by
  refine (isTextFrame_write_iff _ ?_).mpr ?_
  · decide
  · decide

/-- 65536 bytes are announced as none. -/
theorem not_isTextFrame_long : ¬ IsTextFrame (write (List.replicate 65536 97)) (List.replicate 65536 97) := by
  intro h
  have hlt := length_lt_of_isTextFrame h
  rw [List.length_replicate] at hlt
  exact absurd hlt (by decide)

/-! ## The reader -/

inductive Signal
  | onWebSocketConnected
  | onPayloadReceived (payload : Bytes)
  deriving DecidableEq, Repr

/-- `m_buffer`, `m_upgraded` and the signals, oldest first. -/
structure State where
  buffer : Bytes := []
  upgraded : Bool := false
  log : List Signal := []
  deriving DecidableEq, Repr

/-- What follows the first blank line. -/
def afterBlankLine : Bytes → Option Bytes
  | [] => none
  | b :: bytes =>
    if [13, 10, 13, 10].isPrefixOf (b :: bytes) then some ((b :: bytes).drop 4)
    else afterBlankLine bytes

/-- `header_size` and `size`, from the second byte and what follows it. -/
def sizes (b₁ : UInt8) (bytes : Bytes) : Option (Nat × Nat) :=
  let size7 := b₁ &&& 127
  if size7 = 126 then
    match bytes with
    | x :: y :: _ =>
      let size16 := x.toNat * 256 + y.toNat
      some (4, if size16 = 0 then size7.toNat else size16)
    | _ => none
  else some (2, size7.toNat)

/-- One pass of the loop of `handleDataRead`: the payload that is received, and the buffer. -/
def readOnce : Bytes → Option (Option Bytes × Bytes)
  | b₀ :: b₁ :: bytes =>
    match sizes b₁ bytes with
    | none => none
    | some (headerSize, size) =>
      -- the workaround for Slack
      if b₀ &&& 0xf = 9 ∧ b₁ &&& 128 ≠ 0 ∧ b₁ &&& 127 = 1 then some (none, b₁ :: bytes)
      else if size + headerSize ≤ bytes.length + 2 then
        some (some (((b₀ :: b₁ :: bytes).drop headerSize).take size),
          (b₀ :: b₁ :: bytes).drop (size + headerSize))
      else if size = 0 then some (none, (b₀ :: b₁ :: bytes).drop headerSize)
      else none
  | _ => none

section Passes

variable {a b r : Bytes} {p : Option Bytes} {b₀ b₁ : UInt8} {bytes : Bytes} {headerSize size : Nat}

theorem sizes_cases (h : sizes b₁ bytes = some (headerSize, size)) :
    (headerSize = 2 ∧ ∀ bytes', sizes b₁ bytes' = some (headerSize, size)) ∨
    ∃ x y bytes', bytes = x :: y :: bytes' ∧ headerSize = 4 ∧
      ∀ bytes', sizes b₁ (x :: y :: bytes') = some (headerSize, size) := by
  unfold sizes at h
  simp only at h
  split at h
  · rename_i h126
    split at h
    · rename_i x y bytes'
      cases h
      refine Or.inr ⟨x, y, bytes', rfl, rfl, fun bytes' => ?_⟩
      rw [sizes, if_pos h126]
    · cases h
  · rename_i h126
    cases h
    exact Or.inl ⟨rfl, fun bytes' => if_neg h126⟩

theorem sizes_append (h : sizes b₁ bytes = some (headerSize, size)) (b : Bytes) :
    sizes b₁ (bytes ++ b) = some (headerSize, size) := by
  rcases sizes_cases h with ⟨-, hall⟩ | ⟨x, y, bytes', rfl, -, hall⟩
  · exact hall _
  · exact hall _

theorem sizes_take (h : sizes b₁ bytes = some (headerSize, size)) :
    sizes b₁ (bytes.take (size + headerSize - 2)) = some (headerSize, size) := by
  rcases sizes_cases h with ⟨-, hall⟩ | ⟨x, y, bytes', rfl, hheader, hall⟩
  · exact hall _
  · obtain ⟨n, hn⟩ : ∃ n, size + headerSize - 2 = n + 2 := ⟨size, by omega⟩
    rw [hn]
    exact hall _

theorem headerSize_bounds (h : sizes b₁ bytes = some (headerSize, size)) :
    2 ≤ headerSize ∧ headerSize ≤ bytes.length + 2 := by
  rcases sizes_cases h with ⟨rfl, -⟩ | ⟨x, y, bytes', rfl, rfl, -⟩
  · omega
  · simp

/-- A pass drops one byte, or takes a complete frame. -/
theorem readOnce_cases (h : readOnce a = some (p, r)) : ∃ b₀ b₁ bytes headerSize size,
    a = b₀ :: b₁ :: bytes ∧ sizes b₁ bytes = some (headerSize, size) ∧
      (((b₀ &&& 0xf = 9 ∧ b₁ &&& 128 ≠ 0 ∧ b₁ &&& 127 = 1) ∧ p = none ∧ r = b₁ :: bytes) ∨
        (¬ (b₀ &&& 0xf = 9 ∧ b₁ &&& 128 ≠ 0 ∧ b₁ &&& 127 = 1) ∧
          size + headerSize ≤ bytes.length + 2 ∧ p = some ((a.drop headerSize).take size) ∧
            r = a.drop (size + headerSize))) := by
  unfold readOnce at h
  split at h
  · rename_i b₀ b₁ bytes
    split at h
    · cases h
    · rename_i headerSize size hsizes
      refine ⟨b₀, b₁, bytes, headerSize, size, rfl, hsizes, ?_⟩
      split at h
      · rename_i hslack
        cases h
        exact Or.inl ⟨hslack, rfl, rfl⟩
      · rename_i hslack
        split at h
        · rename_i hlength
          cases h
          exact Or.inr ⟨hslack, hlength, rfl, rfl⟩
        · -- a header is never longer than the buffer
          have hbounds := headerSize_bounds hsizes
          split at h
          · omega
          · cases h
  · cases h

theorem readOnce_of_slack (hsizes : sizes b₁ bytes = some (headerSize, size))
    (h : b₀ &&& 0xf = 9 ∧ b₁ &&& 128 ≠ 0 ∧ b₁ &&& 127 = 1) :
    readOnce (b₀ :: b₁ :: bytes) = some (none, b₁ :: bytes) := by
  unfold readOnce
  simp only [hsizes]
  rw [if_pos h]

theorem readOnce_of_frame (hsizes : sizes b₁ bytes = some (headerSize, size))
    (h : ¬ (b₀ &&& 0xf = 9 ∧ b₁ &&& 128 ≠ 0 ∧ b₁ &&& 127 = 1))
    (hlength : size + headerSize ≤ bytes.length + 2) :
    readOnce (b₀ :: b₁ :: bytes) = some (some (((b₀ :: b₁ :: bytes).drop headerSize).take size),
      (b₀ :: b₁ :: bytes).drop (size + headerSize)) := by
  unfold readOnce
  simp only [hsizes]
  rw [if_neg h, if_pos hlength]

theorem length_readOnce (h : readOnce a = some (p, r)) : r.length < a.length := by
  obtain ⟨b₀, b₁, bytes, headerSize, size, rfl, hsizes, hcases⟩ := readOnce_cases h
  have hbounds := headerSize_bounds hsizes
  rcases hcases with ⟨-, -, rfl⟩ | ⟨-, hlength, -, rfl⟩
  · simp
  · rw [List.length_drop, List.length_cons, List.length_cons]
    omega

/-- More data does not change what a pass takes. -/
theorem readOnce_append (h : readOnce a = some (p, r)) (b : Bytes) :
    readOnce (a ++ b) = some (p, r ++ b) := by
  obtain ⟨b₀, b₁, bytes, headerSize, size, rfl, hsizes, hcases⟩ := readOnce_cases h
  have hsizes' := sizes_append hsizes b
  rcases hcases with ⟨hslack, rfl, rfl⟩ | ⟨hslack, hlength, rfl, rfl⟩
  · exact readOnce_of_slack hsizes' hslack
  · have hlength' : size + headerSize ≤ (bytes ++ b).length + 2 := by
      rw [List.length_append]
      omega
    have hall : size + headerSize ≤ (b₀ :: b₁ :: bytes).length := hlength
    refine (readOnce_of_frame hsizes' hslack hlength').trans ?_
    rw [← List.cons_append, ← List.cons_append, List.drop_append_of_le_length hall,
      List.drop_append_of_le_length (by omega), List.take_append_of_le_length]
    rw [List.length_drop]
    omega

/-- What a pass takes off the buffer makes up the payload alone. -/
theorem exists_taken (h : readOnce a = some (p, r)) :
    ∃ f, a = f ++ r ∧ ((readOnce f).bind Prod.fst) = p := by
  obtain ⟨b₀, b₁, bytes, headerSize, size, rfl, hsizes, hcases⟩ := readOnce_cases h
  rcases hcases with ⟨-, rfl, rfl⟩ | ⟨hslack, hlength, rfl, rfl⟩
  · exact ⟨[b₀], rfl, rfl⟩
  · refine ⟨(b₀ :: b₁ :: bytes).take (size + headerSize), (List.take_append_drop _ _).symm, ?_⟩
    obtain ⟨n, hn⟩ : ∃ n, size + headerSize = n + 2 :=
      ⟨size + headerSize - 2, by have := (headerSize_bounds hsizes).1; omega⟩
    have htake := sizes_take hsizes
    rw [hn] at htake
    have hframe := readOnce_of_frame htake hslack (by rw [List.length_take]; omega)
    rw [hn, List.take_succ_cons, List.take_succ_cons]
    refine (congrArg (Option.bind · Prod.fst) hframe).trans ?_
    have hmin : min size (n + 2 - 2 + 1 + 1 - headerSize) = size := by omega
    rw [Option.bind_some, ← List.take_succ_cons, ← List.take_succ_cons]
    simp only
    rw [List.drop_take, List.take_take, hmin]

end Passes

/-- The loop of `handleDataRead`. -/
def readLoop (buffer : Bytes) : List Signal × Bytes :=
  match _h : readOnce buffer with
  | none => ([], buffer)
  | some (none, rest) => readLoop rest
  | some (some payload, rest) => (.onPayloadReceived payload :: (readLoop rest).1, (readLoop rest).2)
termination_by buffer.length
decreasing_by all_goals exact length_readOnce _h

def handleDataRead (s : State) (data : Bytes) : State :=
  let buffer := s.buffer ++ data
  if s.upgraded then
    { s with buffer := (readLoop buffer).2, log := s.log ++ (readLoop buffer).1 }
  else
    match afterBlankLine buffer with
    | none => { s with buffer }
    | some buffer =>
      { buffer := (readLoop buffer).2, upgraded := true
        log := s.log ++ .onWebSocketConnected :: (readLoop buffer).1 }

/-- The calls for the chunks of a connection, after `connectServer`. -/
def receive (chunks : List Bytes) : State := chunks.foldl handleDataRead {}

/-! ## The stream -/

/-- What the passes of the loop take off the buffer. -/
def passes : Cutter UInt8 where
  next a := (readOnce a).map fun pr => (a.take (a.length - pr.2.length), pr.2)
  shorter := by
    intro a f r h
    obtain ⟨⟨p, r⟩, hread, heq⟩ := Option.map_eq_some_iff.mp h
    cases heq
    exact length_readOnce hread
  extends_append := by
    intro a f r b h
    obtain ⟨⟨p, r⟩, hread, heq⟩ := Option.map_eq_some_iff.mp h
    cases heq
    have hlt := length_readOnce hread
    rw [readOnce_append hread b, Option.map_some, List.length_append, List.length_append,
      Nat.add_sub_add_right, List.take_append_of_le_length (Nat.sub_le _ _)]

/-- What a pass causes; none ends the loop. -/
def act (f : Bytes) : List Signal × Bool :=
  ((((readOnce f).bind Prod.fst).map Signal.onPayloadReceived).toList, false)

theorem next_of_readOnce {a r : Bytes} {p : Option Bytes} (h : readOnce a = some (p, r)) :
    ∃ f, passes.next a = some (f, r) ∧ (act f).1 = (p.map Signal.onPayloadReceived).toList := by
  obtain ⟨f, hf, hp⟩ := exists_taken h
  refine ⟨f, ?_, ?_⟩
  · refine (congrArg (Option.map _) h).trans ?_
    rw [Option.map_some, hf, List.length_append, Nat.add_sub_cancel, List.take_left]
  · rw [act, hp]

theorem readLoop_eq_drain (buffer : Bytes) : readLoop buffer = passes.drain act buffer := by
  induction buffer using Cutter.cut_induction (C := passes) with
  | hnone buffer h =>
    have hread : readOnce buffer = none := Option.map_eq_none_iff.mp h
    rw [Cutter.drain_of_none h, readLoop]
    split
    · rfl
    · rename_i heq
      rw [hread] at heq
      cases heq
    · rename_i heq
      rw [hread] at heq
      cases heq
  | hsome buffer f r h ih =>
    obtain ⟨⟨p, r⟩, hread, heq⟩ := Option.map_eq_some_iff.mp h
    cases heq
    obtain ⟨f, hnext, hact⟩ := next_of_readOnce hread
    have hgo : (act f).2 = false := rfl
    rw [Cutter.drain_of_some hnext, hact, hgo, readLoop, if_neg Bool.false_ne_true]
    split
    · rename_i heq
      rw [hread] at heq
      cases heq
    · rename_i heq
      rw [hread] at heq
      cases heq
      rw [ih]
      rfl
    · rename_i heq
      rw [hread] at heq
      cases heq
      rw [ih]
      rfl

/-- A pass never ends the loop, so all complete frames are taken. -/
theorem readLoop_eq_cut (buffer : Bytes) :
    readLoop buffer = (passes.outcome act buffer, (passes.cut buffer).2) := by
  rw [readLoop_eq_drain]
  exact Cutter.drain_of_unhindered fun _ _ => rfl

theorem outcome_of_none {a : Bytes} (h : readOnce a = none) : passes.outcome act a = [] := by
  have hnext : passes.next a = none := congrArg (Option.map _) h
  rw [Cutter.outcome, Cutter.cut_of_none hnext]
  rfl

theorem outcome_of_some {a r : Bytes} {p : Option Bytes} (h : readOnce a = some (p, r)) :
    passes.outcome act a =
      (p.map Signal.onPayloadReceived).toList ++ passes.outcome act r ∧
        (passes.cut a).2 = (passes.cut r).2 := by
  obtain ⟨f, hnext, hact⟩ := next_of_readOnce h
  rw [Cutter.outcome, Cutter.cut_of_some hnext, List.flatMap_cons, hact]
  exact ⟨rfl, rfl⟩

theorem length_afterBlankLine {a r : Bytes} (h : afterBlankLine a = some r) : 4 ≤ a.length := by
  induction a with
  | nil => cases h
  | cons b bytes ih =>
    rw [afterBlankLine] at h
    split at h
    · rename_i hprefix
      exact (List.isPrefixOf_iff_prefix.mp hprefix).length_le
    · exact Nat.le_succ_of_le (ih h)

theorem afterBlankLine_append {a r : Bytes} (h : afterBlankLine a = some r) (b : Bytes) :
    afterBlankLine (a ++ b) = some (r ++ b) := by
  induction a with
  | nil => cases h
  | cons c bytes ih =>
    have hlength := length_afterBlankLine h
    have hiff : [13, 10, 13, 10].isPrefixOf (c :: (bytes ++ b)) =
        [13, 10, 13, 10].isPrefixOf (c :: bytes) := by
      rw [Bool.eq_iff_iff, List.isPrefixOf_iff_prefix, List.isPrefixOf_iff_prefix, ← List.cons_append]
      refine ⟨fun hprefix => ?_, fun hprefix => hprefix.trans (List.prefix_append _ _)⟩
      exact List.prefix_of_prefix_length_le hprefix (List.prefix_append _ _) hlength
    rw [afterBlankLine] at h
    rw [List.cons_append, afterBlankLine, hiff]
    split at h
    · rename_i hprefix
      cases h
      rw [if_pos hprefix, ← List.cons_append, List.drop_append_of_le_length hlength]
    · rename_i hprefix
      rw [if_neg hprefix]
      exact ih h

/-- The state after a stream, however it is cut. -/
def stateAfter (stream : Bytes) : State :=
  match afterBlankLine stream with
  | none => { buffer := stream }
  | some rest =>
    { buffer := (passes.cut rest).2, upgraded := true
      log := .onWebSocketConnected :: passes.outcome act rest }

theorem handleDataRead_stateAfter (stream data : Bytes) :
    handleDataRead (stateAfter stream) data = stateAfter (stream ++ data) := by
  unfold stateAfter
  cases hline : afterBlankLine stream with
  | none =>
    unfold handleDataRead
    simp only [Bool.false_eq_true, if_false]
    cases afterBlankLine (stream ++ data) with
    | none => rfl
    | some rest =>
      simp only [readLoop_eq_cut]
      rfl
  | some rest =>
    unfold handleDataRead
    rw [afterBlankLine_append hline]
    simp only [if_true, readLoop_eq_cut]
    rw [Cutter.outcome_append rest, Cutter.cut_append rest]
    rfl

theorem receive_eq (chunks : List Bytes) : receive chunks = stateAfter chunks.flatten := by
  induction chunks using List.reverseRecOn with
  | nil => rfl
  | append_singleton chunks chunk ih =>
    have hflat : (chunks ++ [chunk]).flatten = chunks.flatten ++ chunk := by simp
    rw [receive, List.foldl_append, ← receive, ih, hflat]
    exact handleDataRead_stateAfter _ _

/-! ## The frames of the server -/

/-- An unmasked frame that is not fragmented. -/
structure ServerFrame where
  opcode : Fin 16
  payload : Bytes
  size : payload.length < 2 ^ 63

def ServerFrame.encode (f : ServerFrame) : Bytes :=
  Frame.encode ⟨true, noExtension, f.opcode, none, f.payload, f.size⟩

section Frames

variable {b : UInt8} {n : Nat} {f : ServerFrame}

theorem and_of_lt (h : b.toNat < 128) : b &&& 127 = b ∧ b &&& 128 = 0 := by
  have hlow : b &&& 127 = b := by
    refine UInt8.toNat_inj.mp ?_
    rw [UInt8.toNat_and]
    exact (Nat.and_two_pow_sub_one_eq_mod _ 7).trans (Nat.mod_eq_of_lt h)
  refine ⟨hlow, ?_⟩
  rw [← hlow, UInt8.and_assoc]
  exact UInt8.and_zero

theorem encode_eq (f : ServerFrame) : ∃ b₀ b₁ : UInt8, b₁.toNat = length7 f.payload.length ∧
    f.encode = b₀ :: b₁ :: (extendedLength f.payload.length ++ f.payload) := by
  refine ⟨_, .ofNat (0 + length7 f.payload.length), ?_, rfl⟩
  have hlt := length7_lt f.payload.length
  rw [UInt8.toNat_ofNat', Nat.zero_add, Nat.mod_eq_of_lt (by omega)]

theorem sizes_of_small {b₁ : UInt8} (h : b₁.toNat < 128) (hne : b₁.toNat ≠ 126) (bytes : Bytes) :
    sizes b₁ bytes = some (2, b₁.toNat) := by
  have hne' : b₁ ≠ 126 := fun heq => hne (heq ▸ rfl)
  unfold sizes
  simp only [(and_of_lt h).1, if_neg hne']

theorem sizes_of_middle (hn : n < 2 ^ 16) (hpos : n ≠ 0) (bytes : Bytes) :
    sizes 126 (bigEndian 2 n ++ bytes) = some (4, n) := by
  have hvalue : (UInt8.ofNat (n / 256 ^ 1)).toNat * 256 + (UInt8.ofNat (n / 256 ^ 0)).toNat = n := by
    have hbytes := value_bigEndian (show n < 256 ^ 2 from hn)
    rw [value, bigEndian, bigEndian, bigEndian, List.foldl_cons, List.foldl_cons, List.foldl_nil,
      Nat.zero_mul, Nat.zero_add] at hbytes
    exact hbytes
  have h126 : (126 : UInt8) &&& 127 = 126 := rfl
  unfold sizes
  rw [bigEndian, bigEndian, bigEndian]
  simp only [h126, if_true, List.cons_append, hvalue, if_neg hpos]

/-- A frame whose length fits into 16 bits is read. -/
theorem readOnce_encode (hlt : f.payload.length < 2 ^ 16) (rest : Bytes) :
    readOnce (f.encode ++ rest) = some (some f.payload, rest) := by
  obtain ⟨b₀, b₁, hb₁, hencode⟩ := encode_eq f
  have hsmall : b₁.toNat < 128 := hb₁ ▸ length7_lt _
  have hslack : ¬ (b₀ &&& 0xf = 9 ∧ b₁ &&& 128 ≠ 0 ∧ b₁ &&& 127 = 1) := fun h =>
    h.2.1 (and_of_lt hsmall).2
  rw [hencode, List.cons_append, List.cons_append, List.append_assoc]
  by_cases h125 : f.payload.length ≤ 125
  · have hlength : b₁.toNat = f.payload.length := hb₁.trans (if_pos h125)
    have hsizes := sizes_of_small hsmall (by omega) (f.payload ++ rest)
    rw [extendedLength, if_pos h125, List.nil_append,
      readOnce_of_frame hsizes hslack (by rw [List.length_append]; omega), hlength]
    simp
  · have hlength : b₁ = 126 := by
      refine UInt8.toNat_inj.mp (hb₁.trans ?_)
      rw [length7, if_neg h125, if_pos hlt]
      rfl
    subst hlength
    have hsizes := sizes_of_middle hlt (by omega) (f.payload ++ rest)
    have hextended : extendedLength f.payload.length = bigEndian 2 f.payload.length := by
      rw [extendedLength, if_neg h125, if_pos hlt]
    rw [hextended, readOnce_of_frame hsizes hslack
      (by rw [List.length_append, List.length_append, length_bigEndian]; omega)]
    simp [bigEndian]

/-- Of a longer frame 127 bytes are read. -/
theorem readOnce_long (hlong : 2 ^ 16 ≤ f.payload.length) (rest : Bytes) :
    ∃ payload r, readOnce (f.encode ++ rest) = some (some payload, r) ∧ payload.length = 127 := by
  obtain ⟨b₀, b₁, hb₁, hencode⟩ := encode_eq f
  have h127 : b₁.toNat = 127 := by
    rw [hb₁, length7, if_neg (by omega), if_neg (by omega)]
  have hsmall : b₁.toNat < 128 := by omega
  have hslack : ¬ (b₀ &&& 0xf = 9 ∧ b₁ &&& 128 ≠ 0 ∧ b₁ &&& 127 = 1) := fun h =>
    h.2.1 (and_of_lt hsmall).2
  have hsizes := sizes_of_small hsmall (by omega)
    (extendedLength f.payload.length ++ f.payload ++ rest)
  rw [h127] at hsizes
  have hlength : 127 + 2 ≤ (extendedLength f.payload.length ++ f.payload ++ rest).length + 2 := by
    rw [List.length_append, List.length_append]
    omega
  have hread : readOnce (b₀ :: b₁ :: (extendedLength f.payload.length ++ f.payload ++ rest)) =
      some (some _, _) := readOnce_of_frame hsizes hslack hlength
  rw [hencode]
  refine ⟨_, _, hread, ?_⟩
  · rw [List.length_take, List.length_drop, List.length_cons, List.length_cons]
    omega

end Frames

/-- The signals for a connection and its frames. -/
def signalsOf (frames : List ServerFrame) : List Signal :=
  .onWebSocketConnected :: frames.map fun f => .onPayloadReceived f.payload

theorem outcome_frames {frames : List ServerFrame}
    (h : ∀ f ∈ frames, f.payload.length < 2 ^ 16) (rest : Bytes) :
    passes.outcome act ((frames.map ServerFrame.encode).flatten ++ rest) =
        (frames.map fun f => .onPayloadReceived f.payload) ++ passes.outcome act rest ∧
      (passes.cut ((frames.map ServerFrame.encode).flatten ++ rest)).2 = (passes.cut rest).2 := by
  induction frames with
  | nil => exact ⟨rfl, rfl⟩
  | cons f frames ih =>
    obtain ⟨houtcome, hcut⟩ := ih fun g hg => h g (List.mem_cons_of_mem f hg)
    have hread := readOnce_encode (h f List.mem_cons_self)
      ((frames.map ServerFrame.encode).flatten ++ rest)
    obtain ⟨hfirst, hcut'⟩ := outcome_of_some hread
    rw [List.map_cons, List.flatten_cons, List.append_assoc, hfirst, hcut', houtcome, hcut]
    exact ⟨rfl, rfl⟩

/-- The frames that are read are those before the first long one. -/
theorem forall_length_lt_of_outcome {frames : List ServerFrame}
    (h : passes.outcome act (frames.map ServerFrame.encode).flatten =
      frames.map fun f => .onPayloadReceived f.payload) :
    ∀ f ∈ frames, f.payload.length < 2 ^ 16 := by
  induction frames with
  | nil => exact fun f hf => absurd hf List.not_mem_nil
  | cons f frames ih =>
    rw [List.map_cons, List.flatten_cons, List.map_cons] at h
    by_cases hlt : f.payload.length < 2 ^ 16
    · have hread := readOnce_encode hlt (frames.map ServerFrame.encode).flatten
      rw [(outcome_of_some hread).1] at h
      have hrest := ih (List.cons.inj h).2
      exact List.forall_mem_cons.mpr ⟨hlt, hrest⟩
    · obtain ⟨payload, r, hread, hlength⟩ := readOnce_long (Nat.le_of_not_lt hlt)
        (frames.map ServerFrame.encode).flatten
      rw [(outcome_of_some hread).1] at h
      have hsame : payload = f.payload := Signal.onPayloadReceived.inj (List.cons.inj h).1
      rw [hsame] at hlength
      omega

theorem receive_frames {response : Bytes} (hresponse : afterBlankLine response = some [])
    {frames : List ServerFrame} {chunks : List Bytes}
    (hchunks : chunks.flatten = response ++ (frames.map ServerFrame.encode).flatten) :
    receive chunks =
      { buffer := (passes.cut (frames.map ServerFrame.encode).flatten).2, upgraded := true
        log := .onWebSocketConnected :: passes.outcome act (frames.map ServerFrame.encode).flatten } := by
  have hline := afterBlankLine_append hresponse (frames.map ServerFrame.encode).flatten
  rw [List.nil_append] at hline
  rw [receive_eq, hchunks, stateAfter, hline]

/-- The payloads are received in their order, however the stream is cut, exactly if their lengths fit
into 16 bits. -/
theorem receives_iff_lengths (response : Bytes) (hresponse : afterBlankLine response = some [])
    (frames : List ServerFrame) (chunks : List Bytes)
    (hchunks : chunks.flatten = response ++ (frames.map ServerFrame.encode).flatten) :
    ((receive chunks).log = signalsOf frames ∧ (receive chunks).buffer = []) ↔
      ∀ f ∈ frames, f.payload.length < 2 ^ 16 := by
  rw [receive_frames hresponse hchunks]
  constructor
  · rintro ⟨hlog, -⟩
    exact forall_length_lt_of_outcome (List.cons.inj hlog).2
  · intro hlt
    obtain ⟨houtcome, hcut⟩ := outcome_frames hlt []
    rw [List.append_nil] at houtcome hcut
    have hnil : readOnce [] = none := rfl
    have hnext : passes.next [] = none := rfl
    rw [outcome_of_none hnil, List.append_nil] at houtcome
    rw [Cutter.cut_of_none hnext] at hcut
    exact ⟨congrArg _ houtcome, hcut⟩

namespace Sample

/-- The end of a response. -/
def response : Bytes := [79, 75, 13, 10, 13, 10]

def hello : ServerFrame := ⟨Opcode.text, [123, 125], by decide⟩

def ping : ServerFrame := ⟨Opcode.ping, [], by decide⟩

/-- A text of 65536 letters. -/
def long : ServerFrame :=
  ⟨Opcode.text, List.replicate 65536 97, by rw [List.length_replicate]; decide⟩

end Sample

open WebSocket.Sample in
theorem receives_iff_lengths_ok :
    (receive [[79, 75, 13, 10, 13], [10, 129], [2, 123, 125, 137], [0]]).log = signalsOf [hello, ping] ∧
      (receive [[79, 75, 13, 10, 13], [10, 129], [2, 123, 125, 137], [0]]).buffer = [] := by
  refine (receives_iff_lengths response ?_ [hello, ping] _ ?_).mpr ?_
  · decide
  · decide
  · decide

open WebSocket.Sample in
/-- The 64-bit length is not read. -/
theorem not_receives_long : (receive [response, long.encode]).log ≠ signalsOf [long] := by
  intro h
  have hchunks : [response, long.encode].flatten = response ++ ([long].map ServerFrame.encode).flatten := rfl
  have hresponse : afterBlankLine response = some [] := by decide
  rw [receive_frames hresponse hchunks] at h
  have hlt := forall_length_lt_of_outcome (List.cons.inj h).2 long List.mem_cons_self
  rw [long, List.length_replicate] at hlt
  exact absurd hlt (by decide)

end Spectrum.WebSocket
