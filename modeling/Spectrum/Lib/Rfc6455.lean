import Mathlib.Algebra.Group.Nat.Defs
import Mathlib.Data.List.Basic

/-!
# Frames of a WebSocket

The base framing of RFC 6455: the first byte has the FIN bit, three reserved bits and the opcode, the
second one the mask bit and seven bits of length. The values 126 and 127 of these stand for a length
of 16 or 64 bits behind them, which has to be the shortest form. The masking key follows, and the
payload, masked with it.
-/

namespace Spectrum.Lib.Rfc6455

abbrev Bytes := List UInt8

/-! ## Numbers in network order -/

def bigEndian : Nat → Nat → Bytes
  | 0, _ => []
  | k + 1, n => .ofNat (n / 256 ^ k) :: bigEndian k n

def value (bytes : Bytes) : Nat := bytes.foldl (fun n b => n * 256 + b.toNat) 0

@[simp]
theorem length_bigEndian (k n : Nat) : (bigEndian k n).length = k := by
  induction k with
  | zero => rfl
  | succ k ih => rw [bigEndian, List.length_cons, ih]

theorem foldl_bigEndian (k n m : Nat) :
    (bigEndian k n).foldl (fun n b => n * 256 + b.toNat) m = m * 256 ^ k + n % 256 ^ k := by
  induction k generalizing m with
  | zero => simp [bigEndian, Nat.mod_one]
  | succ k ih =>
    have hdigit : n % 256 ^ (k + 1) = n / 256 ^ k % 256 * 256 ^ k + n % 256 ^ k := by
      rw [pow_succ, Nat.mod_mul, Nat.mul_comm (256 ^ k), Nat.add_comm]
    rw [bigEndian, List.foldl_cons, ih, UInt8.toNat_ofNat', hdigit, Nat.add_mul, pow_succ, Nat.mul_assoc,
      Nat.mul_comm 256, Nat.add_assoc]
    rfl

theorem value_bigEndian {k n : Nat} (h : n < 256 ^ k) : value (bigEndian k n) = n := by
  rw [value, foldl_bigEndian, Nat.zero_mul, Nat.zero_add, Nat.mod_eq_of_lt h]

theorem value_lt (bytes : Bytes) : value bytes < 256 ^ bytes.length := by
  have hall : ∀ n, bytes.foldl (fun n b => n * 256 + b.toNat) n < (n + 1) * 256 ^ bytes.length := by
    induction bytes with
    | nil => simp
    | cons b bytes ih =>
      intro n
      refine Nat.lt_of_lt_of_le (ih _) ?_
      rw [List.length_cons, Nat.pow_succ', ← Nat.mul_assoc]
      refine Nat.mul_le_mul_right _ ?_
      have hb := b.toNat_lt
      show n * 256 + b.toNat + 1 ≤ (n + 1) * 256
      omega
  simpa [value] using hall 0

/-! ## Masks -/

structure Key where
  b₀ : UInt8
  b₁ : UInt8
  b₂ : UInt8
  b₃ : UInt8
  deriving DecidableEq, Repr

namespace Key

def toBytes (key : Key) : Bytes := [key.b₀, key.b₁, key.b₂, key.b₃]

def byte (key : Key) (i : Nat) : UInt8 := key.toBytes.getD (i % 4) 0

/-- The payload and the masked payload are obtained from each other in this way. -/
def apply (key : Key) (data : Bytes) : Bytes := data.mapIdx fun i b => b ^^^ key.byte i

@[simp]
theorem length_apply (key : Key) (data : Bytes) : (key.apply data).length = data.length :=
  List.length_mapIdx

theorem apply_apply (key : Key) (data : Bytes) : key.apply (key.apply data) = data := by
  unfold apply
  rw [List.mapIdx_mapIdx]
  refine List.ext_getElem (by simp) fun i hi hi' => ?_
  simp only [List.getElem_mapIdx, Function.comp_apply]
  rw [UInt8.xor_assoc, UInt8.xor_self, UInt8.xor_zero]

end Key

/-! ## Frames -/

/-- The reserved bits when no extension is in use. -/
def noExtension : Fin 8 := 0

namespace Opcode

def text : Fin 16 := 1

def ping : Fin 16 := 9

end Opcode

structure Frame where
  fin : Bool
  rsv : Fin 8
  opcode : Fin 16
  key : Option Key
  payload : Bytes
  size : payload.length < 2 ^ 63

/-- The bytes of the length behind the second byte. -/
def extendedLength (n : Nat) : Bytes :=
  if n ≤ 125 then [] else if n < 2 ^ 16 then bigEndian 2 n else bigEndian 8 n

/-- The seven bits of length in the second byte. -/
def length7 (n : Nat) : Nat := if n ≤ 125 then n else if n < 2 ^ 16 then 126 else 127

namespace Frame

/-- The header up to the masking key. -/
def head (f : Frame) : Bytes :=
  .ofNat ((if f.fin then 128 else 0) + 16 * f.rsv + f.opcode) ::
    .ofNat ((if f.key.isSome then 128 else 0) + length7 f.payload.length) ::
      extendedLength f.payload.length

def encode (f : Frame) : Bytes :=
  match f.key with
  | none => f.head ++ f.payload
  | some key => f.head ++ key.toBytes ++ key.apply f.payload

end Frame

/-- The length of the payload, from the seven bits and the bytes behind them, which has to be in the
shortest form. -/
def decodeLength (len7 : Nat) (bytes : Bytes) : Option (Nat × Bytes) :=
  if len7 ≤ 125 then some (len7, bytes)
  else
    let k := if len7 = 126 then 2 else 8
    let n := value (bytes.take k)
    if k ≤ bytes.length ∧ length7 n = len7 then some (n, bytes.drop k) else none

def decodeKey (masked : Bool) (bytes : Bytes) : Option (Option Key × Bytes) :=
  if masked then
    match bytes with
    | b₀ :: b₁ :: b₂ :: b₃ :: bytes => some (some ⟨b₀, b₁, b₂, b₃⟩, bytes)
    | _ => none
  else some (none, bytes)

/-- The frame at the start of a text, and what follows it. -/
def decode : Bytes → Option (Frame × Bytes)
  | b₀ :: b₁ :: bytes => do
    let (n, bytes) ← decodeLength (b₁.toNat % 128) bytes
    let (key, bytes) ← decodeKey (decide (128 ≤ b₁.toNat)) bytes
    let data := bytes.take n
    let payload := key.elim data fun key => key.apply data
    if h : n ≤ bytes.length ∧ payload.length < 2 ^ 63 then
      let frame : Frame := ⟨decide (128 ≤ b₀.toNat), Fin.ofNat 8 (b₀.toNat / 16),
        Fin.ofNat 16 b₀.toNat, key, payload, h.2⟩
      some (frame, bytes.drop n)
    else none
  | _ => none

theorem length7_lt (n : Nat) : length7 n < 128 := by
  unfold length7
  split
  · omega
  · split <;> omega

theorem decodeLength_extendedLength {n : Nat} (h : n < 2 ^ 63) (rest : Bytes) :
    decodeLength (length7 n) (extendedLength n ++ rest) = some (n, rest) := by
  unfold decodeLength extendedLength
  by_cases hsmall : n ≤ 125
  · have h7 : length7 n = n := if_pos hsmall
    rw [if_pos hsmall, h7, if_pos hsmall]
    rfl
  · rw [if_neg hsmall]
    by_cases hmiddle : n < 2 ^ 16
    · have h7 : length7 n = 126 := by rw [length7, if_neg hsmall, if_pos hmiddle]
      have hvalue : value ((bigEndian 2 n ++ rest).take 2) = n := by
        rw [List.take_left' (length_bigEndian 2 n)]
        exact value_bigEndian hmiddle
      rw [if_pos hmiddle, h7, if_neg (by decide)]
      simp only [if_true, hvalue, h7, and_true]
      rw [if_pos (by simp), List.drop_left' (length_bigEndian 2 n)]
    · have h7 : length7 n = 127 := by rw [length7, if_neg hsmall, if_neg hmiddle]
      have hvalue : value ((bigEndian 8 n ++ rest).take 8) = n := by
        rw [List.take_left' (length_bigEndian 8 n)]
        refine value_bigEndian (Nat.lt_trans h ?_)
        decide
      rw [if_neg hmiddle, h7, if_neg (by decide)]
      simp only [Nat.reduceEqDiff, if_false, hvalue, h7, and_true]
      rw [if_pos (by simp), List.drop_left' (length_bigEndian 8 n)]

theorem decodeKey_toBytes (key : Key) (rest : Bytes) :
    decodeKey true (key.toBytes ++ rest) = some (some key, rest) := rfl

/-- The first byte. -/
theorem first_fields (f : Frame) :
    let b : UInt8 := .ofNat ((if f.fin then 128 else 0) + 16 * f.rsv + f.opcode)
    decide (128 ≤ b.toNat) = f.fin ∧ Fin.ofNat 8 (b.toNat / 16) = f.rsv ∧
      Fin.ofNat 16 b.toNat = f.opcode := by
  intro b
  have hrsv := f.rsv.isLt
  have hopcode := f.opcode.isLt
  have hb : b.toNat = (if f.fin then 128 else 0) + 16 * f.rsv + f.opcode := by
    refine Nat.mod_eq_of_lt ?_
    split <;> omega
  rw [hb]
  refine ⟨?_, Fin.ext ?_, Fin.ext ?_⟩
  · cases f.fin
    · exact decide_eq_false (by simp; omega)
    · exact decide_eq_true (by simp; omega)
  · simp only [Fin.val_ofNat]
    split <;> omega
  · simp only [Fin.val_ofNat]
    split <;> omega

/-- The second byte. -/
theorem second_fields (masked : Bool) {n : Nat} (h : n < 128) :
    let b : UInt8 := .ofNat ((if masked then 128 else 0) + n)
    decide (128 ≤ b.toNat) = masked ∧ b.toNat % 128 = n := by
  intro b
  have hb : b.toNat = (if masked then 128 else 0) + n := by
    refine Nat.mod_eq_of_lt ?_
    split <;> omega
  rw [hb]
  cases masked
  · exact ⟨decide_eq_false (by simp; omega), by simp; omega⟩
  · exact ⟨decide_eq_true (by simp), by simp; omega⟩

theorem decode_of_fields {f : Frame} {b₀ b₁ : UInt8} {bytes bytes' data rest : Bytes}
    (hfirst : decide (128 ≤ b₀.toNat) = f.fin ∧ Fin.ofNat 8 (b₀.toNat / 16) = f.rsv ∧
      Fin.ofNat 16 b₀.toNat = f.opcode)
    (hlength : decodeLength (b₁.toNat % 128) bytes = some (f.payload.length, bytes'))
    (hkey : decodeKey (decide (128 ≤ b₁.toNat)) bytes' = some (f.key, data ++ rest))
    (hsize : data.length = f.payload.length)
    (hpayload : (f.key.elim data fun key => key.apply data) = f.payload) :
    decode (b₀ :: b₁ :: bytes) = some (f, rest) := by
  obtain ⟨fin, rsv, opcode, key, payload, hlt⟩ := f
  obtain ⟨rfl, rfl, rfl⟩ := hfirst
  simp only at hlength hkey hsize hpayload
  have htake : (data ++ rest).take payload.length = data := List.take_left' hsize
  have hdrop : (data ++ rest).drop payload.length = rest := List.drop_left' hsize
  have hle : payload.length ≤ (data ++ rest).length := by
    rw [List.length_append]
    omega
  unfold decode
  simp only [hlength, hkey, Option.bind_eq_bind, Option.bind_some, htake, hdrop, hpayload]
  rw [dif_pos ⟨hle, hlt⟩]

/-- The length of a frame is what its header says. -/
theorem length_of_decode {b₀ b₁ : UInt8} {bytes rest : Bytes} {f : Frame}
    (h : decode (b₀ :: b₁ :: bytes) = some (f, rest)) :
    ∃ bytes', decodeLength (b₁.toNat % 128) bytes = some (f.payload.length, bytes') := by
  obtain ⟨⟨n, bytes'⟩, hlength, h⟩ := Option.bind_eq_some_iff.mp h
  obtain ⟨⟨key, data⟩, -, h⟩ := Option.bind_eq_some_iff.mp h
  simp only at h
  split at h
  · rename_i hsize
    cases h
    refine ⟨bytes', hlength.trans ?_⟩
    have htake : (data.take n).length = n := by
      rw [List.length_take]
      omega
    cases key <;> simp [htake]
  · cases h

theorem length_lt_of_decode_126 {b₀ b₁ : UInt8} {bytes rest : Bytes} {f : Frame}
    (h : decode (b₀ :: b₁ :: bytes) = some (f, rest)) (hb₁ : b₁.toNat % 128 = 126) :
    f.payload.length < 2 ^ 16 := by
  obtain ⟨bytes', hlength⟩ := length_of_decode h
  rw [hb₁, decodeLength, if_neg (by decide)] at hlength
  simp only [if_true] at hlength
  split at hlength
  · rename_i hsize
    obtain ⟨hn, -⟩ := Prod.mk.inj (Option.some.inj hlength)
    have hlt := value_lt (bytes.take 2)
    rw [List.length_take, Nat.min_eq_left hsize.1, hn] at hlt
    exact hlt
  · cases hlength

theorem decode_encode (f : Frame) (rest : Bytes) : decode (f.encode ++ rest) = some (f, rest) := by
  obtain ⟨hmasked, hlen7⟩ := second_fields f.key.isSome (length7_lt f.payload.length)
  unfold Frame.encode Frame.head
  cases hkey : f.key with
  | none =>
    rw [hkey] at hmasked hlen7
    have hlength := decodeLength_extendedLength f.size (f.payload ++ rest)
    rw [← hlen7] at hlength
    simp only [List.cons_append, List.append_assoc]
    refine decode_of_fields (first_fields f) hlength ?_ rfl ?_
    · rw [hmasked, hkey]
      rfl
    · rw [hkey]
      rfl
  | some key =>
    rw [hkey] at hmasked hlen7
    have hlength := decodeLength_extendedLength f.size (key.toBytes ++ (key.apply f.payload ++ rest))
    rw [← hlen7] at hlength
    simp only [List.cons_append, List.append_assoc]
    refine decode_of_fields (first_fields f) hlength ?_ (key.length_apply f.payload) ?_
    · rw [hmasked, hkey]
      exact decodeKey_toBytes key _
    · rw [hkey]
      exact key.apply_apply _

end Spectrum.Lib.Rfc6455
