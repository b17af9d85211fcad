import Spectrum.Lib.Percent

/-!
# `Util::urlencode`

The parameters of the requests to Slack. A `char` has a sign, and is made an `int` by the operators,
so the bytes from 128 on are negative in every comparison. A digit below ten is outside of the second
range after the first test has changed it.
-/

namespace Spectrum.Slack

open Lib

def char2hex (dec : Int8) : List UInt8 :=
  let dig1 := ((dec.toInt32 &&& 0xF0) >>> 4).toInt8
  let dig2 := (dec.toInt32 &&& 0x0F).toInt8
  let dig1 := if 0 ≤ dig1 ∧ dig1 ≤ 9 then dig1 + 48 else dig1
  let dig1 := if 10 ≤ dig1 ∧ dig1 ≤ 15 then dig1 + (65 - 10) else dig1
  let dig2 := if 0 ≤ dig2 ∧ dig2 ≤ 9 then dig2 + 48 else dig2
  let dig2 := if 10 ≤ dig2 ∧ dig2 ≤ 15 then dig2 + (65 - 10) else dig2
  [dig1.toUInt8, dig2.toUInt8]

/-- The characters that are appended as they are: `0-9`, `A-Z`, `a-z`, `~`, `-`, `_` and `.`. -/
def isKept (c : Int8) : Bool :=
  (48 ≤ c && c ≤ 57) || (65 ≤ c && c ≤ 90) || (97 ≤ c && c ≤ 122) ||
    (c == 126 || c == 45 || c == 95 || c == 46)

/-- The body of the loop. -/
def encodeChar (b : UInt8) : List UInt8 :=
  if isKept b.toInt8 then [b] else [37] ++ char2hex b.toInt8

/-- `for (int i = …; i < max; i++)`. -/
def encodeFrom (c : List UInt8) (max : Int) (i : Nat) (escaped : List UInt8) : List UInt8 :=
  if (i : Int) < max then encodeFrom c max (i + 1) (escaped ++ encodeChar (c.getD i 0)) else escaped
termination_by (max - i).toNat

/-- The length is made an `int`. -/
def urlencode (c : List UInt8) : List UInt8 :=
  let max := Int32.ofNat c.length
  encodeFrom c max.toInt 0 []

/-! ## Bytes -/

/-- `ALPHA / DIGIT / "-" / "." / "_" / "~"`. -/
def unreserved (b : UInt8) : Bool :=
  (48 ≤ b && b ≤ 57) || (65 ≤ b && b ≤ 90) || (97 ≤ b && b ≤ 122) ||
    b ∈ [45, 46, 95, 126]

theorem forall_byte {P : UInt8 → Prop} (h : ∀ n : Fin 256, P (UInt8.ofNat n)) (b : UInt8) :
    P b := by
  have hb := h ⟨b.toNat, b.toNat_lt⟩
  rwa [UInt8.ofNat_toNat] at hb

/-- Both digits of every byte. -/
theorem char2hex_eq (b : UInt8) :
    char2hex b.toInt8 = [Percent.digit (b.toNat / 16), Percent.digit (b.toNat % 16)] := by
  revert b
  exact forall_byte (by decide +kernel)

theorem isKept_eq (b : UInt8) : isKept b.toInt8 = unreserved b := by
  revert b
  exact forall_byte (by decide +kernel)

theorem encodeChar_eq (b : UInt8) : encodeChar b = Percent.escape unreserved b := by
  rw [encodeChar, Percent.escape, isKept_eq, char2hex_eq]
  rfl

/-! ## Texts -/

/-- The loop encodes what it has not passed yet. -/
theorem encodeFrom_eq (cs : List UInt8) {i : Nat} (hi : i ≤ cs.length) (escaped : List UInt8) :
    encodeFrom cs cs.length i escaped = escaped ++ Percent.encode unreserved (cs.drop i) := by
  induction hn : cs.length - i generalizing i escaped with
  | zero =>
    have hend : i = cs.length := by omega
    rw [encodeFrom, if_neg (by omega), hend, List.drop_length]
    exact (List.append_nil escaped).symm
  | succ n ih =>
    have hlt : i < cs.length := by omega
    have hget : cs.getD i 0 = cs[i] := by
      rw [List.getD_eq_getElem?_getD, List.getElem?_eq_getElem hlt, Option.getD_some]
    rw [encodeFrom, if_pos (by omega), ih (by omega) _ (by omega), hget, encodeChar_eq,
      List.drop_eq_getElem_cons hlt, List.append_assoc]
    rfl

theorem urlencode_eq {c : List UInt8} (h : c.length < 2147483648) :
    urlencode c = Percent.encode unreserved c := by
  have hmax : (Int32.ofNat c.length).toInt = c.length := Int32.toInt_ofNat_of_lt (by omega)
  rw [urlencode, hmax, encodeFrom_eq c (Nat.zero_le _)]
  rfl

/-- What a text of less than 2^31 bytes is encoded to consists of unreserved characters and triples
with upper-case digits, and decodes to the text. -/
theorem decode_urlencode {c : List UInt8} (h : c.length < 2147483648) :
    Percent.decode (urlencode c) = some c ∧ Percent.Encoded unreserved (urlencode c) := by
  rw [urlencode_eq h]
  exact ⟨Percent.decode_encode (by decide) c, Percent.encoded_encode c⟩

/-- `"é/"` in UTF-8. -/
theorem decode_urlencode_utf8 : [195, 169, 47].length < 2147483648 ∧
    Percent.decode (urlencode [195, 169, 47]) = some [195, 169, 47] ∧
      Percent.Encoded unreserved (urlencode [195, 169, 47]) :=
  ⟨by decide, decode_urlencode (by decide)⟩

end Spectrum.Slack
