import Mathlib.Data.List.Basic

/-!
# Percent-encoding

An encoder keeps some bytes and writes a `%` and two digits for each of the others. The decoder takes
digits in both cases. What is encoded is decoded again as long as `%` itself is not kept.
-/

namespace Spectrum.Lib.Percent

def percent : UInt8 := 37

/-- The digit of a value below 16. -/
def digit (n : Nat) : UInt8 := if n < 10 then UInt8.ofNat (n + 48) else UInt8.ofNat (n + 55)

def value (c : UInt8) : Option Nat :=
  if 48 ≤ c ∧ c ≤ 57 then some (c.toNat - 48)
  else if 65 ≤ c ∧ c ≤ 70 then some (c.toNat - 55)
  else if 97 ≤ c ∧ c ≤ 102 then some (c.toNat - 87)
  else none

/-- A digit with an upper-case letter. -/
def IsDigit (c : UInt8) : Prop := 48 ≤ c ∧ c ≤ 57 ∨ 65 ≤ c ∧ c ≤ 70

section

variable (keep : UInt8 → Bool)

def escape (b : UInt8) : List UInt8 :=
  if keep b then [b] else [percent, digit (b.toNat / 16), digit (b.toNat % 16)]

def encode (bs : List UInt8) : List UInt8 := bs.flatMap (escape keep)

/-- Texts of bytes that are kept and of triples. -/
inductive Encoded : List UInt8 → Prop
  | nil : Encoded []
  | kept {b : UInt8} {text : List UInt8} (h : keep b = true) (ht : Encoded text) :
    Encoded (b :: text)
  | triple {x y : UInt8} {text : List UInt8} (hx : IsDigit x) (hy : IsDigit y)
    (ht : Encoded text) : Encoded (percent :: x :: y :: text)

end

/-- A `%` without two digits is an error. -/
def decode : List UInt8 → Option (List UInt8)
  | [] => some []
  | [b] => if b = percent then none else some [b]
  | [b, x] => if b = percent then none else (decode [x]).map (b :: ·)
  | b :: x :: y :: text =>
    if b = percent then do
      let high ← value x
      let low ← value y
      let bs ← decode text
      return UInt8.ofNat (high * 16 + low) :: bs
    else (decode (x :: y :: text)).map (b :: ·)

theorem decode_cons {b : UInt8} (h : b ≠ percent) (text : List UInt8) :
    decode (b :: text) = (decode text).map (b :: ·) := by
  match text with
  | [] => simp [decode, h]
  | [x] => simp only [decode, if_neg h]
  | x :: y :: text => rw [decode, if_neg h]

theorem value_digit : ∀ n < 16, value (digit n) = some n := by decide

theorem isDigit_digit : ∀ n < 16, IsDigit (digit n) := by
  unfold IsDigit
  decide

variable {keep : UInt8 → Bool}

theorem decode_escape (hkeep : keep percent = false) (b : UInt8) (text : List UInt8) :
    decode (escape keep b ++ text) = (decode text).map (b :: ·) := by
  unfold escape
  split
  · rename_i hb
    refine decode_cons (fun heq => ?_) text
    rw [heq, hkeep] at hb
    cases hb
  · have hbyte := b.toNat_lt
    have hhigh := value_digit (b.toNat / 16) (by omega)
    have hlow := value_digit (b.toNat % 16) (by omega)
    have hsum : b.toNat / 16 * 16 + b.toNat % 16 = b.toNat := by omega
    rw [List.cons_append, List.cons_append, List.cons_append, List.nil_append, decode, if_pos rfl,
      hhigh, hlow]
    simp only [Option.bind_eq_bind, Option.bind_some, hsum, UInt8.ofNat_toNat, Option.pure_def]
    cases decode text with
    | none => rfl
    | some bs => rfl

theorem decode_encode (hkeep : keep percent = false) (bs : List UInt8) :
    decode (encode keep bs) = some bs := by
  unfold encode
  induction bs with
  | nil => rfl
  | cons b bs ih => rw [List.flatMap_cons, decode_escape hkeep, ih, Option.map_some]

theorem encoded_encode (bs : List UInt8) : Encoded keep (encode keep bs) := by
  unfold encode
  induction bs with
  | nil => exact .nil
  | cons b bs ih =>
    rw [List.flatMap_cons]
    unfold escape
    split
    · rename_i hb
      exact .kept hb ih
    · have hbyte := b.toNat_lt
      exact .triple (isDigit_digit _ (by omega)) (isDigit_digit _ (by omega)) ih

end Spectrum.Lib.Percent
