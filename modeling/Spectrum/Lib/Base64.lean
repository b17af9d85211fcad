import Mathlib.Data.List.DropRight
import Mathlib.Data.List.Induction

/-!
# Base64

Three bytes are four values of six bits. The encoder fills up with zero bits and pads with `=`. The
decoder reads `=` as zero, so the padding leaves zero bytes behind.
-/

namespace Spectrum.Lib.Base64

/-- The character of a value of six bits. -/
def digit (n : Nat) : UInt8 :=
  if n < 26 then UInt8.ofNat (n + 65)
  else if n < 52 then UInt8.ofNat (n + 71)
  else if n < 62 then UInt8.ofNat (n - 4)
  else if n = 62 then 43
  else 47

def pad : UInt8 := 61

/-- The value of a character, if it is one of the alphabet or `=`. -/
def value (c : UInt8) : Option Nat :=
  if 65 ≤ c ∧ c ≤ 90 then some (c.toNat - 65)
  else if 97 ≤ c ∧ c ≤ 122 then some (c.toNat - 71)
  else if 48 ≤ c ∧ c ≤ 57 then some (c.toNat + 4)
  else if c = 43 then some 62
  else if c = 47 then some 63
  else if c = pad then some 0
  else none

/-- The bits of the bytes in groups of six, with zero bits at the end. -/
def sextets : List UInt8 → List Nat
  | a :: b :: c :: rest =>
    a.toNat / 4 :: (a.toNat % 4 * 16 + b.toNat / 16) :: (b.toNat % 16 * 4 + c.toNat / 64) ::
      c.toNat % 64 :: sextets rest
  | [a, b] => [a.toNat / 4, a.toNat % 4 * 16 + b.toNat / 16, b.toNat % 16 * 4]
  | [a] => [a.toNat / 4, a.toNat % 4 * 16]
  | [] => []

/-- The bits of the groups of six in bytes. Bits that are left over are dropped; a single group is
not enough for a byte. -/
def octets : List Nat → Option (List UInt8)
  | w :: x :: y :: z :: rest => do
    let bs ← octets rest
    return UInt8.ofNat (w * 4 + x / 16) :: UInt8.ofNat (x % 16 * 16 + y / 4) ::
      UInt8.ofNat (y % 4 * 64 + z) :: bs
  | [w, x, y] => some [UInt8.ofNat (w * 4 + x / 16), UInt8.ofNat (x % 16 * 16 + y / 4)]
  | [w, x] => some [UInt8.ofNat (w * 4 + x / 16)]
  | [_] => none
  | [] => some []

/-- The number of padding characters. -/
def padding (n : Nat) : Nat := (3 - n % 3) % 3

def encode (bs : List UInt8) : List UInt8 :=
  (sextets bs).map digit ++ List.replicate (padding bs.length) pad

def decode (text : List UInt8) : Option (List UInt8) := do
  let values ← text.mapM value
  octets values

/-! ## Round trip -/

theorem value_digit : ∀ n < 64, value (digit n) = some n := by decide

theorem lt_of_mem_sextets {bs : List UInt8} {n : Nat} (h : n ∈ sextets bs) : n < 64 := by
  fun_induction sextets bs with
  | case1 a b c rest ih =>
    have ha := a.toNat_lt
    have hb := b.toNat_lt
    have hc := c.toNat_lt
    simp only [List.mem_cons] at h
    rcases h with rfl | rfl | rfl | rfl | h
    · omega
    · omega
    · omega
    · omega
    · exact ih h
  | case2 a b =>
    have ha := a.toNat_lt
    have hb := b.toNat_lt
    simp only [List.mem_cons, List.not_mem_nil, or_false] at h
    rcases h with rfl | rfl | rfl <;> omega
  | case3 a =>
    have ha := a.toNat_lt
    simp only [List.mem_cons, List.not_mem_nil, or_false] at h
    rcases h with rfl | rfl <;> omega
  | case4 => cases h

theorem mapM_value_digit {l : List Nat} (h : ∀ n ∈ l, n < 64) (k : Nat) :
    (l.map digit ++ List.replicate k pad).mapM value = some (l ++ List.replicate k 0) := by
  induction l with
  | nil =>
    induction k with
    | zero => rfl
    | succ k ih =>
      simp only [List.map_nil, List.nil_append, List.replicate_succ] at ih ⊢
      rw [List.mapM_cons, ih]
      rfl
  | cons n l ih =>
    rw [List.map_cons, List.cons_append, List.mapM_cons, value_digit n (h n List.mem_cons_self),
      ih fun m hm => h m (List.mem_cons_of_mem _ hm)]
    rfl

theorem padding_add_three (n : Nat) : padding (n + 3) = padding n := by
  simp only [padding, Nat.add_mod_right]

/-- The padding comes back as zero bytes. -/
theorem octets_sextets (bs : List UInt8) :
    octets (sextets bs ++ List.replicate (padding bs.length) 0) =
      some (bs ++ List.replicate (padding bs.length) 0) := by
  fun_induction sextets bs with
  | case1 a b c rest ih =>
    have ha := a.toNat_lt
    have hb := b.toNat_lt
    have hc := c.toNat_lt
    have h1 : a.toNat / 4 * 4 + (a.toNat % 4 * 16 + b.toNat / 16) / 16 = a.toNat := by omega
    have h2 : (a.toNat % 4 * 16 + b.toNat / 16) % 16 * 16 +
        (b.toNat % 16 * 4 + c.toNat / 64) / 4 = b.toNat := by omega
    have h3 : (b.toNat % 16 * 4 + c.toNat / 64) % 4 * 64 + c.toNat % 64 = c.toNat := by omega
    simp only [List.length_cons, padding_add_three, List.cons_append, octets, ih, h1, h2, h3,
      UInt8.ofNat_toNat, Option.pure_def, Option.bind_eq_bind, Option.bind_some]
  | case2 a b =>
    have ha := a.toNat_lt
    have hb := b.toNat_lt
    have h1 : a.toNat / 4 * 4 + (a.toNat % 4 * 16 + b.toNat / 16) / 16 = a.toNat := by omega
    have h2 : (a.toNat % 4 * 16 + b.toNat / 16) % 16 * 16 + b.toNat % 16 * 4 / 4 = b.toNat := by
      omega
    have h3 : b.toNat % 16 * 4 % 4 * 64 + 0 = 0 := by omega
    change octets [a.toNat / 4, a.toNat % 4 * 16 + b.toNat / 16, b.toNat % 16 * 4, 0] =
      some [a, b, 0]
    simp only [octets, h1, h2, h3, UInt8.ofNat_toNat, Option.pure_def, Option.bind_eq_bind,
      Option.bind_some]
    rfl
  | case3 a =>
    have ha := a.toNat_lt
    have h1 : a.toNat / 4 * 4 + a.toNat % 4 * 16 / 16 = a.toNat := by omega
    have h2 : a.toNat % 4 * 16 % 16 * 16 + 0 / 4 = 0 := by omega
    change octets [a.toNat / 4, a.toNat % 4 * 16, 0, 0] = some [a, 0, 0]
    simp only [octets, h1, h2, UInt8.ofNat_toNat, Option.pure_def, Option.bind_eq_bind,
      Option.bind_some]
    rfl
  | case4 => rfl

theorem decode_encode (bs : List UInt8) :
    decode (encode bs) = some (bs ++ List.replicate (padding bs.length) 0) := by
  rw [decode, encode, mapM_value_digit fun n hn => lt_of_mem_sextets hn]
  exact octets_sextets bs

/-! ## Zero bytes at the end -/

/-- A byte string without the zero bytes at its end. -/
def trimZeros (bs : List UInt8) : List UInt8 := bs.rdropWhile fun b => b == 0

theorem trimZeros_append_replicate (bs : List UInt8) (k : Nat) :
    trimZeros (bs ++ List.replicate k 0) = trimZeros bs := by
  induction k with
  | zero => rw [List.replicate_zero, List.append_nil]
  | succ k ih =>
    rw [List.replicate_succ', ← List.append_assoc, trimZeros, List.rdropWhile_concat_pos]
    · exact ih
    · rfl

/-- Nothing is trimmed if the last byte is not zero. -/
theorem trimZeros_eq_self_iff (bs : List UInt8) : trimZeros bs = bs ↔ bs.getLast? ≠ some 0 := by
  induction bs using List.reverseRecOn with
  | nil => simp [trimZeros]
  | append_singleton bs b ih =>
    rw [List.getLast?_append_of_ne_nil _ (List.cons_ne_nil _ _), List.getLast?_singleton]
    by_cases hb : b = 0
    · subst hb
      have hlen : (trimZeros (bs ++ [0])).length ≤ bs.length := by
        rw [trimZeros, List.rdropWhile_concat_pos _ _ _ (by rfl)]
        exact (List.rdropWhile_prefix _ _).length_le
      constructor
      · intro heq
        rw [heq, List.length_append, List.length_singleton] at hlen
        omega
      · intro hne
        exact absurd rfl hne
    · rw [trimZeros, List.rdropWhile_concat_neg _ _ _ (by simpa using hb)]
      simp [hb]

theorem trimZeros_prefix (bs : List UInt8) : trimZeros bs <+: bs := List.rdropWhile_prefix _ _

end Spectrum.Lib.Base64
