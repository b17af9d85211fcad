import Mathlib.Data.Nat.Bitwise
import Spectrum.Lib.PrefixCode

/-!
# UTF-8

The functions of `utf8/core.h` and `utf8/checked.h` with which the server cleans what backends send.
An iterator and the end of its range are the bytes between them; the byte at the end of a
`std::string` is a NUL. Code points are below 2^21, so that no shift loses a bit.

* `validateNext_ok_iff`: `validate_next` succeeds exactly on what `append` writes.
-/

namespace Spectrum.Utf8

abbrev Text := List UInt8

/-! ## core.h -/

def leadSurrogateMin : Nat := 0xd800

def trailSurrogateMin : Nat := 0xdc00

def codePointMax : Nat := 0x0010ffff

def isTrail (oc : UInt8) : Bool := oc.toNat >>> 6 == 0x2

/-- The comparison is with the first trailing surrogate, not with the last one. -/
def isSurrogate (cp : Nat) : Bool := decide (leadSurrogateMin ≤ cp ∧ cp ≤ trailSurrogateMin)

def isCodePointValid (cp : Nat) : Bool :=
  decide (cp ≤ codePointMax) && !isSurrogate cp && cp != 0xfffe && cp != 0xffff

def sequenceLength (lead : UInt8) : Nat :=
  if lead.toNat < 0x80 then 1
  else if lead.toNat >>> 5 = 0x6 then 2
  else if lead.toNat >>> 4 = 0xe then 3
  else if lead.toNat >>> 3 = 0x1e then 4
  else 0

inductive UtfError
  | ok
  | notEnoughRoom
  | invalidLead
  | incompleteSequence
  | overlongSequence
  | invalidCodePoint
  deriving DecidableEq, Repr

/-- What `validate_next` returns, what it has stored in `*code_point` and where it leaves `it`. -/
structure Validated where
  err : UtfError
  codePoint : Option Nat
  it : Text
  deriving DecidableEq, Repr

/-- Check the trail octets and calculate the code point, for a lead octet with enough octets behind
it. -/
def trailOctets (lead : UInt8) (trail : Text) : Except UtfError Nat :=
  match sequenceLength lead, trail with
  | 2, b :: _ =>
    if isTrail b then .ok (((lead.toNat <<< 6) &&& 0x7ff) + (b.toNat &&& 0x3f))
    else .error .incompleteSequence
  | 3, b :: c :: _ =>
    if isTrail b then
      if isTrail c then
        .ok (((lead.toNat <<< 12) &&& 0xffff) + ((b.toNat <<< 6) &&& 0xfff) + (c.toNat &&& 0x3f))
      else .error .incompleteSequence
    else .error .incompleteSequence
  | 4, b :: c :: d :: _ =>
    if isTrail b then
      if isTrail c then
        if isTrail d then
          .ok (((lead.toNat <<< 18) &&& 0x1fffff) + ((b.toNat <<< 12) &&& 0x3ffff) +
            ((c.toNat <<< 6) &&& 0xfff) + (d.toNat &&& 0x3f))
        else .error .incompleteSequence
      else .error .incompleteSequence
    else .error .incompleteSequence
  | _, _ => .error .invalidLead

def isOverlong (cp length : Nat) : Bool :=
  if cp < 0x80 then length != 1
  else if cp < 0x800 then length != 2
  else if cp < 0x10000 then length != 3
  else false

/-- Every error leaves the iterator where it was. -/
def validateNext : Text → Validated
  | [] => ⟨.notEnoughRoom, none, []⟩
  | lead :: trail =>
    let length := sequenceLength lead
    if length = 1 then ⟨.ok, some lead.toNat, trail⟩
    else if (lead :: trail).length < length then ⟨.notEnoughRoom, none, lead :: trail⟩
    else
      match trailOctets lead trail with
      | .error err => ⟨err, none, lead :: trail⟩
      | .ok cp =>
        if isCodePointValid cp then
          if isOverlong cp length then ⟨.overlongSequence, some cp, lead :: trail⟩
          else ⟨.ok, some cp, trail.drop (length - 1)⟩
        else ⟨.invalidCodePoint, none, lead :: trail⟩

/-! ## checked.h -/

inductive Exn
  | notEnoughRoom
  | invalidUtf8 (u8 : UInt8)
  | invalidCodePoint (cp : Nat)
  deriving DecidableEq, Repr

/-- The octets of a code point, as `append` writes them. -/
def octets (cp : Nat) : Text :=
  if cp < 0x80 then [.ofNat cp]
  else if cp < 0x800 then [.ofNat ((cp >>> 6) ||| 0xc0), .ofNat ((cp &&& 0x3f) ||| 0x80)]
  else if cp < 0x10000 then
    [.ofNat ((cp >>> 12) ||| 0xe0), .ofNat (((cp >>> 6) &&& 0x3f) ||| 0x80),
      .ofNat ((cp &&& 0x3f) ||| 0x80)]
  else
    [.ofNat ((cp >>> 18) ||| 0xf0), .ofNat (((cp >>> 12) &&& 0x3f) ||| 0x80),
      .ofNat (((cp >>> 6) &&& 0x3f) ||| 0x80), .ofNat ((cp &&& 0x3f) ||| 0x80)]

/-- What `append` puts behind the text that is there. -/
def append (cp : Nat) : Except Exn Text :=
  if isCodePointValid cp then .ok (octets cp) else .error (.invalidCodePoint cp)

/-- `next` starts with the code point 0, which `validate_next` does not change for an invalid one. -/
def next (text : Text) : Except Exn (Nat × Text) :=
  let v := validateNext text
  match v.err with
  | .ok => .ok (v.codePoint.getD 0, v.it)
  | .notEnoughRoom => .error .notEnoughRoom
  | .invalidLead | .incompleteSequence | .overlongSequence => .error (.invalidUtf8 (v.it.headD 0))
  | .invalidCodePoint => .error (.invalidCodePoint (v.codePoint.getD 0))

/-! ## Numbers and octets -/

theorem or_eq_add {i n : Nat} (a : Nat) (h : n < 2 ^ i) : n ||| 2 ^ i * a = n + 2 ^ i * a := by
  rw [Nat.or_comm, ← Nat.two_pow_add_eq_or_of_lt h, Nat.add_comm]

theorem and_3f (n : Nat) : n &&& 0x3f = n % 64 := Nat.and_two_pow_sub_one_eq_mod n 6

theorem isTrail_iff {oc : UInt8} : isTrail oc = true ↔ 128 ≤ oc.toNat ∧ oc.toNat < 192 := by
  simp only [isTrail, beq_iff_eq, Nat.shiftRight_eq_div_pow]
  omega

theorem sequenceLength_eq (lead : UInt8) : sequenceLength lead =
    if lead.toNat < 128 then 1
    else if lead.toNat < 192 then 0
    else if lead.toNat < 224 then 2
    else if lead.toNat < 240 then 3
    else if lead.toNat < 248 then 4
    else 0 := by
  have hlt := lead.toNat_lt
  simp only [sequenceLength, Nat.shiftRight_eq_div_pow]
  repeat' split
  all_goals omega

theorem isCodePointValid_iff {cp : Nat} : isCodePointValid cp = true ↔
    cp ≤ 0x10ffff ∧ ¬(0xd800 ≤ cp ∧ cp ≤ 0xdc00) ∧ cp ≠ 0xfffe ∧ cp ≠ 0xffff := by
  simp only [isCodePointValid, isSurrogate, Bool.and_eq_true, decide_eq_true_eq, Bool.not_eq_true',
    decide_eq_false_iff_not, bne_iff_ne, and_assoc]
  rfl

/-- The octets as sums. -/
theorem octets_eq {cp : Nat} (h : cp ≤ 0x10ffff) : octets cp =
    if cp < 0x80 then [.ofNat cp]
    else if cp < 0x800 then [.ofNat (cp / 64 + 192), .ofNat (cp % 64 + 128)]
    else if cp < 0x10000 then
      [.ofNat (cp / 4096 + 224), .ofNat (cp / 64 % 64 + 128), .ofNat (cp % 64 + 128)]
    else
      [.ofNat (cp / 262144 + 240), .ofNat (cp / 4096 % 64 + 128), .ofNat (cp / 64 % 64 + 128),
        .ofNat (cp % 64 + 128)] := by
  have trail : ∀ n, n % 64 ||| 0x80 = n % 64 + 128 := fun n =>
    or_eq_add (i := 7) 1 (by omega)
  simp only [octets, and_3f, Nat.shiftRight_eq_div_pow, trail]
  split
  · rfl
  · split
    · rw [show cp / 2 ^ 6 ||| 0xc0 = cp / 2 ^ 6 + 192 from or_eq_add (i := 6) 3 (by omega)]
      rfl
    · split
      · rw [show cp / 2 ^ 12 ||| 0xe0 = cp / 2 ^ 12 + 224 from or_eq_add (i := 5) 7 (by omega)]
        rfl
      · rw [show cp / 2 ^ 18 ||| 0xf0 = cp / 2 ^ 18 + 240 from or_eq_add (i := 4) 15 (by omega)]
        rfl

theorem sequenceLength_eq_two {lead : UInt8} :
    sequenceLength lead = 2 ↔ 192 ≤ lead.toNat ∧ lead.toNat < 224 := by
  rw [sequenceLength_eq]
  repeat' split
  all_goals omega

theorem sequenceLength_eq_three {lead : UInt8} :
    sequenceLength lead = 3 ↔ 224 ≤ lead.toNat ∧ lead.toNat < 240 := by
  rw [sequenceLength_eq]
  repeat' split
  all_goals omega

theorem sequenceLength_eq_four {lead : UInt8} :
    sequenceLength lead = 4 ↔ 240 ≤ lead.toNat ∧ lead.toNat < 248 := by
  rw [sequenceLength_eq]
  repeat' split
  all_goals omega

section Trail

variable {lead b c d : UInt8} {trail : Text}

theorem trailOctets_two (h : sequenceLength lead = 2) : trailOctets lead (b :: trail) =
    if isTrail b then .ok ((lead.toNat - 192) * 64 + b.toNat % 64)
    else .error .incompleteSequence := by
  have hlead := sequenceLength_eq_two.mp h
  have hvalue : (lead.toNat <<< 6) &&& 0x7ff = (lead.toNat - 192) * 64 := by
    rw [Nat.shiftLeft_eq, show (0x7ff : Nat) = 2 ^ 11 - 1 from rfl, Nat.and_two_pow_sub_one_eq_mod]
    omega
  simp only [trailOctets, h, hvalue, and_3f]

theorem trailOctets_three (h : sequenceLength lead = 3) : trailOctets lead (b :: c :: trail) =
    if isTrail b && isTrail c then
      .ok ((lead.toNat - 224) * 4096 + b.toNat % 64 * 64 + c.toNat % 64)
    else .error .incompleteSequence := by
  have hlead := sequenceLength_eq_three.mp h
  have hvalue : (lead.toNat <<< 12) &&& 0xffff = (lead.toNat - 224) * 4096 := by
    rw [Nat.shiftLeft_eq, show (0xffff : Nat) = 2 ^ 16 - 1 from rfl, Nat.and_two_pow_sub_one_eq_mod]
    omega
  have hb : (b.toNat <<< 6) &&& 0xfff = b.toNat % 64 * 64 := by
    rw [Nat.shiftLeft_eq, show (0xfff : Nat) = 2 ^ 12 - 1 from rfl, Nat.and_two_pow_sub_one_eq_mod]
    omega
  cases hb' : isTrail b <;> cases hc' : isTrail c <;>
    simp [trailOctets, h, hvalue, hb, and_3f, hb', hc']

theorem trailOctets_four (h : sequenceLength lead = 4) :
    trailOctets lead (b :: c :: d :: trail) =
      if isTrail b && (isTrail c && isTrail d) then
        .ok ((lead.toNat - 240) * 262144 + b.toNat % 64 * 4096 + c.toNat % 64 * 64 + d.toNat % 64)
      else .error .incompleteSequence := by
  have hlead := sequenceLength_eq_four.mp h
  have hvalue : (lead.toNat <<< 18) &&& 0x1fffff = (lead.toNat - 240) * 262144 := by
    rw [Nat.shiftLeft_eq, show (0x1fffff : Nat) = 2 ^ 21 - 1 from rfl,
      Nat.and_two_pow_sub_one_eq_mod]
    omega
  have hb : (b.toNat <<< 12) &&& 0x3ffff = b.toNat % 64 * 4096 := by
    rw [Nat.shiftLeft_eq, show (0x3ffff : Nat) = 2 ^ 18 - 1 from rfl,
      Nat.and_two_pow_sub_one_eq_mod]
    omega
  have hc : (c.toNat <<< 6) &&& 0xfff = c.toNat % 64 * 64 := by
    rw [Nat.shiftLeft_eq, show (0xfff : Nat) = 2 ^ 12 - 1 from rfl, Nat.and_two_pow_sub_one_eq_mod]
    omega
  cases hb' : isTrail b <;> cases hc' : isTrail c <;> cases hd' : isTrail d <;>
    simp [trailOctets, h, hvalue, hb, hc, and_3f, hb', hc', hd']

end Trail

/-! ## One sequence -/

section Sequence

variable {lead : UInt8} {trail text : Text} {cp : Nat}

theorem toNat_ofNat {n : Nat} (h : n < 256) : (UInt8.ofNat n).toNat = n := by
  rw [UInt8.toNat_ofNat']
  exact Nat.mod_eq_of_lt h

theorem ofNat_eq {n : Nat} {b : UInt8} (h : n = b.toNat) : UInt8.ofNat n = b := by
  rw [h, UInt8.ofNat_toNat]

theorem isOverlong_eq_false_iff {length : Nat} : isOverlong cp length = false ↔
    (cp < 0x80 → length = 1) ∧ (0x80 ≤ cp ∧ cp < 0x800 → length = 2) ∧
      (0x800 ≤ cp ∧ cp < 0x10000 → length = 3) := by
  unfold isOverlong
  split_ifs <;> simp <;> omega

theorem octets_two {b : UInt8} (hs : sequenceLength lead = 2) (hb : isTrail b = true)
    (hcp : cp = (lead.toNat - 192) * 64 + b.toNat % 64) (hlow : 0x80 ≤ cp) :
    octets cp = [lead, b] := by
  rw [sequenceLength_eq_two] at hs
  rw [isTrail_iff] at hb
  rw [octets_eq (by omega), if_neg (by omega), if_pos (by omega), @ofNat_eq _ lead (by omega),
    @ofNat_eq _ b (by omega)]

theorem octets_three {b c : UInt8} (hs : sequenceLength lead = 3) (hb : isTrail b = true)
    (hc : isTrail c = true)
    (hcp : cp = (lead.toNat - 224) * 4096 + b.toNat % 64 * 64 + c.toNat % 64) (hlow : 0x800 ≤ cp) :
    octets cp = [lead, b, c] := by
  rw [sequenceLength_eq_three] at hs
  rw [isTrail_iff] at hb hc
  rw [octets_eq (by omega), if_neg (by omega), if_neg (by omega), if_pos (by omega),
    @ofNat_eq _ lead (by omega), @ofNat_eq _ b (by omega), @ofNat_eq _ c (by omega)]

theorem octets_four {b c d : UInt8} (hs : sequenceLength lead = 4) (hb : isTrail b = true)
    (hc : isTrail c = true) (hd : isTrail d = true)
    (hcp : cp = (lead.toNat - 240) * 262144 + b.toNat % 64 * 4096 + c.toNat % 64 * 64 +
      d.toNat % 64) (hlow : 0x10000 ≤ cp) (hmax : cp ≤ 0x10ffff) :
    octets cp = [lead, b, c, d] := by
  rw [sequenceLength_eq_four] at hs
  rw [isTrail_iff] at hb hc hd
  rw [octets_eq hmax, if_neg (by omega), if_neg (by omega), if_neg (by omega),
    @ofNat_eq _ lead (by omega), @ofNat_eq _ b (by omega), @ofNat_eq _ c (by omega),
    @ofNat_eq _ d (by omega)]

/-- The trail octets of a sequence give a code point that is written in this way. -/
theorem octets_of_trailOctets (h : trailOctets lead trail = .ok cp)
    (hvalid : isCodePointValid cp = true) (hover : isOverlong cp (sequenceLength lead) = false) :
    lead :: trail = octets cp ++ trail.drop (sequenceLength lead - 1) := by
  have hmax := (isCodePointValid_iff.mp hvalid).1
  rw [isOverlong_eq_false_iff] at hover
  have hh := h
  unfold trailOctets at h
  split at h
  · rename_i b rest hs
    rw [trailOctets_two hs] at hh
    split at hh
    · rename_i hb
      cases hh
      rw [octets_two hs hb rfl (by omega), hs]
      rfl
    · cases hh
  · rename_i b c rest hs
    rw [trailOctets_three hs] at hh
    split at hh
    · rename_i hbc
      obtain ⟨hb, hc⟩ := Bool.and_eq_true_iff.mp hbc
      cases hh
      rw [octets_three hs hb hc rfl (by omega), hs]
      rfl
    · cases hh
  · rename_i b c d rest hs
    rw [trailOctets_four hs] at hh
    split at hh
    · rename_i hbcd
      obtain ⟨hb, hcd⟩ := Bool.and_eq_true_iff.mp hbcd
      obtain ⟨hc, hd⟩ := Bool.and_eq_true_iff.mp hcd
      cases hh
      rw [octets_four hs hb hc hd rfl (by omega) hmax, hs]
      rfl
    · cases hh
  · cases h

theorem trailOctets_error {e : UtfError} (h : trailOctets lead trail = .error e) :
    e = .incompleteSequence ∨ e = .invalidLead := by
  unfold trailOctets at h
  repeat' split at h
  all_goals cases h
  all_goals simp

/-- `validate_next` behind an octet that is not ASCII and has enough octets behind it. -/
theorem validateNext_cons (hone : sequenceLength lead ≠ 1)
    (hroom : sequenceLength lead ≤ trail.length + 1) : validateNext (lead :: trail) =
      match trailOctets lead trail with
      | .error err => ⟨err, none, lead :: trail⟩
      | .ok cp =>
        if isCodePointValid cp then
          if isOverlong cp (sequenceLength lead) then ⟨.overlongSequence, some cp, lead :: trail⟩
          else ⟨.ok, some cp, trail.drop (sequenceLength lead - 1)⟩
        else ⟨.invalidCodePoint, none, lead :: trail⟩ := by
  rw [validateNext, if_neg hone, if_neg (by rw [List.length_cons]; omega)]

theorem lead_lt_of_sequenceLength (h : sequenceLength lead = 1) : lead.toNat < 128 := by
  rw [sequenceLength_eq] at h
  by_contra hlow
  rw [if_neg hlow] at h
  repeat' split at h
  all_goals omega

/-- A sequence that `validate_next` accepts is what `append` writes for its code point. -/
theorem eq_octets_of_ok (h : (validateNext text).err = .ok) :
    ∃ cp, isCodePointValid cp = true ∧ (validateNext text).codePoint = some cp ∧
      text = octets cp ++ (validateNext text).it := by
  cases text with
  | nil => cases h
  | cons lead trail =>
    by_cases hone : sequenceLength lead = 1
    · have hlow := lead_lt_of_sequenceLength hone
      rw [validateNext, if_pos hone]
      refine ⟨lead.toNat, isCodePointValid_iff.mpr (by omega), rfl, ?_⟩
      rw [octets_eq (by omega), if_pos hlow, UInt8.ofNat_toNat]
      rfl
    · by_cases hroom : sequenceLength lead ≤ trail.length + 1
      · rw [validateNext_cons hone hroom] at h ⊢
        cases ht : trailOctets lead trail with
        | error e =>
          simp only [ht] at h
          subst h
          rcases trailOctets_error ht with h | h <;> cases h
        | ok cp =>
          simp only [ht] at h ⊢
          split at h
          · rename_i hvalid
            split at h
            · cases h
            · rename_i hover
              rw [if_pos hvalid, if_neg hover]
              exact ⟨cp, hvalid, rfl, octets_of_trailOctets ht hvalid (Bool.eq_false_iff.mpr hover)⟩
          · cases h
      · rw [validateNext, if_neg hone, if_pos (by rw [List.length_cons]; omega)] at h
        cases h

theorem isTrail_ofNat {n : Nat} (h : n < 64) : isTrail (.ofNat (n + 128)) = true := by
  rw [isTrail_iff, toNat_ofNat (by omega)]
  omega

theorem validateNext_of_trailOctets {length : Nat} (hs : sequenceLength lead = length)
    (htwo : 2 ≤ length) (hroom : length ≤ trail.length + 1) (ht : trailOctets lead trail = .ok cp)
    (hvalid : isCodePointValid cp = true) (hover : isOverlong cp length = false) :
    validateNext (lead :: trail) = ⟨.ok, some cp, trail.drop (length - 1)⟩ := by
  subst hs
  rw [validateNext_cons (by omega) hroom, ht]
  simp only
  rw [if_pos hvalid, if_neg (by rw [hover]; exact Bool.false_ne_true)]

/-- What `append` writes is accepted, in front of anything. -/
theorem validateNext_octets (h : isCodePointValid cp = true) (rest : Text) :
    validateNext (octets cp ++ rest) = ⟨.ok, some cp, rest⟩ := by
  have hmax := (isCodePointValid_iff.mp h).1
  have hd : (UInt8.ofNat (cp % 64 + 128)).toNat = cp % 64 + 128 := toNat_ofNat (by omega)
  have hc : (UInt8.ofNat (cp / 64 % 64 + 128)).toNat = cp / 64 % 64 + 128 := toNat_ofNat (by omega)
  have hb : (UInt8.ofNat (cp / 4096 % 64 + 128)).toNat = cp / 4096 % 64 + 128 :=
    toNat_ofNat (by omega)
  rw [octets_eq hmax]
  split
  · have hlead : (UInt8.ofNat cp).toNat = cp := toNat_ofNat (by omega)
    have hs : sequenceLength (.ofNat cp) = 1 := by
      rw [sequenceLength_eq, hlead, if_pos (by omega)]
    rw [List.cons_append, List.nil_append, validateNext, if_pos hs, hlead]
  · split
    · have hlead : (UInt8.ofNat (cp / 64 + 192)).toNat = cp / 64 + 192 := toNat_ofNat (by omega)
      have hs : sequenceLength (.ofNat (cp / 64 + 192)) = 2 := sequenceLength_eq_two.mpr (by omega)
      simp only [List.cons_append, List.nil_append]
      refine validateNext_of_trailOctets hs (by omega) (Nat.le_add_left _ _) ?_ h
        (isOverlong_eq_false_iff.mpr (by omega))
      rw [trailOctets_two hs, if_pos (isTrail_ofNat (by omega)), hlead, hd]
      congr 1
      omega
    · split
      · have hlead : (UInt8.ofNat (cp / 4096 + 224)).toNat = cp / 4096 + 224 :=
          toNat_ofNat (by omega)
        have hs : sequenceLength (.ofNat (cp / 4096 + 224)) = 3 :=
          sequenceLength_eq_three.mpr (by omega)
        simp only [List.cons_append, List.nil_append]
        refine validateNext_of_trailOctets hs (by omega) (Nat.le_add_left _ _) ?_ h
          (isOverlong_eq_false_iff.mpr (by omega))
        rw [trailOctets_three hs, isTrail_ofNat (by omega), isTrail_ofNat (by omega), Bool.and_self,
          if_pos rfl, hlead, hc, hd]
        congr 1
        omega
      · have hlead : (UInt8.ofNat (cp / 262144 + 240)).toNat = cp / 262144 + 240 :=
          toNat_ofNat (by omega)
        have hs : sequenceLength (.ofNat (cp / 262144 + 240)) = 4 :=
          sequenceLength_eq_four.mpr (by omega)
        simp only [List.cons_append, List.nil_append]
        refine validateNext_of_trailOctets hs (by omega) (Nat.le_add_left _ _) ?_ h
          (isOverlong_eq_false_iff.mpr (by omega))
        rw [trailOctets_four hs, isTrail_ofNat (by omega), isTrail_ofNat (by omega),
          isTrail_ofNat (by omega), Bool.and_self, Bool.and_self, if_pos rfl, hlead, hb, hc, hd]
        congr 1
        omega

/-- `validate_next` succeeds exactly on what `append` writes. -/
theorem validateNext_ok_iff {rest : Text} : validateNext text = ⟨.ok, some cp, rest⟩ ↔
    isCodePointValid cp = true ∧ text = octets cp ++ rest := by
  constructor
  · intro h
    have herr : (validateNext text).err = .ok := by rw [h]
    obtain ⟨cp', hvalid, hcp, htext⟩ := eq_octets_of_ok herr
    rw [h] at hcp htext
    cases hcp
    exact ⟨hvalid, htext⟩
  · rintro ⟨hvalid, rfl⟩
    exact validateNext_octets hvalid rest

theorem octets_ne_nil (cp : Nat) : octets cp ≠ [] := by
  unfold octets
  split_ifs <;> exact List.cons_ne_nil _ _

end Sequence

/-! ## The code -/

/-- The code points that the library takes for valid. -/
abbrev CodePoint := { cp : Nat // isCodePointValid cp = true }

def nextCodePoint (text : Text) : Option (CodePoint × Text) :=
  let v := validateNext text
  match v.err, v.codePoint with
  | .ok, some cp => if h : isCodePointValid cp = true then some (⟨cp, h⟩, v.it) else none
  | _, _ => none

theorem nextCodePoint_eq_some_iff {text rest : Text} {cp : CodePoint} :
    nextCodePoint text = some (cp, rest) ↔ text = octets cp ++ rest := by
  constructor
  · intro h
    unfold nextCodePoint at h
    simp only at h
    split at h
    · rename_i cp' herr hcp
      split at h
      · cases h
        have hv : validateNext text = ⟨.ok, some cp', (validateNext text).it⟩ := by
          rw [← herr, ← hcp]
        exact (validateNext_ok_iff.mp hv).2
      · cases h
    · cases h
  · rintro rfl
    rw [nextCodePoint, validateNext_octets cp.2]
    simp only
    rw [dif_pos cp.2]

/-- UTF-8 as the library reads and writes it. -/
def code : Lib.PrefixCode CodePoint UInt8 where
  encode cp := octets cp
  next := nextCodePoint
  encode_ne_nil cp := octets_ne_nil cp
  next_eq_some_iff := nextCodePoint_eq_some_iff

end Spectrum.Utf8
