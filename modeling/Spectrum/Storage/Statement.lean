import Mathlib.Data.List.Infix
import Spectrum.Lib.Machine

/-!
# Parameters of prepared statements

`MySQLBackend::Statement` keeps a buffer for each parameter for as long as it lives. A text is copied
with `strncpy`, which stops behind a NUL, while its whole size is recorded as the length. MySQL sends
as many bytes of the buffer as the recorded length says, and four bytes or one for a number. Numbers
are little-endian.
-/

namespace Spectrum.Storage.MySQL

open Lib

/-! ## Buffers -/

inductive BufferType
  | varString
  | long
  | tiny
  deriving DecidableEq, Repr

/-- The size of the buffer that is allocated. -/
def BufferType.size : BufferType → Nat
  | varString => 4096
  | long => 4
  | tiny => 4

/-- `MYSQL_BIND`, with what its pointers point to. -/
structure Param where
  bufferType : BufferType
  buffer : List UInt8
  length : Nat
  sized : buffer.length = bufferType.size

inductive Value
  | text (str : List UInt8)
  | int (t : Int)
  deriving DecidableEq, Repr

/-- The characters that `strncpy` copies from a string: those that follow a NUL are not copied. -/
def copyChars : Nat → List UInt8 → List UInt8
  | 0, _ => []
  | _ + 1, [] => []
  | n + 1, c :: str => if c = 0 then [c] else c :: copyChars n str

/-- `strncpy` fills up with NULs. -/
def strncpy (n : Nat) (str : List UInt8) : List UInt8 :=
  copyChars n str ++ List.replicate (n - (copyChars n str).length) 0

/-- The bytes of `(int) t`. -/
def intBytes (t : Int) : List UInt8 :=
  let n := (t % 4294967296).toNat
  [UInt8.ofNat n, UInt8.ofNat (n / 256), UInt8.ofNat (n / 65536), UInt8.ofNat (n / 16777216)]

def readLong : List UInt8 → Int
  | b₀ :: b₁ :: b₂ :: b₃ :: _ =>
    let n := b₀.toNat + 256 * b₁.toNat + 65536 * b₂.toNat + 16777216 * b₃.toNat
    if n < 2147483648 then n else n - 4294967296
  | _ => 0

def readTiny : List UInt8 → Int
  | b :: _ => if b.toNat < 128 then b.toNat else b.toNat - 256
  | [] => 0

/-- The part of a write at the front of a buffer that lies in it. -/
def overwrite (bytes buffer : List UInt8) : List UInt8 :=
  (bytes ++ buffer.drop bytes.length).take buffer.length

namespace Value

/-- What is written to the buffer. -/
def bytes : Value → List UInt8
  | text str => strncpy 4096 str
  | int t => intBytes t

/-- The number of bytes of the value among them. -/
def copied : Value → Nat
  | text str => (copyChars 4096 str).length
  | int t => (intBytes t).length

end Value

theorem length_overwrite (bytes buffer : List UInt8) :
    (overwrite bytes buffer).length = buffer.length := by
  simp only [overwrite, List.length_take, List.length_append, List.length_drop]
  omega

namespace Param

/-- One `operator <<` on the parameter that it is for. Only a text records a length. -/
def bind (v : Value) (p : Param) : Param where
  bufferType := p.bufferType
  buffer := overwrite v.bytes p.buffer
  length :=
    match v with
    | .text str => str.length
    | .int _ => p.length
  sized := (length_overwrite _ _).trans p.sized

/-- What MySQL sends, if it stays in the buffer. -/
def sent (p : Param) : Option Value :=
  match p.bufferType with
  | .varString =>
    if p.length ≤ p.buffer.length then some (.text (p.buffer.take p.length)) else none
  | .long => some (.int (readLong p.buffer))
  | .tiny => some (.int (readTiny p.buffer))

end Param

/-! ## Statements -/

structure Statement where
  params : List Param
  offset : Nat

namespace Statement

def bind (v : Value) (s : Statement) : Statement :=
  if s.offset ≥ s.params.length then s
  else { params := s.params.modify s.offset (Param.bind v), offset := s.offset + 1 }

def execute (s : Statement) : Statement := { s with offset := 0 }

end Statement

def bufferTypeOf (c : Char) : Option BufferType :=
  if c = 's' then some .varString
  else if c = 'i' then some .long
  else if c = 'b' then some .tiny
  else none

/-- The parameters of a format, which are in front of the `|`. -/
def bufferTypes : List Char → List BufferType
  | [] => []
  | c :: format => if c = '|' then [] else (bufferTypeOf c).toList ++ bufferTypes format

inductive Call
  | bind (v : Value)
  | execute
  deriving DecidableEq, Repr

/-- A statement, with the value that each parameter has been bound to last. -/
structure Bound where
  statement : Statement
  values : Nat → Option Value

namespace Bound

def step (b : Bound) : Call → Bound
  | .bind v =>
    { statement := b.statement.bind v
      values := if b.statement.offset ≥ b.statement.params.length then b.values
        else fun k => if k = b.statement.offset then some v else b.values k }
  | .execute => { b with statement := b.statement.execute }

/-- What has been allocated is arbitrary. A statement that MySQL does not prepare has no
parameters. -/
def Fresh (format : String) (b : Bound) : Prop :=
  (b.statement.params.map Param.bufferType = bufferTypes format.toList ∨ b.statement.params = []) ∧
    b.statement.offset = 0 ∧ ∀ k, b.values k = none

end Bound

def machine (format : String) : Machine Bound Call where
  init := Bound.Fresh format
  step b call := some (b.step call)

/-! ## Values that are kept -/

/-- The value has been written inside of the buffer, the length of a text is that of what has been
copied, and MySQL sends the value. -/
structure Param.Kept (p : Param) (v : Value) : Prop where
  inside : v.bytes.length ≤ p.buffer.length
  recorded : p.bufferType = .varString → p.length ≤ p.buffer.length ∧ p.length = v.copied
  sent : p.sent = some v

def Bound.Kept (b : Bound) : Prop :=
  ∀ k p v, b.statement.params[k]? = some p → b.values k = some v → p.Kept v

/-- A text fits into its buffer and has no NUL before its last byte. A number fits into its type. -/
def BufferType.Suits : BufferType → Value → Prop
  | varString, .text str => str.length ≤ 4096 ∧ 0 ∉ str.dropLast
  | long, .int t => -2147483648 ≤ t ∧ t < 2147483648
  | tiny, .int t => -128 ≤ t ∧ t < 128
  | _, _ => False

/-- The call binds a value that suits its parameter, if there is a parameter left. -/
def Bound.Suitable (b : Bound) : Call → Prop
  | .bind v => ∀ p, b.statement.params[b.statement.offset]? = some p → p.bufferType.Suits v
  | .execute => True

/-! ## Copies -/

section Copies

variable {n : Nat} {str : List UInt8} {t : Int}

theorem copyChars_isPrefix (n : Nat) (str : List UInt8) : copyChars n str <+: str := by
  fun_induction copyChars n str with
  | case1 => exact List.nil_prefix
  | case2 => exact List.nil_prefix
  | case3 n str => exact (List.prefix_cons_inj 0).mpr List.nil_prefix
  | case4 n c str h ih => exact (List.prefix_cons_inj c).mpr ih

theorem length_copyChars_le (n : Nat) (str : List UInt8) : (copyChars n str).length ≤ n := by
  fun_induction copyChars n str with
  | case1 => exact Nat.le_refl _
  | case2 => exact Nat.zero_le _
  | case3 n str => exact Nat.succ_le_succ (Nat.zero_le n)
  | case4 n c str h ih => exact Nat.succ_le_succ ih

/-- The whole string is copied. -/
theorem copyChars_eq_iff : copyChars n str = str ↔ str.length ≤ n ∧ 0 ∉ str.dropLast := by
  induction str generalizing n with
  | nil => cases n <;> simp [copyChars]
  | cons c str ih =>
    cases n with
    | zero => simp [copyChars]
    | succ n =>
      cases str with
      | nil => by_cases hc : c = 0 <;> cases n <;> simp [copyChars, hc]
      | cons d str =>
        by_cases hc : c = 0
        · simp [copyChars, hc]
        · rw [copyChars, if_neg hc, List.cons_inj_right, ih, List.dropLast_cons_cons,
            List.mem_cons, not_or, List.length_cons (a := c), Nat.add_le_add_iff_right]
          simp [Ne.symm hc]

theorem length_strncpy (n : Nat) (str : List UInt8) : (strncpy n str).length = n := by
  have hle := length_copyChars_le n str
  rw [strncpy, List.length_append, List.length_replicate]
  omega

theorem length_copied_iff :
    (copyChars n str).length = str.length ↔ str.length ≤ n ∧ 0 ∉ str.dropLast := by
  rw [← copyChars_eq_iff]
  constructor
  · exact (copyChars_isPrefix n str).eq_of_length
  · exact congrArg List.length

theorem take_strncpy (h : copyChars n str = str) : (strncpy n str).take str.length = str := by
  rw [strncpy, h, List.take_left]

/-- What follows a NUL is lost. -/
example : strncpy 4 [97, 0, 98] = [97, 0, 0, 0] := by decide

theorem overwrite_of_length {bytes buffer : List UInt8} (h : bytes.length = buffer.length) :
    overwrite bytes buffer = bytes := by
  rw [overwrite, h, List.drop_length, List.append_nil, ← h, List.take_length]

theorem toNat_emod (t : Int) : ((t % 4294967296).toNat : Int) = t % 4294967296 :=
  Int.toNat_of_nonneg (Int.emod_nonneg t (by decide))

theorem readLong_intBytes_iff :
    readLong (intBytes t) = t ↔ -2147483648 ≤ t ∧ t < 2147483648 := by
  have hcast := toNat_emod t
  have hdigits : ∀ n < 4294967296, n % 2 ^ 8 + 256 * (n / 256 % 2 ^ 8) +
      65536 * (n / 65536 % 2 ^ 8) + 16777216 * (n / 16777216 % 2 ^ 8) = n := by
    intro n hn
    omega
  simp only [intBytes, readLong, UInt8.toNat_ofNat']
  rw [hdigits _ (by omega)]
  split <;> omega

theorem readTiny_intBytes_iff : readTiny (intBytes t) = t ↔ -128 ≤ t ∧ t < 128 := by
  have hcast := toNat_emod t
  simp only [intBytes, readTiny, UInt8.toNat_ofNat']
  split <;> omega

end Copies

/-! ## One parameter -/

namespace Param

variable {p : Param} {v : Value} {str : List UInt8} {t : Int}

theorem bind_buffer (h : v.bytes.length = p.buffer.length) : (p.bind v).buffer = v.bytes :=
  overwrite_of_length h

@[simp]
theorem bind_bufferType (v : Value) (p : Param) : (p.bind v).bufferType = p.bufferType := rfl

theorem sent_of_varString (h : p.bufferType = .varString) : p.sent =
    if p.length ≤ p.buffer.length then some (.text (p.buffer.take p.length)) else none := by
  simp only [sent, h]

theorem sent_of_long (h : p.bufferType = .long) : p.sent = some (.int (readLong p.buffer)) := by
  simp only [sent, h]

theorem sent_of_tiny (h : p.bufferType = .tiny) : p.sent = some (.int (readTiny p.buffer)) := by
  simp only [sent, h]

/-- What is recorded of a text is right only if the text is copied as a whole. -/
theorem kept_bind_text_iff (h : p.bufferType = .varString) :
    (p.bind (.text str)).Kept (.text str) ↔ str.length ≤ 4096 ∧ 0 ∉ str.dropLast := by
  have hsize : p.buffer.length = 4096 := by
    rw [p.sized, h]
    rfl
  have hbytes : (Value.text str).bytes.length = p.buffer.length :=
    (length_strncpy 4096 str).trans hsize.symm
  have hbuffer : (p.bind (.text str)).buffer = strncpy 4096 str := bind_buffer hbytes
  have hlength : (p.bind (.text str)).buffer.length = 4096 := by
    rw [hbuffer, length_strncpy]
  rw [← length_copied_iff]
  constructor
  · intro hkept
    exact (hkept.recorded h).2.symm
  · intro hcopied
    obtain ⟨hle, hnul⟩ := length_copied_iff.mp hcopied
    have hfits : (p.bind (.text str)).length ≤ (p.bind (.text str)).buffer.length := by
      rw [hlength]
      exact hle
    have htake : (strncpy 4096 str).take (p.bind (.text str)).length = str :=
      take_strncpy (copyChars_eq_iff.mpr ⟨hle, hnul⟩)
    refine ⟨?_, fun _ => ⟨hfits, hcopied.symm⟩, ?_⟩
    · rw [hbytes, hsize, hlength]
    · rw [sent_of_varString ((bind_bufferType _ p).trans h), if_pos hfits, hbuffer, htake]

/-- A number in a buffer of four bytes, of which `read` is sent. -/
theorem kept_bind_int_iff {read : List UInt8 → Int} (hsize : p.bufferType.size = 4)
    (hsent : (p.bind (.int t)).sent = some (.int (read (p.bind (.int t)).buffer))) :
    (p.bind (.int t)).Kept (.int t) ↔ read (intBytes t) = t := by
  have hbuffer : (p.bind (.int t)).buffer = intBytes t :=
    bind_buffer (hsize.symm.trans p.sized.symm)
  rw [hbuffer] at hsent
  constructor
  · intro hkept
    rw [hkept.sent] at hsent
    exact (Value.int.inj (Option.some.inj hsent)).symm
  · intro heq
    refine ⟨by rw [hbuffer]; rfl, fun htype => ?_, by rw [hsent, heq]⟩
    rw [bind_bufferType] at htype
    rw [htype] at hsize
    cases hsize

theorem not_kept_text (hsent : p.sent = some (.int t)) : ¬ p.Kept (.text str) := by
  intro hkept
  rw [hkept.sent] at hsent
  cases hsent

/-- A binding keeps its value if and only if the value suits the parameter. -/
theorem kept_bind_iff : (p.bind v).Kept v ↔ p.bufferType.Suits v := by
  have htype := bind_bufferType v p
  cases hp : p.bufferType with
  | varString =>
    cases v with
    | text str => exact kept_bind_text_iff hp
    | int t =>
      -- a text would be sent
      refine ⟨fun hkept => ?_, fun h => by cases h⟩
      have hsent := hkept.sent
      rw [sent_of_varString (htype.trans hp)] at hsent
      split at hsent <;> cases hsent
  | long =>
    have hsent := sent_of_long (htype.trans hp)
    cases v with
    | text str => exact ⟨fun hkept => absurd hkept (not_kept_text hsent), fun h => by cases h⟩
    | int t => exact (kept_bind_int_iff (by rw [hp]; rfl) hsent).trans readLong_intBytes_iff
  | tiny =>
    have hsent := sent_of_tiny (htype.trans hp)
    cases v with
    | text str => exact ⟨fun hkept => absurd hkept (not_kept_text hsent), fun h => by cases h⟩
    | int t => exact (kept_bind_int_iff (by rw [hp]; rfl) hsent).trans readTiny_intBytes_iff

end Param

/-! ## Runs -/

namespace Statement

variable {s : Statement} {v : Value}

theorem bind_of_end (h : s.params.length ≤ s.offset) : s.bind v = s := if_pos h

theorem getElem?_bind (h : s.offset < s.params.length) (k : Nat) :
    (s.bind v).params[k]? =
      if k = s.offset then s.params[k]?.map (Param.bind v) else s.params[k]? := by
  rw [bind, if_neg (Nat.not_le.mpr h)]
  dsimp only
  rw [List.getElem?_modify]
  by_cases hk : s.offset = k
  · simp [hk]
  · simp [hk, Ne.symm hk]

end Statement

namespace Bound

variable {b : Bound} {v : Value} {call : Call} {format : String} {tr : List (Bound × Call)}

theorem step_bind_of_end (h : b.statement.params.length ≤ b.statement.offset) :
    b.step (.bind v) = b := by
  rw [step, Statement.bind_of_end h, if_pos h]

theorem values_step_bind (h : b.statement.offset < b.statement.params.length) (k : Nat) :
    (b.step (.bind v)).values k = if k = b.statement.offset then some v else b.values k := by
  rw [step, if_neg (Nat.not_le.mpr h)]

theorem kept_step (h : b.Kept) (hsuits : b.Suitable call) : (b.step call).Kept := by
  cases call with
  | execute => exact h
  | bind v =>
    by_cases hend : b.statement.params.length ≤ b.statement.offset
    · rw [step_bind_of_end hend]
      exact h
    · have hlt := Nat.not_le.mp hend
      intro k p w hp hw
      have hp : (b.statement.bind v).params[k]? = some p := hp
      rw [Statement.getElem?_bind hlt] at hp
      rw [values_step_bind hlt] at hw
      by_cases hk : k = b.statement.offset
      · rw [if_pos hk] at hp hw
        obtain ⟨q, hq, rfl⟩ := Option.map_eq_some_iff.mp hp
        obtain rfl := Option.some.inj hw
        exact Param.kept_bind_iff.mpr (hsuits q (hk ▸ hq))
      · rw [if_neg hk] at hp hw
        exact h k p w hp hw

theorem suitable_of_kept (h : (b.step call).Kept) : b.Suitable call := by
  cases call with
  | execute => trivial
  | bind v =>
    intro p hp
    have hlt : b.statement.offset < b.statement.params.length :=
      (List.getElem?_eq_some_iff.mp hp).1
    have hbound : (b.step (.bind v)).statement.params[b.statement.offset]? = some (p.bind v) := by
      refine (Statement.getElem?_bind hlt _).trans ?_
      rw [if_pos rfl, hp]
      rfl
    have hvalue : (b.step (.bind v)).values b.statement.offset = some v := by
      rw [values_step_bind hlt, if_pos rfl]
    exact Param.kept_bind_iff.mp (h _ _ _ hbound hvalue)

/-- In the runs of a statement every parameter keeps what it has been bound to if and only if
everything that is bound suits its parameter: a text has 4096 bytes at most and no NUL before its
last byte, and numbers are bound to parameters for numbers of their size. -/
theorem kept_iff_suitable (h : (machine format).Run tr b) :
    Machine.Always Bound.Kept tr b ↔ Machine.Meets Bound.Suitable tr := by
  refine h.always_iff (I := Bound.Kept) ?_ (fun _ hkept => hkept) ?_ ?_
  · rintro c ⟨-, -, hvalues⟩ k p v - hv
    rw [hvalues k] at hv
    cases hv
  · intro c call c' hstep hkept hsuits
    cases hstep
    exact kept_step hkept hsuits
  · intro c call c' hstep _ hkept
    cases hstep
    exact suitable_of_kept hkept

namespace Sample

/-- A parameter of zeros. -/
def param : Param := ⟨.varString, List.replicate 4096 0, 0, List.length_replicate⟩

def bound : Bound := ⟨⟨[param], 0⟩, fun _ => none⟩

theorem run (v : Value) :
    (machine "s").Run [(bound, .bind v)] (bound.step (.bind v)) :=
  .step (.init ⟨.inl rfl, rfl, fun _ => rfl⟩) rfl

end Sample

theorem kept_iff_suitable_short :
    Machine.Always Bound.Kept [(Sample.bound, Call.bind (.text [97]))]
      (Sample.bound.step (.bind (.text [97]))) := by
  refine (kept_iff_suitable (Sample.run (.text [97]))).mpr (Machine.meets_cons.mpr ⟨?_, by simp⟩)
  intro p hp
  cases hp
  exact ⟨by decide, by decide⟩

/-- A text of 4097 bytes. Its length is recorded, and MySQL reads beyond the buffer. -/
theorem not_kept_long : ∃ p,
    (Sample.bound.step (.bind (.text (List.replicate 4097 97)))).statement.params = [p] ∧
      p.length = 4097 ∧ p.buffer.length = 4096 ∧ p.sent = none ∧
      ¬ p.Kept (.text (List.replicate 4097 97)) := by
  have hlength : (Sample.param.bind (.text (List.replicate 4097 97))).length = 4097 :=
    List.length_replicate
  have hsize : (Sample.param.bind (.text (List.replicate 4097 97))).buffer.length = 4096 :=
    (Sample.param.bind (.text (List.replicate 4097 97))).sized
  refine ⟨_, rfl, hlength, hsize, ?_, fun hkept => ?_⟩
  · rw [Param.sent_of_varString rfl, hlength, hsize, if_neg (by decide)]
  · have hle := (Param.kept_bind_iff.mp hkept).1
    rw [List.length_replicate] at hle
    exact absurd hle (by decide)

end Bound

end Spectrum.Storage.MySQL
