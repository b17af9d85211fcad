import Mathlib.Data.List.TakeWhile
import Mathlib.Tactic.ByContra

/-!
# JSON texts

A reader of JSON texts by RFC 8259. Every function returns what it has read and the rest of the text.
The inside of a string is a sequence of units, each of which stands for one character; `Body raw s`
says that `raw` stands for `s`.

* `readString_eq_some_iff`: what `readString` reads is a body and the quote behind it.
* `Body.guarded`: a quote in a body has a backslash in front of it.
* `eq_of_guarded`: so a text is opened by one quote only.
-/

namespace Spectrum.Lib

inductive Json
  | null
  | bool (b : Bool)
  | number (digits : List Char)
  | string (s : List Char)
  | array (items : List Json)
  | object (members : List (List Char × Json))

namespace Json

/-! ## Characters -/

def isSpace (c : Char) : Bool := c = ' ' || c = '\t' || c = '\n' || c = '\r'

def skipSpace (s : List Char) : List Char := s.dropWhile isSpace

/-- Control characters must be escaped. -/
def isControl (c : Char) : Bool := c.toNat < 0x20

def hexValue (c : Char) : Option Nat :=
  if '0' ≤ c ∧ c ≤ '9' then some (c.toNat - '0'.toNat)
  else if 'a' ≤ c ∧ c ≤ 'f' then some (c.toNat - 'a'.toNat + 10)
  else if 'A' ≤ c ∧ c ≤ 'F' then some (c.toNat - 'A'.toNat + 10)
  else none

def hex4 (a b c d : Char) : Option Nat := do
  let a ← hexValue a
  let b ← hexValue b
  let c ← hexValue c
  let d ← hexValue d
  return ((a * 16 + b) * 16 + c) * 16 + d

def escapes : List (Char × Char) :=
  [('\x22', '\x22'), ('\\', '\\'), ('/', '/'), ('b', '\x08'), ('f', '\x0c'), ('n', '\n'),
    ('r', '\r'), ('t', '\t')]

def escaped (e : Char) : Option Char := (escapes.find? fun p => p.1 = e).map Prod.snd

def isHigh (n : Nat) : Bool := 0xD800 ≤ n && n < 0xDC00

def isLow (n : Nat) : Bool := 0xDC00 ≤ n && n < 0xE000

def pairValue (hi lo : Nat) : Nat := 0x10000 + (hi - 0xD800) * 0x400 + (lo - 0xDC00)

/-! ## Strings -/

/-- The four digits behind `\u`, and for the first half of a surrogate pair the second one. -/
def readUnicode : List Char → Option (Char × List Char)
  | a :: b :: c :: d :: rest => do
    let hi ← hex4 a b c d
    if isHigh hi then
      match rest with
      | s :: u :: a :: b :: c :: d :: rest => do
        let lo ← hex4 a b c d
        if s = '\\' ∧ u = 'u' ∧ isLow lo then return (Char.ofNat (pairValue hi lo), rest) else none
      | _ => none
    else if isLow hi then none
    else return (Char.ofNat hi, rest)
  | _ => none

/-- One character of a string. -/
def readChar : List Char → Option (Char × List Char)
  | [] => none
  | c :: rest =>
    if c = '\\' then
      match rest with
      | [] => none
      | e :: rest => if e = 'u' then readUnicode rest else (escaped e).map fun c => (c, rest)
    else if isControl c then none
    else some (c, rest)

/-- A string behind its opening quote. -/
def readString : Nat → List Char → Option (List Char × List Char)
  | 0, _ => none
  | _, [] => none
  | fuel + 1, c :: rest =>
    if c = '\x22' then some ([], rest)
    else do
      let r ← readChar (c :: rest)
      let r' ← readString fuel r.2
      return (r.1 :: r'.1, r'.2)

/-! ## Numbers and names -/

def isNumberChar (c : Char) : Bool :=
  c.isDigit || c = '-' || c = '+' || c = '.' || c = 'e' || c = 'E'

def isInteger (s : List Char) : Bool := s = ['0'] || (s ≠ [] && s.head? ≠ some '0')

def isExponent : List Char → Bool
  | [] => true
  | e :: s =>
    let digits := if s.head? = some '+' ∨ s.head? = some '-' then s.tail else s
    (e = 'e' || e = 'E') && digits ≠ [] && digits.all Char.isDigit

def isFraction (s : List Char) : Bool :=
  match s with
  | [] => true
  | c :: rest =>
    if c = '.' then rest.takeWhile Char.isDigit ≠ [] && isExponent (rest.dropWhile Char.isDigit)
    else isExponent s

def isNumber (s : List Char) : Bool :=
  let s := if s.head? = some '-' then s.tail else s
  isInteger (s.takeWhile Char.isDigit) && isFraction (s.dropWhile Char.isDigit)

/-- A number or one of the three names. -/
def readScalar (s : List Char) : Option (Json × List Char) :=
  if "null".toList.isPrefixOf s then some (.null, s.drop 4)
  else if "true".toList.isPrefixOf s then some (.bool true, s.drop 4)
  else if "false".toList.isPrefixOf s then some (.bool false, s.drop 5)
  else if isNumber (s.takeWhile isNumberChar) then
    some (.number (s.takeWhile isNumberChar), s.dropWhile isNumberChar)
  else none

/-! ## Values -/

/-- The rest behind a character that must come next. -/
def expect (c : Char) (s : List Char) : Option (List Char) :=
  match skipSpace s with
  | [] => none
  | d :: rest => if d = c then some rest else none

mutual

def readValue : Nat → List Char → Option (Json × List Char)
  | 0, _ => none
  | fuel + 1, s =>
    match skipSpace s with
    | [] => none
    | c :: rest =>
      if c = '\x22' then (readString (rest.length + 1) rest).map fun r => (.string r.1, r.2)
      else if c = '{' then
        match expect '}' rest with
        | some rest => some (.object [], rest)
        | none => (readMembers fuel rest).map fun r => (.object r.1, r.2)
      else if c = '[' then
        match expect ']' rest with
        | some rest => some (.array [], rest)
        | none => (readItems fuel rest).map fun r => (.array r.1, r.2)
      else readScalar (c :: rest)

/-- The members of an object up to its brace. -/
def readMembers : Nat → List Char → Option (List (List Char × Json) × List Char)
  | 0, _ => none
  | fuel + 1, s => do
    let s ← expect '\x22' s
    let name ← readString (s.length + 1) s
    let s ← expect ':' name.2
    let value ← readValue fuel s
    match expect ',' value.2 with
    | some rest => (readMembers fuel rest).map fun r => ((name.1, value.1) :: r.1, r.2)
    | none => (expect '}' value.2).map fun rest => ([(name.1, value.1)], rest)

/-- The items of an array up to its bracket. -/
def readItems : Nat → List Char → Option (List Json × List Char)
  | 0, _ => none
  | fuel + 1, s => do
    let value ← readValue fuel s
    match expect ',' value.2 with
    | some rest => (readItems fuel rest).map fun r => (value.1 :: r.1, r.2)
    | none => (expect ']' value.2).map fun rest => ([value.1], rest)

end

/-- What comes behind the value of a member. -/
def readRest (fuel : Nat) (name : List Char) (value : Json × List Char) :
    Option (List (List Char × Json) × List Char) :=
  match expect ',' value.2 with
  | some rest => (readMembers fuel rest).map fun r => ((name, value.1) :: r.1, r.2)
  | none => (expect '}' value.2).map fun rest => ([(name, value.1)], rest)

/-- The value of a text. -/
def parse (s : List Char) : Option Json := do
  let r ← readValue (s.length + 1) s
  if skipSpace r.2 = [] then return r.1 else none

/-! ## What stands for a character -/

/-- What stands for one character in a string. -/
inductive Unit : List Char → Char → Prop
  | plain {c : Char} (hquote : c ≠ '\x22') (hslash : c ≠ '\\') (hcontrol : isControl c = false) :
      Unit [c] c
  | escaped {e c : Char} (h : Json.escaped e = some c) : Unit ['\\', e] c
  | unicode {a b c d : Char} {n : Nat} (h : hex4 a b c d = some n) (hhigh : isHigh n = false)
      (hlow : isLow n = false) : Unit ['\\', 'u', a, b, c, d] (Char.ofNat n)
  | pair {a b c d a' b' c' d' : Char} {hi lo : Nat} (h : hex4 a b c d = some hi)
      (h' : hex4 a' b' c' d' = some lo) (hhigh : isHigh hi) (hlow : isLow lo) :
      Unit ['\\', 'u', a, b, c, d, '\\', 'u', a', b', c', d'] (Char.ofNat (pairValue hi lo))

/-- The inside of a string and what it stands for. -/
inductive Body : List Char → List Char → Prop
  | nil : Body [] []
  | cons {u raw s : List Char} {c : Char} (hu : Unit u c) (h : Body raw s) : Body (u ++ raw) (c :: s)

section Strings

variable {u raw s rest : List Char} {c e : Char}

theorem escaped_u : escaped 'u' = none := by decide

theorem readChar_unit (h : Unit u c) (rest : List Char) : readChar (u ++ rest) = some (c, rest) := by
  cases h with
  | plain hquote hslash hcontrol => simp [readChar, hslash, hcontrol]
  | @escaped e c h =>
    have hu : e ≠ 'u' := by
      rintro rfl
      rw [escaped_u] at h
      cases h
    simp [readChar, hu, h]
  | unicode h hhigh hlow => simp [readChar, readUnicode, h, hhigh, hlow]
  | pair h h' hhigh hlow => simp [readChar, readUnicode, h, h', hhigh, hlow]

theorem unit_of_readUnicode (h : readUnicode s = some (c, rest)) :
    ∃ u, Unit ('\\' :: 'u' :: u) c ∧ s = u ++ rest := by
  unfold readUnicode at h
  split at h
  · rename_i a b d e tail
    obtain ⟨hi, hhi, h⟩ := Option.bind_eq_some_iff.mp h
    split at h
    · rename_i hhigh
      split at h
      · rename_i x y a' b' d' e' tail' _
        obtain ⟨lo, hlo, hpair⟩ := Option.bind_eq_some_iff.mp h
        split at hpair
        · rename_i hmarks
          obtain ⟨rfl, rfl, hlow⟩ := hmarks
          obtain ⟨rfl, rfl⟩ := Prod.mk.inj (Option.some.inj hpair)
          exact ⟨_, .pair hhi hlo hhigh hlow, rfl⟩
        · cases hpair
      · cases h
    · rename_i hhigh
      split at h
      · cases h
      · rename_i hlow
        cases h
        exact ⟨_, .unicode hhi (by simpa using hhigh) (by simpa using hlow), rfl⟩
  · cases h

/-- Every character that is read has a unit, unless a quote was taken for one. -/
theorem unit_of_readChar (h : readChar s = some (c, rest)) (hquote : s.head? ≠ some '\x22') :
    ∃ u, Unit u c ∧ s = u ++ rest := by
  unfold readChar at h
  split at h
  · cases h
  · rename_i x s
    have hx : x ≠ '\x22' := fun heq => hquote (by rw [heq]; rfl)
    split at h
    · rename_i hslash
      subst hslash
      split at h
      · cases h
      · rename_i e s
        split at h
        · rename_i hu
          subst hu
          obtain ⟨u, hunit, heq⟩ := unit_of_readUnicode h
          exact ⟨_, hunit, by rw [heq]; rfl⟩
        · obtain ⟨c', hc', hpair⟩ := Option.map_eq_some_iff.mp h
          cases hpair
          exact ⟨_, .escaped hc', rfl⟩
    · split at h
      · cases h
      · rename_i hslash hcontrol
        cases h
        exact ⟨_, .plain hx hslash (by simpa using hcontrol), rfl⟩

theorem Unit.ne_quote (h : Unit u c) : ∃ d tail, u = d :: tail ∧ d ≠ '\x22' := by
  cases h with
  | plain hquote _ _ => exact ⟨_, _, rfl, hquote⟩
  | escaped _ => exact ⟨_, _, rfl, by decide⟩
  | unicode _ _ _ => exact ⟨_, _, rfl, by decide⟩
  | pair _ _ _ _ => exact ⟨_, _, rfl, by decide⟩

theorem readString_body (h : Body raw s) (rest : List Char) {fuel : Nat}
    (hfuel : raw.length < fuel) : readString fuel (raw ++ '\x22' :: rest) = some (s, rest) := by
  induction h generalizing fuel with
  | nil =>
    obtain ⟨fuel, rfl⟩ := Nat.exists_eq_succ_of_ne_zero (by omega : fuel ≠ 0)
    simp [readString]
  | @cons u raw s c hu h ih =>
    obtain ⟨fuel, rfl⟩ := Nat.exists_eq_succ_of_ne_zero (by omega : fuel ≠ 0)
    have hread := readChar_unit hu (raw ++ '\x22' :: rest)
    obtain ⟨d, tail, rfl, hd⟩ := hu.ne_quote
    have hshort : raw.length < fuel := by
      simp only [List.length_append, List.length_cons] at hfuel
      omega
    have hraw := ih hshort
    rw [List.append_assoc, List.cons_append] at *
    rw [readString, if_neg hd, hread]
    simp only [Option.bind_eq_bind, Option.bind_some, hraw]
    rfl

/-- What `readString` reads is a body and the quote behind it. -/
theorem body_of_readString {fuel : Nat} {t : List Char} (h : readString fuel s = some (t, rest)) :
    ∃ raw, s = raw ++ '\x22' :: rest ∧ Body raw t := by
  induction fuel generalizing s t with
  | zero =>
    rw [readString] at h
    cases h
  | succ fuel ih =>
    match s, h with
    | x :: s, h =>
      rw [readString] at h
      split at h
      · rename_i hx
        cases h
        exact ⟨[], by rw [hx]; rfl, .nil⟩
      · rename_i hx
        obtain ⟨⟨c, s₁⟩, hchar, h⟩ := Option.bind_eq_some_iff.mp h
        obtain ⟨⟨t', s₂⟩, hstring, h⟩ := Option.bind_eq_some_iff.mp h
        cases h
        obtain ⟨u, hu, heq⟩ := unit_of_readChar hchar (by simpa using hx)
        obtain ⟨raw, rfl, hbody⟩ := ih hstring
        exact ⟨u ++ raw, by rw [heq, List.append_assoc], .cons hu hbody⟩

/-! ## Quotes -/

/-- Every quote has a backslash in front of it. -/
def Guarded (s : List Char) : Prop := ∀ p q, s = p ++ '\x22' :: q → p.getLast? = some '\\'

theorem guarded_of_not_mem (h : '\x22' ∉ s) : Guarded s := by
  rintro p q rfl
  exact absurd (by simp) h

theorem hexValue_quote : hexValue '\x22' = none := by decide

theorem hex4_ne_quote {a b c d : Char} {n : Nat} (h : hex4 a b c d = some n) :
    '\x22' ∉ [a, b, c, d] := by
  intro hmem
  simp only [List.mem_cons, List.not_mem_nil, or_false] at hmem
  rcases hmem with rfl | rfl | rfl | rfl <;> simp [hex4, hexValue_quote] at h

theorem Unit.guarded (h : Unit u c) : Guarded u := by
  cases h with
  | plain hquote _ _ => exact guarded_of_not_mem (by simpa using Ne.symm hquote)
  | @escaped e c _ =>
    intro p q heq
    cases p with
    | nil => cases heq
    | cons d p =>
      obtain ⟨rfl, htail⟩ := List.cons.inj heq
      have hp : p = [] := by
        cases p with
        | nil => rfl
        | cons _ p => cases p <;> cases htail
      rw [hp]
      rfl
  | unicode h _ _ =>
    have hdigits := hex4_ne_quote h
    exact guarded_of_not_mem (by simpa using hdigits)
  | pair h h' _ _ =>
    have hdigits := hex4_ne_quote h
    have hdigits' := hex4_ne_quote h'
    refine guarded_of_not_mem ?_
    simp only [List.mem_cons, List.not_mem_nil, or_false, not_or] at hdigits hdigits' ⊢
    simp [hdigits, hdigits']

theorem Guarded.append {v : List Char} (h : Guarded u) (h' : Guarded v) : Guarded (u ++ v) := by
  intro p q heq
  rcases List.append_eq_append_iff.mp heq with ⟨p', rfl, hv⟩ | ⟨u', rfl, hquote⟩
  · rw [List.getLast?_append, h' p' q hv]
    rfl
  · cases u' with
    | nil =>
      have hempty := h' [] q (by simpa using hquote.symm)
      cases hempty
    | cons d u' =>
      obtain ⟨rfl, -⟩ := List.cons.inj hquote
      exact h p u' rfl

theorem Body.guarded (h : Body raw s) : Guarded raw := by
  induction h with
  | nil => exact guarded_of_not_mem List.not_mem_nil
  | cons hu _ ih => exact hu.guarded.append ih

/-- A text that is opened by a quote without a backslash is opened there only. -/
theorem eq_of_guarded {p p' s s' : List Char} (hs : Guarded s) (hs' : Guarded s')
    (hp : p.getLast? ≠ some '\\') (hp' : p'.getLast? ≠ some '\\')
    (h : p ++ '\x22' :: s = p' ++ '\x22' :: s') : p = p' ∧ s = s' := by
  rcases List.append_eq_append_iff.mp h with ⟨k, rfl, hk⟩ | ⟨k, rfl, hk⟩
  · cases k with
    | nil => exact ⟨(List.append_nil p).symm, (List.cons.inj hk).2⟩
    | cons d k =>
      obtain ⟨rfl, htail⟩ := List.cons.inj hk
      have hlast := hs k s' htail
      exact absurd (by rw [List.getLast?_append, List.getLast?_cons, hlast]; rfl) hp'
  · cases k with
    | nil => exact ⟨List.append_nil p', (List.cons.inj hk).2.symm⟩
    | cons d k =>
      obtain ⟨rfl, htail⟩ := List.cons.inj hk
      have hlast := hs' k s htail
      exact absurd (by rw [List.getLast?_append, List.getLast?_cons, hlast]; rfl) hp

/-- Behind the last quote. -/
theorem eq_of_last {p p' s s' : List Char} (hs : '\x22' ∉ s) (hs' : '\x22' ∉ s')
    (h : p ++ '\x22' :: s = p' ++ '\x22' :: s') : p = p' ∧ s = s' := by
  rcases List.append_eq_append_iff.mp h with ⟨k, rfl, hk⟩ | ⟨k, rfl, hk⟩
  · cases k with
    | nil => exact ⟨(List.append_nil p).symm, (List.cons.inj hk).2⟩
    | cons d k => exact absurd (by rw [(List.cons.inj hk).2]; simp) hs
  · cases k with
    | nil => exact ⟨List.append_nil p', (List.cons.inj hk).2.symm⟩
    | cons d k => exact absurd (by rw [(List.cons.inj hk).2]; simp) hs'

/-- A quote is written with two characters at least. -/
theorem Unit.length_le (h : Unit u c) : (if c = '\x22' then 2 else 1) ≤ u.length := by
  cases h with
  | plain hquote _ _ => simp [hquote]
  | escaped _ => simp only [List.length_cons, List.length_nil]; split <;> omega
  | unicode _ _ _ => simp only [List.length_cons, List.length_nil]; split <;> omega
  | pair _ _ _ _ => simp only [List.length_cons, List.length_nil]; split <;> omega

theorem Body.length_le (h : Body raw s) : s.length + s.count '\x22' ≤ raw.length := by
  induction h with
  | nil => simp
  | cons hu h ih =>
    have hle := hu.length_le
    rw [List.length_append, List.length_cons, List.count_cons]
    split at hle <;> simp_all <;> omega

theorem body_plain (h : ∀ c ∈ s, c ≠ '\x22' ∧ c ≠ '\\' ∧ isControl c = false) : Body s s := by
  induction s with
  | nil => exact .nil
  | cons c s ih =>
    obtain ⟨⟨hquote, hslash, hcontrol⟩, hs⟩ := List.forall_mem_cons.mp h
    exact .cons (.plain hquote hslash hcontrol) (ih hs)

end Strings

/-! ## Spaces -/

section Values

variable {s sv raw rest r w name t : List Char} {c d : Char} {fuel : Nat} {value : Json}
  {members : List (List Char × Json)}

theorem skipSpace_cons (h : isSpace c = false) : skipSpace (c :: s) = c :: s := by
  simp [skipSpace, h]

theorem skipSpace_space (s : List Char) : skipSpace (' ' :: s) = skipSpace s := rfl

theorem expect_cons (h : isSpace c = false) : expect c (c :: s) = some s := by
  simp [expect, skipSpace_cons h]

theorem expect_ne (h : isSpace d = false) (hne : d ≠ c) : expect c (d :: s) = none := by
  simp [expect, skipSpace_cons h, hne]

theorem expect_space (c : Char) (s : List Char) : expect c (' ' :: s) = expect c s := rfl

theorem skipSpace_spec (s : List Char) : ∃ w, s = w ++ skipSpace s ∧ ∀ a ∈ w, isSpace a :=
  ⟨s.takeWhile isSpace, List.takeWhile_append_dropWhile.symm, fun _ ha => List.mem_takeWhile_imp ha⟩

theorem spaces_of_skipSpace (h : skipSpace s = []) : ∀ a ∈ s, isSpace a := by
  obtain ⟨w, heq, hw⟩ := skipSpace_spec s
  rw [h, List.append_nil] at heq
  rw [heq]
  exact hw

theorem expect_eq_some (h : expect c s = some rest) :
    ∃ w, s = w ++ c :: rest ∧ ∀ a ∈ w, isSpace a := by
  obtain ⟨w, heq, hw⟩ := skipSpace_spec s
  unfold expect at h
  split at h
  · cases h
  · rename_i d tail htail
    split at h
    · rename_i hd
      obtain rfl := Option.some.inj h
      exact ⟨w, by rw [← hd, ← htail]; exact heq, hw⟩
    · cases h

theorem ne_of_spaces (h : ∀ a ∈ w, isSpace a) (hc : isSpace c = false) : c ∉ w := by
  intro hmem
  rw [h c hmem] at hc
  cases hc

/-- A text that ends in a character and spaces. -/
theorem getLast?_ne_of_spaces (h : ∀ a ∈ w, isSpace a) (hd : d ≠ '\\') (s : List Char) :
    (s ++ d :: w).getLast? ≠ some '\\' := by
  rw [List.getLast?_append, List.getLast?_cons]
  intro hlast
  cases hw : w.getLast? with
  | none =>
    rw [hw] at hlast
    exact hd (Option.some.inj hlast)
  | some a =>
    rw [hw] at hlast
    have ha : a = '\\' := Option.some.inj hlast
    have hmem : '\\' ∈ w := List.mem_of_getLast? (ha ▸ hw)
    exact ne_of_spaces h (by decide) hmem

/-! ## Strings and members -/

theorem readScalar_ne_string (h : readScalar s = some (value, rest)) (t : List Char) :
    value ≠ .string t := by
  rintro rfl
  unfold readScalar at h
  repeat' split at h
  all_goals cases h

/-- A value that is a string has its quotes and a body. -/
theorem string_of_readValue (h : readValue fuel s = some (.string t, rest)) :
    ∃ w raw, s = w ++ '\x22' :: (raw ++ '\x22' :: rest) ∧ (∀ a ∈ w, isSpace a) ∧ Body raw t := by
  cases fuel with
  | zero =>
    rw [readValue] at h
    cases h
  | succ fuel =>
    obtain ⟨w, heq, hw⟩ := skipSpace_spec s
    rw [readValue] at h
    split at h
    · cases h
    · rename_i c tail htail
      rw [htail] at heq
      split at h
      · rename_i hc
        obtain ⟨⟨t', r⟩, hstring, hpair⟩ := Option.map_eq_some_iff.mp h
        cases hpair
        obtain ⟨raw, hraw, hbody⟩ := body_of_readString hstring
        exact ⟨w, raw, by rw [heq, hc, hraw], hw, hbody⟩
      · split at h
        · split at h
          · cases h
          · obtain ⟨r, -, hpair⟩ := Option.map_eq_some_iff.mp h
            cases hpair
        · split at h
          · split at h
            · cases h
            · obtain ⟨r, -, hpair⟩ := Option.map_eq_some_iff.mp h
              cases hpair
          · exact absurd rfl (readScalar_ne_string h t)

theorem readValue_quote (s : List Char) (fuel : Nat) : readValue (fuel + 1) ('\x22' :: s) =
    (readString (s.length + 1) s).map fun r => (.string r.1, r.2) := by
  rw [readValue, skipSpace_cons (by decide)]
  simp only [if_true]

theorem readValue_space (s : List Char) (fuel : Nat) :
    readValue (fuel + 1) (' ' :: s) = readValue (fuel + 1) s := by
  rw [readValue, readValue, skipSpace_space]

theorem readValue_object (h : expect '}' s = none) (fuel : Nat) :
    readValue (fuel + 1) ('{' :: s) = (readMembers fuel s).map fun r => (.object r.1, r.2) := by
  rw [readValue, skipSpace_cons (by decide)]
  simp only [if_neg (by decide : '{' ≠ '\x22'), if_true, h]

theorem readString_length (h : Body raw t) (rest : List Char) :
    readString ((raw ++ '\x22' :: rest).length + 1) (raw ++ '\x22' :: rest) = some (t, rest) := by
  apply readString_body h rest
  rw [List.length_append]
  omega

theorem readValue_string (h : Body raw t) (rest : List Char) (fuel : Nat) :
    readValue (fuel + 1) ('\x22' :: (raw ++ '\x22' :: rest)) = some (.string t, rest) := by
  rw [readValue_quote, readString_length h rest, Option.map_some]

theorem readMembers_eq (hquote : expect '\x22' s = some (raw ++ '\x22' :: r)) (hraw : Body raw name)
    (hcolon : expect ':' r = some sv) :
    readMembers (fuel + 1) s = (readValue fuel sv).bind (readRest fuel name) := by
  rw [readMembers]
  simp only [hquote, Option.bind_eq_bind, Option.bind_some, readString_length hraw r, hcolon]
  rfl

theorem readRest_comma (name : List Char) (value : Json) (s : List Char) (fuel : Nat) :
    readRest fuel name (value, ',' :: s) =
      (readMembers fuel s).map fun r => ((name, value) :: r.1, r.2) := by
  rw [readRest, expect_cons (by decide)]

theorem readRest_brace (name : List Char) (value : Json) (s : List Char) (fuel : Nat) :
    readRest fuel name (value, '}' :: s) = some ([(name, value)], s) := by
  rw [readRest, expect_ne (by decide) (by decide), expect_cons (by decide), Option.map_some]

/-- The members end here, or there is a comma and more of them. -/
theorem readRest_cases (h : readRest fuel name (value, r) = some (members, rest)) :
    (∃ tail rest', expect ',' r = some rest' ∧ readMembers fuel rest' = some (tail, rest) ∧
      members = (name, value) :: tail) ∨
    expect '}' r = some rest ∧ members = [(name, value)] := by
  unfold readRest at h
  split at h
  · rename_i rest' hcomma
    obtain ⟨⟨tail, r'⟩, htail, hpair⟩ := Option.map_eq_some_iff.mp h
    cases hpair
    exact .inl ⟨tail, rest', hcomma, htail, rfl⟩
  · obtain ⟨r', hbrace, hpair⟩ := Option.map_eq_some_iff.mp h
    cases hpair
    exact .inr ⟨hbrace, rfl⟩

/-- The first member. -/
theorem member_of_readMembers (h : readMembers fuel s = some (members, rest)) :
    ∃ fuel' w raw w' sv name value r, s = w ++ '\x22' :: (raw ++ '\x22' :: (w' ++ ':' :: sv)) ∧
      (∀ a ∈ w, isSpace a) ∧ (∀ a ∈ w', isSpace a) ∧ Body raw name ∧
      readValue fuel' sv = some (value, r) ∧
      readRest fuel' name (value, r) = some (members, rest) := by
  cases fuel with
  | zero =>
    rw [readMembers] at h
    cases h
  | succ fuel =>
    rw [readMembers] at h
    obtain ⟨s₁, hquote, h₁⟩ := Option.bind_eq_some_iff.mp h
    obtain ⟨⟨name, s₂⟩, hname, h₂⟩ := Option.bind_eq_some_iff.mp h₁
    obtain ⟨sv, hcolon, h₃⟩ := Option.bind_eq_some_iff.mp h₂
    obtain ⟨⟨value, r⟩, hvalue, hrest⟩ := Option.bind_eq_some_iff.mp h₃
    obtain ⟨w, rfl, hw⟩ := expect_eq_some hquote
    obtain ⟨raw, rfl, hbody⟩ := body_of_readString hname
    obtain ⟨w', heq, hw'⟩ := expect_eq_some hcolon
    exact ⟨fuel, w, raw, w', sv, name, value, r, by rw [← heq], hw, hw', hbody, hvalue, hrest⟩

theorem readMembers_ne_nil (h : readMembers fuel s = some (members, rest)) : members ≠ [] := by
  obtain ⟨fuel', w, raw, w', sv, name, value, r, -, -, -, -, -, hrest⟩ := member_of_readMembers h
  rcases readRest_cases hrest with ⟨tail, rest', -, -, rfl⟩ | ⟨-, rfl⟩
  · exact List.cons_ne_nil _ _
  · exact List.cons_ne_nil _ _

/-! ## Digits -/

theorem isNumber_digits (hne : s ≠ []) (hdigits : ∀ a ∈ s, a.isDigit)
    (hzero : s = ['0'] ∨ s.head? ≠ some '0') : isNumber s = true := by
  have hsign : s.head? ≠ some '-' := by
    intro hhead
    have hdigit := hdigits '-' (List.mem_of_mem_head? hhead)
    revert hdigit
    decide
  have htake : s.takeWhile Char.isDigit = s := List.takeWhile_eq_self_iff.mpr hdigits
  have hdrop : s.dropWhile Char.isDigit = [] := List.dropWhile_eq_nil_iff.mpr hdigits
  unfold isNumber
  simp only [if_neg hsign, htake, hdrop, isInteger]
  rcases hzero with rfl | hhead
  · rfl
  · simp [hne, hhead, isFraction]

theorem readScalar_digits (hne : s ≠ []) (hdigits : ∀ a ∈ s, a.isDigit)
    (hzero : s = ['0'] ∨ s.head? ≠ some '0') (hc : isNumberChar c = false) (rest : List Char) :
    readScalar (s ++ c :: rest) = some (.number s, c :: rest) := by
  have hchars : ∀ a ∈ s, isNumberChar a = true := by
    intro a ha
    simp [isNumberChar, hdigits a ha]
  have htake : (s ++ c :: rest).takeWhile isNumberChar = s := by
    rw [List.takeWhile_append_of_pos hchars, List.takeWhile_cons_of_neg (by simp [hc]),
      List.append_nil]
  have hdrop : (s ++ c :: rest).dropWhile isNumberChar = c :: rest := by
    rw [List.dropWhile_append_of_pos hchars, List.dropWhile_cons_of_neg (by simp [hc])]
  have hprefix : ∀ d word, d.isDigit = false → (d :: word).isPrefixOf (s ++ c :: rest) = false := by
    intro d word hd
    cases s with
    | nil => exact absurd rfl hne
    | cons a s =>
      have ha := hdigits a List.mem_cons_self
      have hda : (d == a) = false := by
        rw [beq_eq_false_iff_ne]
        rintro rfl
        rw [hd] at ha
        cases ha
      simp [List.isPrefixOf, hda]
  have hnull : "null".toList.isPrefixOf (s ++ c :: rest) = false := hprefix 'n' _ (by decide)
  have htrue : "true".toList.isPrefixOf (s ++ c :: rest) = false := hprefix 't' _ (by decide)
  have hfalse : "false".toList.isPrefixOf (s ++ c :: rest) = false := hprefix 'f' _ (by decide)
  simp only [readScalar, hnull, htrue, hfalse, htake, hdrop, isNumber_digits hne hdigits hzero,
    Bool.false_eq_true, if_false, if_true]

/-- A number of digits. -/
theorem readValue_digits (hne : s ≠ []) (hdigits : ∀ a ∈ s, a.isDigit)
    (hzero : s = ['0'] ∨ s.head? ≠ some '0') (hc : isNumberChar c = false) (rest : List Char)
    (fuel : Nat) : readValue (fuel + 1) (s ++ c :: rest) = some (.number s, c :: rest) := by
  have hscalar := readScalar_digits hne hdigits hzero hc rest
  cases s with
  | nil => exact absurd rfl hne
  | cons d s =>
    have hd := hdigits d List.mem_cons_self
    have hother : ∀ a, a.isDigit = false → d ≠ a := by
      rintro a ha rfl
      rw [ha] at hd
      cases hd
    have hspace : isSpace d = false := by
      simp [isSpace, hother ' ' (by decide), hother '\t' (by decide), hother '\n' (by decide),
        hother '\r' (by decide)]
    rw [List.cons_append] at hscalar ⊢
    rw [readValue, skipSpace_cons hspace]
    simp only [if_neg (hother '\x22' (by decide)), if_neg (hother '{' (by decide)),
      if_neg (hother '[' (by decide)), hscalar]

end Values

end Json

end Spectrum.Lib
