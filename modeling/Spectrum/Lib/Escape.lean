import Mathlib.Data.List.Basic

/-!
# Escaped nodes

The escaping of nodes by XEP-0106: ten characters are written as a backslash and two hexadecimal
digits, the backslash itself only where it would start such a sequence.

* `unescape_escape`: what was escaped is decoded.
* `escape_longer`: a text with something to escape becomes longer.
* `shortened_escape_unescape`: what was decoded and is escaped again may have become shorter.
-/

namespace Spectrum.Lib.Escape

/-- The characters that are escaped, with their digits. -/
def codes : List (Char × Char × Char) :=
  [(' ', '2', '0'), ('\x22', '2', '2'), ('&', '2', '6'), ('\x27', '2', '7'), ('/', '2', 'f'),
    (':', '3', 'a'), ('<', '3', 'c'), ('>', '3', 'e'), ('@', '4', '0'), ('\\', '5', 'c')]

def codeOf (c : Char) : Option (Char × Char) := (codes.find? fun e => e.1 = c).map Prod.snd

def charOf (a b : Char) : Option Char := (codes.find? fun e => e.2 = (a, b)).map Prod.fst

/-- The text starts with the digits of a character. -/
def starts : List Char → Bool
  | a :: b :: _ => (charOf a b).isSome
  | _ => false

def escape : List Char → List Char
  | [] => []
  | c :: cs =>
    if c = '\\' then
      if starts cs then '\\' :: '5' :: 'c' :: escape cs else '\\' :: escape cs
    else
      match codeOf c with
      | some (a, b) => '\\' :: a :: b :: escape cs
      | none => c :: escape cs

def unescape : List Char → List Char
  | c :: a :: b :: cs =>
    match if c = '\\' then charOf a b else none with
    | some d => d :: unescape cs
    | none => c :: unescape (a :: b :: cs)
  | cs => cs

/-- A text is shorter where it was decoded. -/
theorem unescape_shorter (cs : List Char) : unescape cs = cs ∨ (unescape cs).length < cs.length := by
  induction cs using unescape.induct with
  | case1 c a b cs d hcode ih =>
    right
    rw [unescape, hcode]
    rcases ih with heq | hlt
    · simp [heq]
    · simp only [List.length_cons]
      omega
  | case2 c a b cs hcode ih =>
    rw [unescape, hcode]
    rcases ih with heq | hlt
    · left
      simp only [heq]
    · right
      simp only [List.length_cons] at hlt ⊢
      omega
  | case3 cs h =>
    left
    rw [unescape]
    exact h

/-! ## The table -/

theorem charOf_of_codeOf {a b c : Char} (h : codeOf c = some (a, b)) : charOf a b = some c := by
  obtain ⟨e, he, hcode⟩ := Option.map_eq_some_iff.mp h
  have hmem := List.mem_of_find?_eq_some he
  have hchar : e.1 = c := by simpa using List.find?_some he
  have htable : ∀ e ∈ codes, charOf e.2.1 e.2.2 = some e.1 := by decide
  rw [← hchar, ← htable e hmem, hcode]

theorem mem_codes_of_charOf {a b c : Char} (h : charOf a b = some c) : (c, a, b) ∈ codes := by
  obtain ⟨e, he, hchar⟩ := Option.map_eq_some_iff.mp h
  have hmem := List.mem_of_find?_eq_some he
  have hcode : e.2 = (a, b) := by simpa using List.find?_some he
  rw [← hchar, ← hcode]
  exact hmem

theorem codeOf_of_charOf {a b c : Char} (h : charOf a b = some c) : codeOf c = some (a, b) := by
  have htable : ∀ e ∈ codes, codeOf e.1 = some e.2 := by decide
  exact htable _ (mem_codes_of_charOf h)

/-- A decoded character is no digit. -/
theorem not_starts_of_charOf {a b c : Char} (h : charOf a b = some c) (d : Char) (cs : List Char) :
    starts (c :: cs) = false ∧ starts (d :: c :: cs) = false := by
  have htable : ∀ e ∈ codes, ∀ e' ∈ codes, e'.2.1 ≠ e.1 ∧ e'.2.2 ≠ e.1 := by decide
  have hmem := mem_codes_of_charOf h
  have hnone : ∀ a b, a = c ∨ b = c → charOf a b = none := by
    intro a b hab
    cases hcode : charOf a b with
    | none => rfl
    | some c' =>
      have hdigits := htable _ hmem _ (mem_codes_of_charOf hcode)
      rcases hab with rfl | rfl
      · exact absurd rfl hdigits.1
      · exact absurd rfl hdigits.2
  refine ⟨?_, by simp [starts, hnone d c (.inr rfl)]⟩
  cases cs with
  | nil => rfl
  | cons b cs => simp [starts, hnone c b (.inl rfl)]

theorem not_starts_of_backslash (a : Char) (cs : List Char) :
    starts ('\\' :: cs) = false ∧ starts (a :: '\\' :: cs) = false :=
  not_starts_of_charOf (a := '5') (b := 'c') rfl a cs

/-! ## The round trip -/

/-- What stands for one character in front of a text. -/
theorem escape_cons_cases (c : Char) (cs : List Char) :
    (∃ rest, escape (c :: cs) = '\\' :: rest) ∨ escape (c :: cs) = c :: escape cs := by
  rw [escape]
  split
  · split <;> exact .inl ⟨_, rfl⟩
  · split
    · exact .inl ⟨_, rfl⟩
    · exact .inr rfl

theorem starts_escape {cs : List Char} (h : starts (escape cs) = true) : starts cs = true := by
  cases cs with
  | nil => cases h
  | cons a cs =>
    rcases escape_cons_cases a cs with ⟨rest, heq⟩ | heq
    · rw [heq, (not_starts_of_backslash a rest).1] at h
      cases h
    · rw [heq] at h
      cases cs with
      | nil => cases h
      | cons b cs =>
        rcases escape_cons_cases b cs with ⟨rest, hrest⟩ | hrest
        · rw [hrest, (not_starts_of_backslash a rest).2] at h
          cases h
        · rw [hrest] at h
          exact h

theorem unescape_code {a b c : Char} (h : charOf a b = some c) (cs : List Char) :
    unescape ('\\' :: a :: b :: cs) = c :: unescape cs := by
  simp [unescape, h]

theorem unescape_cons {c : Char} {cs : List Char} (h : c = '\\' → starts cs = false) :
    unescape (c :: cs) = c :: unescape cs := by
  cases cs with
  | nil => rfl
  | cons a cs =>
    cases cs with
    | nil => rfl
    | cons b cs =>
      have hnone : (if c = '\\' then charOf a b else none) = none := by
        split
        · simpa [starts] using h ‹_›
        · rfl
      simp [unescape, hnone]

theorem unescape_escape (cs : List Char) : unescape (escape cs) = cs := by
  induction cs with
  | nil => rfl
  | cons c cs ih =>
    unfold escape
    split
    case isTrue hc =>
      subst hc
      split
      · rw [unescape_code (c := '\\') (by decide), ih]
      case isFalse hstarts =>
        have hplain : starts (escape cs) = false := by
          cases h : starts (escape cs) with
          | false => rfl
          | true => exact absurd (starts_escape h) hstarts
        rw [unescape_cons fun _ => hplain, ih]
    case isFalse hc =>
      split
      case h_1 a b hcode => rw [unescape_code (charOf_of_codeOf hcode), ih]
      case h_2 => rw [unescape_cons fun h => absurd h hc, ih]

/-! ## What is escaped -/

/-- A text is longer where it was escaped. -/
theorem escape_longer (cs : List Char) : escape cs = cs ∨ cs.length < (escape cs).length := by
  induction cs with
  | nil => exact .inl rfl
  | cons c cs ih =>
    have hle : cs.length ≤ (escape cs).length := by
      rcases ih with heq | hlt
      · exact Nat.le_of_eq (congrArg _ heq.symm)
      · exact Nat.le_of_lt hlt
    have hkeep : escape cs = cs ∨ cs.length < (escape cs).length →
        c :: escape cs = c :: cs ∨ (c :: cs).length < (c :: escape cs).length := by
      rintro (heq | hlt)
      · exact .inl (congrArg _ heq)
      · exact .inr (Nat.succ_lt_succ hlt)
    rw [escape]
    split
    case isTrue hc =>
      subst hc
      split
      · right
        simp only [List.length_cons]
        omega
      · exact hkeep ih
    case isFalse =>
      split
      · right
        simp only [List.length_cons]
        omega
      · exact hkeep ih

/-- A character with a code, other than the backslash, is not in an escaped text. -/
theorem not_mem_escape {d : Char} (hcode : (codeOf d).isSome) (hd : d ≠ '\\') (cs : List Char) :
    d ∉ escape cs := by
  have hdigits : ∀ c a b, codeOf c = some (a, b) → d ≠ a ∧ d ≠ b := by
    intro c a b hc
    obtain ⟨⟨a', b'⟩, hsome⟩ := Option.isSome_iff_exists.mp hcode
    have htable : ∀ e ∈ codes, ∀ e' ∈ codes, e.1 ≠ e'.2.1 ∧ e.1 ≠ e'.2.2 := by decide
    exact htable _ (mem_codes_of_charOf (charOf_of_codeOf hsome)) _
      (mem_codes_of_charOf (charOf_of_codeOf hc))
  induction cs with
  | nil => exact List.not_mem_nil
  | cons c cs ih =>
    rw [escape]
    split
    case isTrue hc =>
      have hbackslash := hdigits '\\' '5' 'c' (by decide)
      split
      · simp [hd, hbackslash, ih]
      · simp [hd, ih]
    case isFalse =>
      split
      case h_1 a b hc => simp [hd, hdigits c a b hc, ih]
      case h_2 hc =>
        have hne : d ≠ c := by
          rintro rfl
          rw [hc] at hcode
          cases hcode
        simp [hne, ih]

/-! ## The other way round -/

/-- Some sequences for the backslash in `cs` were replaced by the backslash. -/
inductive Shortened (cs : List Char) : List Char → Prop
  | refl : Shortened cs cs
  | cut {u v : List Char} (h : Shortened cs (u ++ '\\' :: '5' :: 'c' :: v)) :
      Shortened cs (u ++ '\\' :: v)

theorem Shortened.append {cs ds : List Char} (h : Shortened cs ds) (u : List Char) :
    Shortened (u ++ cs) (u ++ ds) := by
  induction h with
  | refl => exact .refl
  | @cut u' v _ ih =>
    rw [← List.append_assoc] at ih ⊢
    exact .cut ih

/-- The first character of a text was decoded or is kept. -/
theorem unescape_cons_cases (c : Char) (cs : List Char) :
    (∃ a b d rest, charOf a b = some d ∧ unescape (c :: cs) = d :: rest) ∨
      unescape (c :: cs) = c :: unescape cs := by
  match cs with
  | [] => exact .inr rfl
  | [_] => exact .inr rfl
  | a :: b :: cs =>
    rw [unescape]
    split
    · rename_i d hcode
      have hchar : charOf a b = some d := by
        split at hcode
        · exact hcode
        · cases hcode
      exact .inl ⟨a, b, d, _, hchar, rfl⟩
    · exact .inr rfl

theorem starts_unescape {cs : List Char} (h : starts (unescape cs) = true) : starts cs = true := by
  cases cs with
  | nil => cases h
  | cons c cs =>
    rcases unescape_cons_cases c cs with ⟨a, b, d, rest, hcode, heq⟩ | heq
    · rw [heq, (not_starts_of_charOf hcode d rest).1] at h
      cases h
    · rw [heq] at h
      cases cs with
      | nil => cases h
      | cons c' cs =>
        rcases unescape_cons_cases c' cs with ⟨a, b, d, rest, hcode, hrest⟩ | hrest
        · rw [hrest, (not_starts_of_charOf hcode c rest).2] at h
          cases h
        · rw [hrest] at h
          exact h

theorem shortened_escape_cons {c : Char} {cs ds : List Char}
    (h : c = '\\' → starts ds = false) (hclean : c ≠ '\\' → codeOf c = none)
    (ih : Shortened cs (escape ds)) : Shortened (c :: cs) (escape (c :: ds)) := by
  have heq : escape (c :: ds) = c :: escape ds := by
    rw [escape]
    by_cases hc : c = '\\'
    · rw [if_pos hc, h hc, hc]
      rfl
    · rw [if_neg hc, hclean hc]
  rw [heq]
  exact ih.append [c]

/-- A text without other characters to escape is decoded and escaped again: at most some backslashes
are written shorter. -/
theorem shortened_escape_unescape {cs : List Char} (h : ∀ c ∈ cs, c ≠ '\\' → codeOf c = none) :
    Shortened cs (escape (unescape cs)) := by
  induction cs using unescape.induct with
  | case1 c a b cs d hcode ih =>
    have ih := ih fun e he => h e (by simp [he])
    have hc : c = '\\' := by
      by_contra hne
      rw [if_neg hne] at hcode
      cases hcode
    subst hc
    rw [if_pos rfl] at hcode
    rw [unescape_code hcode, escape]
    by_cases hd : d = '\\'
    · subst hd
      obtain ⟨rfl, rfl⟩ : a = '5' ∧ b = 'c' := by
        have heq := codeOf_of_charOf hcode
        rw [show codeOf '\\' = some ('5', 'c') from rfl, Option.some.injEq, Prod.mk.injEq] at heq
        exact ⟨heq.1.symm, heq.2.symm⟩
      rw [if_pos rfl]
      have hkept := ih.append ['\\', '5', 'c']
      split
      · exact hkept
      · exact .cut (u := []) hkept
    · rw [if_neg hd, codeOf_of_charOf hcode]
      exact ih.append ['\\', a, b]
  | case2 c a b cs hcode ih =>
    have ih := ih fun e he => h e (List.mem_cons_of_mem c he)
    have hstarts : c = '\\' → starts (a :: b :: cs) = false := by
      intro hc
      rw [if_pos hc] at hcode
      simp [starts, hcode]
    rw [unescape_cons hstarts]
    refine shortened_escape_cons (fun hc => ?_) (h c (by simp)) ih
    cases hdecoded : starts (unescape (a :: b :: cs)) with
    | false => rfl
    | true => exact absurd (starts_unescape hdecoded) (by simp [hstarts hc])
  | case3 cs hshort =>
    have hself : unescape cs = cs := by
      rw [unescape]
      exact hshort
    rw [hself]
    match cs, h, hshort with
    | [], _, _ => exact .refl
    | [c], h, _ =>
      exact shortened_escape_cons (fun _ => rfl) (h c (by simp)) .refl
    | [c, d], h, _ =>
      have hd : Shortened [d] (escape [d]) :=
        shortened_escape_cons (fun _ => rfl) (h d (by simp)) .refl
      exact shortened_escape_cons (fun _ => rfl) (h c (by simp)) hd
    | c :: a :: b :: cs, _, hshort => exact absurd rfl (hshort c a b cs)

end Spectrum.Lib.Escape
