import Spectrum.Account.Media
import Spectrum.Lib.Passes

/-!
# The loops of `xhtml_trim`

Each loop makes passes over the list of tokens and takes off what it finds at its end of the text,
until a pass finds nothing. Taking something off at the back leaves a prefix, so that no token comes
to stand at the front again.
-/

namespace Spectrum.Account.Trim

open Lib Media

/-! ## One pass -/

section Pass

variable (found : List Char → List Char → Bool) (erase : List Char → Nat → List Char)

/-- The text and `match` after the comparison with a token. -/
def compare (p : List Char × Bool) (t : List Char) : List Char × Bool :=
  if found p.1 t then (erase p.1 t.length, true) else p

def pass (ts : List (List Char)) (s : List Char) : List Char × Bool :=
  ts.foldl (compare found erase) (s, false)

variable {found erase} {ts : List (List Char)} {s : List Char} {b : Bool}

/-- A pass that finds nothing leaves the text as it is. -/
theorem foldl_compare_of_false (h : (ts.foldl (compare found erase) (s, b)).2 = false) :
    (ts.foldl (compare found erase) (s, b)).1 = s ∧ b = false ∧ ∀ t ∈ ts, found s t = false := by
  induction ts generalizing s b with
  | nil => exact ⟨rfl, h, fun t ht => by cases ht⟩
  | cons t ts ih =>
    rw [List.foldl_cons] at h ⊢
    cases hfound : found s t with
    | true =>
      rw [compare, if_pos hfound] at h
      cases (ih h).2.1
    | false =>
      rw [compare, if_neg (by simp [hfound])] at h ⊢
      obtain ⟨hsame, hflag, hrest⟩ := ih h
      exact ⟨hsame, hflag, List.forall_mem_cons.mpr ⟨hfound, hrest⟩⟩

theorem foldl_compare_of_none (h : ∀ t ∈ ts, found s t = false) :
    ts.foldl (compare found erase) (s, b) = (s, b) := by
  induction ts with
  | nil => rfl
  | cons t ts ih =>
    obtain ⟨ht, hts⟩ := List.forall_mem_cons.mp h
    rw [List.foldl_cons, compare, if_neg (by simp [ht])]
    exact ih hts

/-- What the removal of a token keeps, a pass keeps. -/
theorem foldl_compare_invariant {I : List Char → Prop}
    (herase : ∀ s, ∀ t ∈ ts, found s t = true → I s → I (erase s t.length)) (h : I s) :
    I (ts.foldl (compare found erase) (s, b)).1 := by
  induction ts generalizing s b with
  | nil => exact h
  | cons t ts ih =>
    have hrest : ∀ s, ∀ t ∈ ts, found s t = true → I s → I (erase s t.length) :=
      fun s u hu => herase s u (List.mem_cons_of_mem t hu)
    rw [List.foldl_cons]
    unfold compare
    split
    · rename_i hfound
      exact ih hrest (herase s t List.mem_cons_self hfound h)
    · exact ih hrest h

theorem foldl_compare_length
    (herase : ∀ s, ∀ t ∈ ts, found s t = true → (erase s t.length).length < s.length) :
    (ts.foldl (compare found erase) (s, b)).1.length ≤ s.length := by
  refine foldl_compare_invariant (I := fun r => r.length ≤ s.length) ?_ (Nat.le_refl _)
  intro r t ht hfound hle
  exact Nat.le_trans (Nat.le_of_lt (herase r t ht hfound)) hle

theorem pass_shrinks
    (herase : ∀ s, ∀ t ∈ ts, found s t = true → (erase s t.length).length < s.length)
    (h : (pass found erase ts s).2 = true) : (pass found erase ts s).1.length < s.length := by
  unfold pass at h ⊢
  induction ts with
  | nil => cases h
  | cons t ts ih =>
    have hrest : ∀ s, ∀ t ∈ ts, found s t = true → (erase s t.length).length < s.length :=
      fun s u hu => herase s u (List.mem_cons_of_mem t hu)
    rw [List.foldl_cons] at h ⊢
    cases hfound : found s t with
    | true =>
      rw [compare, if_pos hfound]
      exact Nat.lt_of_le_of_lt (foldl_compare_length hrest)
        (herase s t List.mem_cons_self hfound)
    | false =>
      rw [compare, if_neg (by simp [hfound])] at h ⊢
      exact ih hrest h

end Pass

/-! ## The ends of a text -/

section Ends

variable {s t p q r : List Char}

/-- A token in some spelling. -/
def Spells (p t : List Char) : Prop := p.map Char.toUpper = t.map Char.toUpper

theorem Spells.length (h : Spells p t) : p.length = t.length := by
  have hlength := congrArg List.length h
  rwa [List.length_map, List.length_map] at hlength

theorem istartsWith_iff : istartsWith s t = true ↔ ∃ p r, s = p ++ r ∧ Spells p t := by
  unfold istartsWith
  rw [List.isPrefixOf_iff_prefix]
  constructor
  · rintro ⟨r', heq⟩
    obtain ⟨p, r, rfl, hp, -⟩ := List.map_eq_append_iff.mp heq.symm
    exact ⟨p, r, rfl, hp⟩
  · rintro ⟨p, r, rfl, hp⟩
    rw [List.map_append, hp]
    exact List.prefix_append _ _

theorem iendsWith_iff : iendsWith s t = true ↔ ∃ r q, s = r ++ q ∧ Spells q t := by
  unfold iendsWith
  rw [istartsWith_iff]
  constructor
  · rintro ⟨p, r, heq, hp⟩
    refine ⟨r.reverse, p.reverse, ?_, ?_⟩
    · rw [← List.reverse_append, ← heq, List.reverse_reverse]
    · rw [Spells, List.map_reverse, hp, List.map_reverse, List.reverse_reverse]
  · rintro ⟨r, q, rfl, hq⟩
    refine ⟨q.reverse, r.reverse, List.reverse_append, ?_⟩
    rw [Spells, List.map_reverse, hq, List.map_reverse]

theorem drop_of_spells (h : Spells p t) : (p ++ r).drop t.length = r := by
  rw [← h.length, List.drop_left]

theorem take_of_spells (h : Spells q t) : (r ++ q).take ((r ++ q).length - t.length) = r := by
  rw [List.length_append, ← h.length, Nat.add_sub_cancel, List.take_left]

theorem blanks_length (ht : t ∈ blanks) : 0 < t.length := by
  revert t
  decide

/-- `s.erase(0, n)`. -/
def eraseFront (s : List Char) (n : Nat) : List Char := s.drop n

/-- `s.erase(s.size() - n)`. -/
def eraseBack (s : List Char) (n : Nat) : List Char := s.take (s.length - n)

theorem eraseFront_shorter (ht : t ∈ blanks) (h : istartsWith s t = true) :
    (eraseFront s t.length).length < s.length := by
  obtain ⟨p, r, rfl, hp⟩ := istartsWith_iff.mp h
  have hpos := blanks_length ht
  rw [eraseFront, drop_of_spells hp, List.length_append, hp.length]
  omega

theorem eraseBack_shorter (ht : t ∈ blanks) (h : iendsWith s t = true) :
    (eraseBack s t.length).length < s.length := by
  obtain ⟨r, q, rfl, hq⟩ := iendsWith_iff.mp h
  have hpos := blanks_length ht
  rw [eraseBack, take_of_spells hq, List.length_append, hq.length]
  omega

end Ends

/-! ## Both loops -/

def front : Passes (List Char) where
  pass := pass istartsWith eraseFront blanks
  size := List.length
  shrinks := fun _ => pass_shrinks fun _ _ => eraseFront_shorter

def back : Passes (List Char) where
  pass := pass iendsWith eraseBack blanks
  size := List.length
  shrinks := fun _ => pass_shrinks fun _ _ => eraseBack_shorter

def xhtmlTrim (s : List Char) : List Char := back.loop (front.loop s)

/-- Tokens in a row. -/
def Tokens (p : List Char) : Prop :=
  ∃ ps : List (List Char), p = ps.flatten ∧ ∀ u ∈ ps, ∃ t ∈ blanks, Spells u t

section Tokens

variable {p u t : List Char}

theorem Tokens.nil : Tokens [] := ⟨[], rfl, fun u hu => by cases hu⟩

theorem Tokens.snoc (hp : Tokens p) (ht : t ∈ blanks) (hu : Spells u t) : Tokens (p ++ u) := by
  obtain ⟨ps, rfl, hps⟩ := hp
  refine ⟨ps ++ [u], by simp, ?_⟩
  intro v hv
  rcases List.mem_append.mp hv with hv | hv
  · exact hps v hv
  · exact ⟨t, ht, List.mem_singleton.mp hv ▸ hu⟩

theorem Tokens.cons (hp : Tokens p) (ht : t ∈ blanks) (hu : Spells u t) : Tokens (u ++ p) := by
  obtain ⟨ps, rfl, hps⟩ := hp
  exact ⟨u :: ps, by simp, List.forall_mem_cons.mpr ⟨⟨t, ht, hu⟩, hps⟩⟩

end Tokens

variable {s : List Char}

/-! ## What a loop leaves -/

section Loop

variable {found : List Char → List Char → Bool} {erase : List Char → Nat → List Char}
  {P : Passes (List Char)}

/-- What the removal of a token keeps, a loop keeps. -/
theorem loop_invariant (hP : P.pass = pass found erase blanks) {I : List Char → Prop}
    (herase : ∀ s, ∀ t ∈ blanks, found s t = true → I s → I (erase s t.length)) (h : I s) :
    I (P.loop s) := by
  refine Passes.invariant (fun r hr => ?_) h
  rw [hP]
  exact foldl_compare_invariant herase hr

/-- After the last pass nothing is found. -/
theorem loop_none (hP : P.pass = pass found erase blanks) (s : List Char) :
    ∀ t ∈ blanks, found (P.loop s) t = false := by
  obtain ⟨s', hlast, heq⟩ := P.exists_last s
  rw [hP] at hlast heq
  obtain ⟨hsame, -, hnone⟩ := foldl_compare_of_false hlast
  rw [heq, pass, hsame]
  exact hnone

/-- Where nothing is found, nothing changes. -/
theorem loop_of_none (hP : P.pass = pass found erase blanks)
    (h : ∀ t ∈ blanks, found s t = false) : P.loop s = s := by
  have hpass : P.pass s = (s, false) := by
    rw [hP]
    exact foldl_compare_of_none h
  rw [Passes.loop_of_false (by rw [hpass]), hpass]

end Loop

theorem front_pass : front.pass = pass istartsWith eraseFront blanks := by
  simp only [front]

theorem back_pass : back.pass = pass iendsWith eraseBack blanks := by
  simp only [back]

/-- The first loop takes tokens off the front. -/
theorem front_loop (s : List Char) : ∃ p, s = p ++ front.loop s ∧ Tokens p := by
  refine loop_invariant front_pass (I := fun r => ∃ p, s = p ++ r ∧ Tokens p) ?_
    ⟨[], rfl, Tokens.nil⟩
  rintro r' t ht hfound ⟨p, rfl, hp⟩
  obtain ⟨u, r, rfl, hu⟩ := istartsWith_iff.mp hfound
  refine ⟨p ++ u, ?_, hp.snoc ht hu⟩
  rw [eraseFront, drop_of_spells hu, List.append_assoc]

/-- The second loop takes tokens off the back. -/
theorem back_loop (s : List Char) : ∃ q, s = back.loop s ++ q ∧ Tokens q := by
  refine loop_invariant back_pass (I := fun r => ∃ q, s = r ++ q ∧ Tokens q) ?_
    ⟨[], (List.append_nil s).symm, Tokens.nil⟩
  rintro r' t ht hfound ⟨q, rfl, hq⟩
  obtain ⟨r, u, rfl, hu⟩ := iendsWith_iff.mp hfound
  refine ⟨u ++ q, ?_, hq.cons ht hu⟩
  rw [eraseBack, take_of_spells hu, List.append_assoc]

theorem istartsWith_append {r q t : List Char} (h : istartsWith (r ++ q) t = false) :
    istartsWith r t = false := by
  by_contra hne
  obtain ⟨p, r', rfl, hp⟩ := istartsWith_iff.mp (Bool.not_eq_false _ ▸ hne)
  have htrue : istartsWith (p ++ r' ++ q) t = true :=
    istartsWith_iff.mpr ⟨p, r' ++ q, List.append_assoc _ _ _, hp⟩
  rw [h] at htrue
  cases htrue

theorem xhtmlTrim_ends (s : List Char) :
    ∀ t ∈ blanks, istartsWith (xhtmlTrim s) t = false ∧ iendsWith (xhtmlTrim s) t = false := by
  intro t ht
  obtain ⟨q, heq, -⟩ := back_loop (front.loop s)
  have hfront := loop_none front_pass s t ht
  rw [heq] at hfront
  exact ⟨istartsWith_append hfront, loop_none back_pass _ t ht⟩

theorem xhtmlTrim_of_none
    (h : ∀ t ∈ blanks, istartsWith s t = false ∧ iendsWith s t = false) : xhtmlTrim s = s := by
  rw [xhtmlTrim, loop_of_none front_pass fun t ht => (h t ht).1,
    loop_of_none back_pass fun t ht => (h t ht).2]

theorem foldl_compare_fst {found : List Char → List Char → Bool}
    {erase : List Char → Nat → List Char} {take : List Char → List Char → List Char}
    (htake : ∀ s t, take s t = if found s t then erase s t.length else s)
    (ts : List (List Char)) (s : List Char) (b : Bool) :
    (ts.foldl (compare found erase) (s, b)).1 = ts.foldl take s := by
  induction ts generalizing s b with
  | nil => rfl
  | cons t ts ih =>
    rw [List.foldl_cons, List.foldl_cons, htake s t]
    unfold compare
    split
    · exact ih _ _
    · exact ih _ _

/-- A loop that compares the lengths instead of the flag. -/
theorem whileMatch_eq {found : List Char → List Char → Bool} {erase : List Char → Nat → List Char}
    {take : List Char → List Char → List Char} {P : Passes (List Char)}
    (hP : P.pass = pass found erase blanks) (hsize : P.size = List.length)
    (htake : ∀ s t, take s t = if found s t then erase s t.length else s) (s : List Char) :
    whileMatch take s = P.loop s := by
  have hfold : ∀ s, (P.pass s).1 = blanks.foldl take s := by
    intro s
    rw [hP]
    exact foldl_compare_fst htake blanks s false
  induction s using Passes.loop.induct (P := P) with
  | case1 s hgo ih =>
    have hlt := P.shrinks s hgo
    rw [hsize, hfold] at hlt
    rw [whileMatch, if_pos hlt, Passes.loop_of_true hgo, ← hfold, ih]
  | case2 s hstop =>
    have hfalse : (P.pass s).2 = false := by simpa using hstop
    have hsame : (P.pass s).1 = s := by
      rw [hP] at hfalse ⊢
      exact (foldl_compare_of_false hfalse).1
    rw [whileMatch, ← hfold, Passes.loop_of_false hfalse, hsame, if_neg (Nat.lt_irrefl _)]

/-- The function that the messages are trimmed with. -/
theorem xhtmlTrim_eq (s : List Char) : Media.xhtmlTrim s = xhtmlTrim s := by
  have hfront : whileMatch eraseStart s = front.loop s :=
    whileMatch_eq front_pass rfl (fun _ _ => rfl) s
  have hback : whileMatch eraseEnd (front.loop s) = back.loop (front.loop s) :=
    whileMatch_eq back_pass rfl (fun _ _ => rfl) (front.loop s)
  rw [Media.xhtmlTrim, hfront, hback, xhtmlTrim]

/-- `xhtml_trim` takes tokens off both ends of a text, in whatever spelling, and it takes them all:
the result has none at its ends, and another call leaves it alone. -/
theorem xhtmlTrim_spec (s : List Char) :
    (∃ p q, s = p ++ xhtmlTrim s ++ q ∧ Tokens p ∧ Tokens q) ∧
      (∀ t ∈ blanks, istartsWith (xhtmlTrim s) t = false ∧ iendsWith (xhtmlTrim s) t = false) ∧
      xhtmlTrim (xhtmlTrim s) = xhtmlTrim s := by
  refine ⟨?_, xhtmlTrim_ends s, xhtmlTrim_of_none (xhtmlTrim_ends s)⟩
  obtain ⟨p, hfront, hp⟩ := front_loop s
  obtain ⟨q, hback, hq⟩ := back_loop (front.loop s)
  refine ⟨p, q, ?_, hp, hq⟩
  rw [List.append_assoc, xhtmlTrim, ← hback, ← hfront]

end Spectrum.Account.Trim
