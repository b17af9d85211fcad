import Mathlib.Data.List.Induction
import Mathlib.Data.String.Basic
import Spectrum.Lib.SortedMap

/-!
# Program options

The variables of boost's `program_options` and `store`, which gives them the values of options that
were parsed. An option that has got a value keeps it in later calls of `store`; a default is replaced.
An option that is repeated or has a wrong value makes `store` throw in the middle of its work.

* `Variables.Settled.store` says when `store` succeeds, and which values the variables have then;
* `Variables.Settled.unchanged_iff_harmless` says when it throws without having changed a value.
-/

namespace Spectrum.Lib.ProgramOptions

/-! ## Values -/

inductive OptionType
  | string
  | int
  | bool
  | strings
  deriving DecidableEq, Repr

inductive Value
  | string (s : String)
  | int (i : Int)
  | bool (b : Bool)
  | strings (l : List String)
  deriving DecidableEq, Repr

/-- `lexical_cast<int>`. -/
def readInt (s : String) : Option Int :=
  let (negative, digits) :=
    match s.toList with
    | '-' :: digits => (true, digits)
    | '+' :: digits => (false, digits)
    | digits => (false, digits)
  if digits ≠ [] ∧ digits.all Char.isDigit then
    let n : Int := digits.foldl (fun n c => 10 * n + (c.toNat - '0'.toNat)) (0 : Nat)
    let i := if negative then -n else n
    if -2147483648 ≤ i ∧ i ≤ 2147483647 then some i else none
  else none

/-- The texts that `validate` takes for a `bool`. -/
def readBool (s : String) : Option Bool :=
  let s := String.ofList (s.toList.map Char.toLower)
  if s ∈ ["", "on", "yes", "1", "true"] then some true
  else if s ∈ ["off", "no", "0", "false"] then some false
  else none

def OptionType.read : OptionType → List String → Option Value
  | .string, [s] => some (.string s)
  | .int, [s] => (readInt s).map Value.int
  | .bool, [s] => (readBool s).map Value.bool
  | .bool, [] => some (.bool true)
  | .strings, values => some (.strings values)
  | .string, _ | .int, _ | .bool, _ => none

/-- `multiple_occurrences` and the other exceptions. -/
inductive Failure
  | multipleOccurrences
  | invalidValue
  deriving DecidableEq, Repr

/-- `validate`, with the value that the variable has. Only lists can be given several times. -/
def OptionType.validate (t : OptionType) (old : Option Value) (values : List String) :
    Except Failure Value :=
  match t, old with
  | .strings, some (.strings l) => .ok (.strings (l ++ values))
  | .strings, _ => .ok (.strings values)
  | .string, some _ | .int, some _ | .bool, some _ => .error .multipleOccurrences
  | .string, none | .int, none | .bool, none =>
    match t.read values with
    | none => .error .invalidValue
    | some value => .ok value

/-! ## Variables -/

/-- `option_description`. -/
structure Description where
  key : String
  type : OptionType
  default : Option Value := none

/-- `options_description::find`. -/
def describe (desc : List Description) (key : String) : Option Description :=
  desc.find? fun d => decide (d.key = key)

/-- `variable_value`. It can be empty. -/
structure Variable where
  value : Option Value := none
  defaulted : Bool := false
  deriving DecidableEq, Repr

/-- `variables_map`, with `m_final`. -/
structure Variables where
  map : SortedMap String Variable := {}
  final : List String := []

/-- The value of an option that is read. -/
def Variables.valueOf (v : Variables) (key : String) : Option Value :=
  (v.map.get key).bind Variable.value

/-- The value that was given, without a default. -/
def Variables.explicit (v : Variables) (key : String) : Option Value :=
  (v.map.get key).bind fun x => if x.defaulted then none else x.value

/-- An option with its values. It is unregistered if it is not described. -/
structure Parsed where
  key : String
  values : List String
  deriving DecidableEq, Repr

section Store

variable (desc : List Description)

/-- One round of the first loop of `store`. -/
def storeOption (v : Variables) (o : Parsed) : Variables × Option Failure :=
  match describe desc o.key with
  | none => (v, none)
  | some d =>
    if o.key ∈ v.final then (v, none)
    else
      match d.type.validate (v.explicit o.key) o.values with
      | .error e => ({ v with map := v.map.set o.key { value := v.explicit o.key } }, some e)
      | .ok value => ({ v with map := v.map.set o.key { value := some value } }, none)

/-- The first loop of `store`. -/
def storeOptions : Variables → List Parsed → Variables × Option Failure
  | v, [] => (v, none)
  | v, o :: os =>
    match storeOption desc v o with
    | (v, none) => storeOptions v os
    | (v, some e) => (v, some e)

/-- The second loop of `store`. -/
def applyDefaults (m : SortedMap String Variable) : List Description → SortedMap String Variable
  | [] => m
  | d :: ds =>
    applyDefaults
      (match m.get d.key, d.default with
      | none, some value => m.set d.key { value, defaulted := true }
      | _, _ => m) ds

/-- The options that are read. -/
def described (os : List Parsed) : List String :=
  (os.map Parsed.key).filter fun key => (describe desc key).isSome

/-- `store`. The options are final after all of them have been read. -/
def store (v : Variables) (os : List Parsed) : Variables × Option Failure :=
  match storeOptions desc v os with
  | (v, some e) => (v, some e)
  | (v, none) =>
    ({ map := applyDefaults v.map desc, final := v.final ++ described desc os }, none)

end Store

/-! ## What is given -/

/-- The values that are given to an option one after the other. -/
def occurrences (key : String) (os : List Parsed) : List (List String) :=
  (os.filter fun o => decide (o.key = key)).map Parsed.values

/-- The value that the occurrences of an option give it. -/
def OptionType.given (t : OptionType) (occ : List (List String)) : Option Value :=
  match t, occ with
  | _, [] => none
  | .strings, occ => some (.strings occ.flatten)
  | t, [values] => t.read values
  | _, _ => none

/-- The occurrences can be stored. -/
def OptionType.Accepts (t : OptionType) (occ : List (List String)) : Prop :=
  occ = [] ∨ (t.given occ).isSome

/-- The options other than the final ones can be stored. -/
def Accepted (desc : List Description) (final : List String) (os : List Parsed) : Prop :=
  ∀ key d, key ∉ final → describe desc key = some d → d.type.Accepts (occurrences key os)

/-- The value that the options give, or the default. -/
def valueIn (desc : List Description) (os : List Parsed) (key : String) : Option Value :=
  (describe desc key).bind fun d => (d.type.given (occurrences key os)).or d.default

/-- The options can be stored up to `o`. -/
structure StopsAt (desc : List Description) (final : List String) (os pre : List Parsed)
    (o : Parsed) : Prop where
  split : ∃ post, os = pre ++ o :: post
  before : Accepted desc final pre
  stop : ¬ Accepted desc final (pre ++ [o])

/-- Storing stops where it has changed nothing: the values that were stored are the defaults, and the
option that cannot be stored had got its value before, or has no default. -/
def Harmless (desc : List Description) (final : List String) (os : List Parsed) : Prop :=
  ∃ pre o, StopsAt desc final os pre o ∧
    (∀ key d, key ∉ final → describe desc key = some d → occurrences key pre ≠ [] →
      d.type.given (occurrences key pre) = d.default) ∧
    (occurrences o.key pre = [] → (describe desc o.key).bind Description.default = none)

section Occurrences

variable {key : String} {os os' pre pre' : List Parsed} {o o' : Parsed} {t : OptionType}
  {occ occ' : List (List String)} {desc : List Description} {final : List String}

theorem occurrences_append (key : String) (os os' : List Parsed) :
    occurrences key (os ++ os') = occurrences key os ++ occurrences key os' := by
  rw [occurrences, List.filter_append, List.map_append]
  rfl

theorem occurrences_singleton_self (o : Parsed) : occurrences o.key [o] = [o.values] := by
  simp [occurrences]

theorem occurrences_singleton_of_ne (h : o.key ≠ key) : occurrences key [o] = [] := by
  rw [occurrences, List.filter_cons_of_neg (by simpa using h)]
  rfl

theorem occurrences_ne_nil_iff : occurrences key os ≠ [] ↔ key ∈ os.map Parsed.key := by
  rw [occurrences, Ne, List.map_eq_nil_iff, List.filter_eq_nil_iff, List.mem_map]
  simp

/-- What is given after one more occurrence is what `validate` makes of it. -/
theorem given_append_singleton (h : t.Accepts occ) (values : List String) :
    t.given (occ ++ [values]) = (t.validate (t.given occ) values).toOption := by
  have hscalar : ∀ value, t ≠ .strings → t.validate (some value) values =
      .error .multipleOccurrences := by
    intro value ht
    cases t with
    | strings => exact absurd rfl ht
    | string => rfl
    | int => rfl
    | bool => rfl
  have hfirst : t ≠ .strings → (t.validate none values).toOption = t.read values := by
    intro ht
    cases t with
    | strings => exact absurd rfl ht
    | string =>
      simp only [OptionType.validate]
      cases OptionType.string.read values <;> rfl
    | int =>
      simp only [OptionType.validate]
      cases OptionType.int.read values <;> rfl
    | bool =>
      simp only [OptionType.validate]
      cases OptionType.bool.read values <;> rfl
  by_cases ht : t = .strings
  · subst ht
    cases occ with
    | nil => simp [OptionType.given, OptionType.validate, Except.toOption]
    | cons first rest => simp [OptionType.given, OptionType.validate, Except.toOption]
  · rcases h with rfl | hsome
    · have hgiven : t.given [values] = t.read values := by
        cases t with
        | strings => exact absurd rfl ht
        | string => rfl
        | int => rfl
        | bool => rfl
      have hnone : t.given [] = none := by cases t <;> rfl
      rw [List.nil_append, hgiven, hnone, hfirst ht]
    · obtain ⟨value, hvalue⟩ := Option.isSome_iff_exists.mp hsome
      rw [hvalue, hscalar value ht]
      cases occ with
      | nil => cases t <;> cases hvalue
      | cons first rest =>
        cases t with
        | strings => exact absurd rfl ht
        | string => cases rest <;> rfl
        | int => cases rest <;> rfl
        | bool => cases rest <;> rfl

theorem OptionType.Accepts.of_append (h : t.Accepts (occ ++ occ')) : t.Accepts occ := by
  cases occ with
  | nil => exact Or.inl rfl
  | cons first rest =>
    refine Or.inr ?_
    have hsome := h.resolve_left (List.cons_ne_nil _ _)
    by_cases ht : t = .strings
    · subst ht
      rfl
    · cases hrest : rest ++ occ' with
      | nil =>
        obtain ⟨rfl, rfl⟩ := List.append_eq_nil_iff.mp hrest
        exact hsome
      | cons second others =>
        rw [List.cons_append, hrest] at hsome
        cases t with
        | strings => exact absurd rfl ht
        | string => cases hsome
        | int => cases hsome
        | bool => cases hsome

theorem Accepted.of_append (h : Accepted desc final (os ++ os')) : Accepted desc final os := by
  intro key d hfinal hd
  have hall := h key d hfinal hd
  rw [occurrences_append] at hall
  exact hall.of_append

theorem StopsAt.not_accepted (h : StopsAt desc final os pre o) : ¬ Accepted desc final os := by
  obtain ⟨post, rfl⟩ := h.split
  intro haccepted
  rw [← List.singleton_append, ← List.append_assoc] at haccepted
  exact h.stop haccepted.of_append

/-- There is one place where storing stops. -/
theorem StopsAt.unique (h : StopsAt desc final os pre o) (h' : StopsAt desc final os pre' o') :
    pre' = pre ∧ o' = o := by
  obtain ⟨post, rfl⟩ := h.split
  obtain ⟨post', hsplit⟩ := h'.split
  rcases List.append_eq_append_iff.mp hsplit with ⟨mid, rfl, hmid⟩ | ⟨mid, rfl, hmid⟩
  · cases mid with
    | nil =>
      rw [List.nil_append] at hmid
      exact ⟨(List.append_nil _), (List.cons.inj hmid).1.symm⟩
    | cons o₁ mid =>
      obtain ⟨rfl, -⟩ := List.cons.inj hmid
      have hbefore := h'.before
      rw [← List.singleton_append, ← List.append_assoc] at hbefore
      exact absurd hbefore.of_append h.stop
  · cases mid with
    | nil =>
      rw [List.nil_append] at hmid
      exact ⟨(List.append_nil _).symm, (List.cons.inj hmid).1⟩
    | cons o₁ mid =>
      obtain ⟨rfl, -⟩ := List.cons.inj hmid
      have hbefore := h.before
      rw [← List.singleton_append, ← List.append_assoc] at hbefore
      exact absurd hbefore.of_append h'.stop

theorem Accepted.of_subset {final' : List String} (hsub : final ⊆ final')
    (h : Accepted desc final os) : Accepted desc final' os :=
  fun key d hfinal hd => h key d (fun hmem => hfinal (hsub hmem)) hd

theorem accepted_congr {final' : List String} (hsame : ∀ key, key ∈ final ↔ key ∈ final') :
    Accepted desc final os ↔ Accepted desc final' os := by
  constructor
  · exact Accepted.of_subset fun key => (hsame key).mp
  · exact Accepted.of_subset fun key => (hsame key).mpr

theorem Harmless.of_same {final' : List String} (hsame : ∀ key, key ∈ final ↔ key ∈ final')
    (h : Harmless desc final os) : Harmless desc final' os := by
  obtain ⟨pre, o, hstop, hdefaults, hlast⟩ := h
  refine ⟨pre, o, ⟨hstop.split, ?_, ?_⟩, fun key d hfinal => ?_, hlast⟩
  · exact (accepted_congr hsame).mp hstop.before
  · exact mt (accepted_congr hsame).mpr hstop.stop
  · exact hdefaults key d (mt (hsame key).mp hfinal)

end Occurrences

/-! ## Storing -/

/-- The options in `os` were stored over `v`. -/
structure Reached (desc : List Description) (v : Variables) (os : List Parsed) (v' : Variables) :
    Prop where
  final : v'.final = v.final
  given : ∀ key d, key ∉ v.final → describe desc key = some d → occurrences key os ≠ [] →
    v'.map.get key = some { value := d.type.given (occurrences key os) }
  other : ∀ key, key ∈ v.final ∨ describe desc key = none ∨ occurrences key os = [] →
    v'.map.get key = v.map.get key

section Storing

variable {desc : List Description} {v v' v₁ : Variables} {os pre : List Parsed} {o : Parsed}
  {d : Description} {key : String} {e : Failure}

theorem given_nil (t : OptionType) : t.given [] = none := by cases t <;> rfl

theorem storeOptions_append (v : Variables) (pre post : List Parsed) :
    storeOptions desc v (pre ++ post) =
      match storeOptions desc v pre with
      | (v₁, none) => storeOptions desc v₁ post
      | (v₁, some e) => (v₁, some e) := by
  induction pre generalizing v with
  | nil => rfl
  | cons o pre ih =>
    rw [List.cons_append, storeOptions, storeOptions]
    rcases storeOption desc v o with ⟨v₁, _ | e⟩
    · exact ih v₁
    · rfl

/-- What was given explicitly after the options were stored. -/
theorem Reached.explicit (h : Reached desc v os v') (hopen : v.explicit key = none)
    (hfinal : key ∉ v.final) (hd : describe desc key = some d) :
    v'.explicit key = d.type.given (occurrences key os) := by
  by_cases hocc : occurrences key os = []
  · rw [hocc, given_nil, Variables.explicit, h.other key (Or.inr (Or.inr hocc))]
    exact hopen
  · rw [Variables.explicit, h.given key d hfinal hd hocc]
    rfl

theorem storeOption_of_skipped (h : describe desc o.key = none ∨ o.key ∈ v.final) :
    storeOption desc v o = (v, none) := by
  unfold storeOption
  split
  · rfl
  · rename_i d hd
    rw [if_pos (h.resolve_left (by rw [hd]; exact Option.some_ne_none _))]

theorem storeOption_of_described (hd : describe desc o.key = some d) (hfinal : o.key ∉ v.final) :
    storeOption desc v o =
      match d.type.validate (v.explicit o.key) o.values with
      | .error e => ({ v with map := v.map.set o.key { value := v.explicit o.key } }, some e)
      | .ok value => ({ v with map := v.map.set o.key { value := some value } }, none) := by
  unfold storeOption
  rw [hd]
  simp only [if_neg hfinal]

/-- An option that is skipped. -/
theorem Reached.skip (h : Reached desc v pre v₁)
    (hskip : describe desc o.key = none ∨ o.key ∈ v.final) : Reached desc v (pre ++ [o]) v₁ := by
  refine ⟨h.final, fun key d hfinal hd hocc => ?_, fun key hkey => ?_⟩
  · have hne : o.key ≠ key := by
      rintro rfl
      rcases hskip with hnone | hin
      · rw [hnone] at hd
        cases hd
      · exact hfinal hin
    rw [occurrences_append, occurrences_singleton_of_ne hne, List.append_nil] at hocc ⊢
    exact h.given key d hfinal hd hocc
  · rw [occurrences_append, List.append_eq_nil_iff] at hkey
    exact h.other key (hkey.imp_right (Or.imp_right And.left))

/-- An option that is stored. -/
theorem Reached.stored (h : Reached desc v pre v₁) (hd : describe desc o.key = some d)
    (hfinal : o.key ∉ v.final) {value : Value}
    (hvalue : d.type.given (occurrences o.key (pre ++ [o])) = some value) :
    Reached desc v (pre ++ [o]) { v₁ with map := v₁.map.set o.key { value := some value } } := by
  refine ⟨h.final, fun key d' hfinal' hd' hocc => ?_, fun key hkey => ?_⟩
  · by_cases hne : o.key = key
    · subst hne
      cases hd.symm.trans hd'
      rw [hvalue]
      exact SortedMap.get_set_self _ _ _
    · rw [occurrences_append, occurrences_singleton_of_ne hne, List.append_nil] at hocc ⊢
      exact (SortedMap.get_set_of_ne (Ne.symm hne)).trans (h.given key d' hfinal' hd' hocc)
  · have hne : key ≠ o.key := by
      rintro rfl
      rcases hkey with hin | hnone | hnil
      · exact hfinal hin
      · rw [hd] at hnone
        cases hnone
      · rw [occurrences_append, occurrences_singleton_self, List.append_eq_nil_iff] at hnil
        exact List.cons_ne_nil _ _ hnil.2
    rw [occurrences_append, List.append_eq_nil_iff] at hkey
    exact (SortedMap.get_set_of_ne hne).trans (h.other key (hkey.imp_right (Or.imp_right And.left)))

theorem Accepted.skip (h : Accepted desc v.final pre)
    (hskip : describe desc o.key = none ∨ o.key ∈ v.final) : Accepted desc v.final (pre ++ [o]) := by
  intro key d hfinal hd
  have hne : o.key ≠ key := by
    rintro rfl
    rcases hskip with hnone | hin
    · rw [hnone] at hd
      cases hd
    · exact hfinal hin
  rw [occurrences_append, occurrences_singleton_of_ne hne, List.append_nil]
  exact h key d hfinal hd

/-- One more option can be stored if what is given with it is a value. -/
theorem Accepted.append_singleton_iff {final : List String} (h : Accepted desc final pre)
    (hd : describe desc o.key = some d) (hfinal : o.key ∉ final) :
    Accepted desc final (pre ++ [o]) ↔
      (d.type.given (occurrences o.key (pre ++ [o]))).isSome := by
  constructor
  · intro hall
    refine (hall o.key d hfinal hd).resolve_left ?_
    rw [occurrences_append, occurrences_singleton_self]
    exact List.append_ne_nil_of_right_ne_nil _ (List.cons_ne_nil _ _)
  · intro hsome key d' hfinal' hd'
    by_cases hne : o.key = key
    · subst hne
      cases hd.symm.trans hd'
      exact Or.inr hsome
    · rw [occurrences_append, occurrences_singleton_of_ne hne, List.append_nil]
      exact h key d' hfinal' hd'

/-- Either all options are stored, or the loop stops at one that cannot be stored. -/
theorem storeOptions_cases (hopen : ∀ key, key ∉ v.final → v.explicit key = none) :
    (∃ v', storeOptions desc v os = (v', none) ∧ Accepted desc v.final os ∧ Reached desc v os v') ∨
      ∃ pre o v₁ e, StopsAt desc v.final os pre o ∧ Reached desc v pre v₁ ∧
        (describe desc o.key).isSome ∧ o.key ∉ v.final ∧
        storeOptions desc v os =
          ({ v₁ with map := v₁.map.set o.key { value := v₁.explicit o.key } }, some e) := by
  induction os using List.reverseRecOn with
  | nil =>
    refine Or.inl ⟨v, rfl, fun key d _ _ => Or.inl rfl, rfl, ?_, fun key _ => rfl⟩
    intro key d _ _ hocc
    exact absurd rfl hocc
  | append_singleton os o ih =>
    rcases ih with ⟨v₁, hrun, haccepted, hreached⟩ | ⟨pre, o', v₁, e, hstop, hreached, hd, hfinal, hrun⟩
    · rw [storeOptions_append, hrun]
      simp only [storeOptions]
      by_cases hskip : describe desc o.key = none ∨ o.key ∈ v.final
      · rw [storeOption_of_skipped (hreached.final ▸ hskip)]
        exact Or.inl ⟨v₁, rfl, haccepted.skip hskip, hreached.skip hskip⟩
      · obtain ⟨hsome, hfinal⟩ := not_or.mp hskip
        obtain ⟨d, hd⟩ := Option.ne_none_iff_exists'.mp hsome
        have hexplicit := hreached.explicit (hopen _ hfinal) hfinal hd
        have hnext := given_append_singleton (haccepted _ _ hfinal hd) o.values
        rw [← occurrences_singleton_self o, ← occurrences_append, ← hexplicit] at hnext
        rw [storeOption_of_described hd (hreached.final ▸ hfinal)]
        cases hvalidate : d.type.validate (v₁.explicit o.key) o.values with
        | ok value =>
          rw [hvalidate] at hnext
          refine Or.inl ⟨_, rfl, ?_, hreached.stored hd hfinal hnext⟩
          rw [haccepted.append_singleton_iff hd hfinal, hnext]
          rfl
        | error e =>
          rw [hvalidate] at hnext
          refine Or.inr ⟨os, o, v₁, e, ⟨⟨[], rfl⟩, haccepted, ?_⟩, hreached, ?_, hfinal, rfl⟩
          · rw [haccepted.append_singleton_iff hd hfinal, hnext]
            exact Bool.false_ne_true
          · rw [hd]
            rfl
    · obtain ⟨post, hsplit⟩ := hstop.split
      refine Or.inr ⟨pre, o', v₁, e, ⟨⟨post ++ [o], ?_⟩, hstop.before, hstop.stop⟩, hreached, hd, hfinal,
        ?_⟩
      · rw [hsplit, List.append_assoc, List.cons_append]
      · rw [storeOptions_append, hrun]

/-! ## Defaults -/

/-- Options that are not final have no explicit value, and their value is the default if they have
one. Final options have a value. -/
structure Variables.Settled (desc : List Description) (v : Variables) : Prop where
  unset : ∀ key, key ∉ v.final → v.explicit key = none
  value : ∀ key x, key ∉ v.final → v.map.get key = some x →
    x.value = (describe desc key).bind Description.default
  final : ∀ key, key ∈ v.final → (v.map.get key).isSome

theorem settled_empty : Variables.Settled desc {} where
  unset _ _ := rfl
  value _ _ _ h := by cases h
  final _ h := by cases h

/-- A default is put where nothing is. -/
theorem applyDefaults_get (hnodup : (desc.map Description.key).Nodup) (m : SortedMap String Variable)
    (key : String) : (applyDefaults m desc).get key = (m.get key).or
      (((describe desc key).bind Description.default).map fun value =>
        { value := some value, defaulted := true }) := by
  induction desc generalizing m with
  | nil => simp [applyDefaults, describe]
  | cons d ds ih =>
    rw [List.map_cons, List.nodup_cons] at hnodup
    rw [applyDefaults, ih hnodup.2]
    have hlater : d.key = key → describe ds key = none := by
      rintro rfl
      refine List.find?_eq_none.mpr fun d' hd' hkey => hnodup.1 ?_
      rw [← of_decide_eq_true hkey]
      exact List.mem_map_of_mem hd'
    by_cases hkey : d.key = key
    · have hfound : describe (d :: ds) key = some d :=
        List.find?_cons_of_pos (decide_eq_true hkey)
      rw [hlater hkey, hfound, Option.bind_none, Option.map_none, Option.or_none, Option.bind_some]
      cases hget : m.get key with
      | some x => simp only [hkey, hget, Option.some_or]
      | none =>
        cases hdefault : d.default with
        | none => simp only [hkey, hget, Option.map_none, Option.or_none]
        | some value =>
          simp only [hkey, hget, Option.map_some, Option.none_or]
          exact SortedMap.get_set_self _ _ _
    · have hfound : describe (d :: ds) key = describe ds key :=
        List.find?_cons_of_neg (by simpa using hkey)
      rw [hfound]
      refine congrArg (fun entry => Option.or entry _) ?_
      split
      · exact SortedMap.get_set_of_ne (Ne.symm hkey)
      · rfl

theorem mem_described_iff : key ∈ described desc os ↔
    (describe desc key).isSome ∧ occurrences key os ≠ [] := by
  rw [described, List.mem_filter, occurrences_ne_nil_iff, and_comm]

/-- The entry of an option to which nothing is given. -/
theorem Variables.Settled.value_or (h : v.Settled desc) (hfinal : key ∉ v.final) {x : Variable}
    (hx : (v.map.get key).or (((describe desc key).bind Description.default).map fun value =>
      { value := some value, defaulted := true }) = some x) :
    x.value = (describe desc key).bind Description.default ∧
      (if x.defaulted then none else x.value) = none := by
  rcases Option.or_eq_some_iff.mp hx with hget | ⟨-, hdefault⟩
  · have hunset := h.unset key hfinal
    rw [Variables.explicit, hget, Option.bind_some] at hunset
    exact ⟨h.value key x hfinal hget, hunset⟩
  · obtain ⟨value, hvalue, rfl⟩ := Option.map_eq_some_iff.mp hdefault
    exact ⟨hvalue.symm, if_pos rfl⟩

section Success

variable (hnodup : (desc.map Description.key).Nodup) (hreached : Reached desc v os v₁)

include hnodup hreached

/-- The variables after the defaults have been applied. -/
theorem get_applyDefaults_reached (key : String) : (applyDefaults v₁.map desc).get key =
    if key ∉ v.final ∧ key ∈ described desc os then v₁.map.get key
    else (v.map.get key).or (((describe desc key).bind Description.default).map fun value =>
      { value := some value, defaulted := true }) := by
  rw [applyDefaults_get hnodup]
  split
  · rename_i hread
    obtain ⟨hsome, hocc⟩ := mem_described_iff.mp hread.2
    obtain ⟨d, hd⟩ := Option.isSome_iff_exists.mp hsome
    rw [hreached.given key d hread.1 hd hocc, Option.some_or]
  · rename_i hread
    rw [hreached.other key]
    by_cases hfinal : key ∈ v.final
    · exact Or.inl hfinal
    · refine Or.inr (or_iff_not_imp_left.mpr fun hsome => not_not.mp fun hocc => hread ⟨hfinal, ?_⟩)
      exact mem_described_iff.mpr ⟨Option.isSome_iff_ne_none.mpr hsome, hocc⟩

theorem settled_reached (h : v.Settled desc) : Variables.Settled desc
    { map := applyDefaults v₁.map desc, final := v.final ++ described desc os } := by
  have hget := get_applyDefaults_reached hnodup hreached
  constructor
  · intro key hkey
    obtain ⟨hfinal, hread⟩ := not_or.mp (mt List.mem_append.mpr hkey)
    have hentry := hget key
    rw [if_neg fun hboth => hread hboth.2] at hentry
    rw [Variables.explicit, hentry]
    cases hx : (v.map.get key).or (((describe desc key).bind Description.default).map fun value =>
        ({ value := some value, defaulted := true } : Variable)) with
    | none => rfl
    | some x => exact (h.value_or hfinal hx).2
  · intro key x hkey hx
    obtain ⟨hfinal, hread⟩ := not_or.mp (mt List.mem_append.mpr hkey)
    have hentry := hget key
    rw [if_neg fun hboth => hread hboth.2] at hentry
    exact (h.value_or hfinal (hentry.symm.trans hx)).1
  · intro key hkey
    refine (congrArg Option.isSome (hget key)).trans ?_
    split
    · rename_i hread
      obtain ⟨hsome, hocc⟩ := mem_described_iff.mp hread.2
      obtain ⟨d, hd⟩ := Option.isSome_iff_exists.mp hsome
      rw [hreached.given key d hread.1 hd hocc]
      rfl
    · rename_i hread
      have hfinal : key ∈ v.final := by
        rcases List.mem_append.mp hkey with hfinal | hmem
        · exact hfinal
        · exact not_not.mp fun hfinal => hread ⟨hfinal, hmem⟩
      rw [Option.isSome_or, h.final key hfinal]
      rfl

theorem valueOf_reached (h : v.Settled desc) (haccepted : Accepted desc v.final os) (key : String) :
    ({ map := applyDefaults v₁.map desc, final := v.final ++ described desc os } :
        Variables).valueOf key = if key ∈ v.final then v.valueOf key else valueIn desc os key := by
  rw [Variables.valueOf, get_applyDefaults_reached hnodup hreached]
  by_cases hfinal : key ∈ v.final
  · rw [if_neg fun hboth => hboth.1 hfinal, if_pos hfinal]
    obtain ⟨x, hx⟩ := Option.isSome_iff_exists.mp (h.final key hfinal)
    rw [Variables.valueOf, hx]
    rfl
  · rw [if_neg hfinal, valueIn]
    split
    · rename_i hread
      obtain ⟨hsome, hocc⟩ := mem_described_iff.mp hread.2
      obtain ⟨d, hd⟩ := Option.isSome_iff_exists.mp hsome
      obtain ⟨value, hvalue⟩ :=
        Option.isSome_iff_exists.mp ((haccepted key d hfinal hd).resolve_left hocc)
      rw [hreached.given key d hfinal hd hocc, hd, Option.bind_some, Option.bind_some, hvalue]
      rfl
    · rename_i hread
      have hnothing : (describe desc key).bind (fun d => (d.type.given (occurrences key os)).or d.default)
          = (describe desc key).bind Description.default := by
        cases hd : describe desc key with
        | none => rfl
        | some d =>
          have hocc : occurrences key os = [] := not_not.mp fun hocc =>
            hread ⟨hfinal, mem_described_iff.mpr ⟨by rw [hd]; rfl, hocc⟩⟩
          rw [Option.bind_some, Option.bind_some, hocc, given_nil, Option.none_or]
      rw [hnothing]
      cases hx : (v.map.get key).or (((describe desc key).bind Description.default).map fun value =>
          ({ value := some value, defaulted := true } : Variable)) with
      | none =>
        obtain ⟨-, hdefault⟩ := Option.or_eq_none_iff.mp hx
        exact (Option.map_eq_none_iff.mp hdefault).symm
      | some x => exact (h.value_or hfinal hx).1

end Success

/-- `store` succeeds exactly on options that can be stored. Final options keep their values, and the
others have the value that is given or the default. -/
theorem Variables.Settled.store (h : v.Settled desc) (hnodup : (desc.map Description.key).Nodup)
    (os : List Parsed) :
    ((store desc v os).2 = none ↔ Accepted desc v.final os) ∧
    ((store desc v os).2 = none → (store desc v os).1.Settled desc ∧
      (store desc v os).1.final = v.final ++ described desc os ∧
      ∀ key, (store desc v os).1.valueOf key =
        if key ∈ v.final then v.valueOf key else valueIn desc os key) := by
  rcases @storeOptions_cases desc v os h.unset with
    ⟨v₁, hrun, haccepted, hreached⟩ | ⟨pre, o, v₁, e, hstop, -, -, -, hrun⟩
  · have hstore : ProgramOptions.store desc v os =
        ({ map := applyDefaults v₁.map desc, final := v.final ++ described desc os }, none) := by
      rw [ProgramOptions.store, hrun]
      simp only [hreached.final]
    rw [hstore]
    refine ⟨iff_of_true rfl haccepted, fun _ => ⟨settled_reached hnodup hreached h, rfl, ?_⟩⟩
    exact valueOf_reached hnodup hreached h haccepted
  · have hstore : (ProgramOptions.store desc v os).2 = some e := by
      rw [ProgramOptions.store, hrun]
    rw [hstore]
    refine ⟨iff_of_false (Option.some_ne_none e) hstop.not_accepted, fun hnone => ?_⟩
    cases hnone

/-- After a call of `store` an option that is not final has its default. -/
theorem Variables.Settled.valueOf_of_not_final (h : v.Settled desc)
    (hnodup : (desc.map Description.key).Nodup) (hstore : (ProgramOptions.store desc v os).2 = none)
    (hkey : key ∉ (ProgramOptions.store desc v os).1.final) :
    (ProgramOptions.store desc v os).1.valueOf key =
      (describe desc key).bind Description.default := by
  obtain ⟨-, hfinal, hvalue⟩ := (h.store hnodup os).2 hstore
  rw [hfinal, List.mem_append, not_or] at hkey
  rw [hvalue, if_neg hkey.1, valueIn]
  cases hd : describe desc key with
  | none => rfl
  | some d =>
    have hocc : occurrences key os = [] := not_not.mp fun hocc =>
      hkey.2 (mem_described_iff.mpr ⟨by rw [hd]; rfl, hocc⟩)
    rw [Option.bind_some, hocc, given_nil, Option.none_or]
    rfl

/-- What was stored before `store` throws stays. -/
theorem Variables.Settled.valueOf_of_stopped (h : v.Settled desc)
    (hdefault : ∀ key, key ∉ v.final → v.valueOf key = (describe desc key).bind Description.default)
    (hstop : StopsAt desc v.final os pre o) :
    (∀ key, (ProgramOptions.store desc v os).1.valueOf key = v.valueOf key) ↔
      (∀ key d, key ∉ v.final → describe desc key = some d → occurrences key pre ≠ [] →
        d.type.given (occurrences key pre) = d.default) ∧
      (occurrences o.key pre = [] → (describe desc o.key).bind Description.default = none) := by
  rcases @storeOptions_cases desc v os h.unset with
    ⟨v₁, -, haccepted, -⟩ | ⟨pre', o', v₁, e, hstop', hreached, hsome, hfinal, hrun⟩
  · exact absurd haccepted hstop.not_accepted
  obtain ⟨rfl, rfl⟩ := hstop.unique hstop'
  obtain ⟨d, hd⟩ := Option.isSome_iff_exists.mp hsome
  have hstore : (ProgramOptions.store desc v os).1 =
      { v₁ with map := v₁.map.set o'.key { value := v₁.explicit o'.key } } := by
    rw [ProgramOptions.store, hrun]
  have hself : (ProgramOptions.store desc v os).1.valueOf o'.key =
      d.type.given (occurrences o'.key pre') := by
    rw [hstore, Variables.valueOf, SortedMap.get_set_self]
    exact hreached.explicit (h.unset _ hfinal) hfinal hd
  have hother : ∀ key, key ≠ o'.key →
      (ProgramOptions.store desc v os).1.valueOf key = v₁.valueOf key := by
    intro key hne
    rw [hstore, Variables.valueOf, SortedMap.get_set_of_ne hne]
    rfl
  have hgiven : ∀ key d, key ∉ v.final → describe desc key = some d → occurrences key pre' ≠ [] →
      (ProgramOptions.store desc v os).1.valueOf key = d.type.given (occurrences key pre') := by
    intro key d' hkey hd' hocc
    by_cases hne : key = o'.key
    · subst hne
      cases hd.symm.trans hd'
      exact hself
    · rw [hother key hne, Variables.valueOf, hreached.given key d' hkey hd' hocc]
      rfl
  have hvalue : ∀ key d, key ∉ v.final → describe desc key = some d → v.valueOf key = d.default := by
    intro key d' hkey hd'
    rw [hdefault key hkey, hd']
    rfl
  constructor
  · intro hsame
    refine ⟨fun key d' hkey hd' hocc => ?_, fun hocc => ?_⟩
    · rw [← hgiven key d' hkey hd' hocc, hsame, hvalue key d' hkey hd']
    · rw [← hdefault _ hfinal, ← hsame, hself, hocc, given_nil]
  · rintro ⟨hstored, hstopped⟩ key
    by_cases hskip : key ∈ v.final ∨ describe desc key = none ∨ occurrences key pre' = []
    · by_cases hne : key = o'.key
      · subst hne
        have hocc := (hskip.resolve_left hfinal).resolve_left (by rw [hd]; exact Option.some_ne_none d)
        rw [hself, hocc, given_nil, hdefault _ hfinal, hstopped hocc]
      · rw [hother key hne, Variables.valueOf, hreached.other key hskip]
        rfl
    · obtain ⟨hkey, hskip⟩ := not_or.mp hskip
      obtain ⟨hsome', hocc⟩ := not_or.mp hskip
      obtain ⟨d', hd'⟩ := Option.ne_none_iff_exists'.mp hsome'
      rw [hgiven key d' hkey hd' hocc, hstored key d' hkey hd' hocc, hvalue key d' hkey hd']

/-- When `store` throws nothing has changed exactly if it stopped where it was harmless. -/
theorem Variables.Settled.unchanged_iff_harmless (h : v.Settled desc)
    (hdefault : ∀ key, key ∉ v.final → v.valueOf key = (describe desc key).bind Description.default)
    (hnot : ¬ Accepted desc v.final os) :
    (∀ key, (ProgramOptions.store desc v os).1.valueOf key = v.valueOf key) ↔
      Harmless desc v.final os := by
  constructor
  · intro hsame
    rcases @storeOptions_cases desc v os h.unset with
      ⟨v₁, -, haccepted, -⟩ | ⟨pre, o, v₁, e, hstop, -, -, -, -⟩
    · exact absurd haccepted hnot
    · exact ⟨pre, o, hstop, (h.valueOf_of_stopped hdefault hstop).mp hsame⟩
  · rintro ⟨pre, o, hstop, hharmless⟩
    exact (h.valueOf_of_stopped hdefault hstop).mpr hharmless

/-- An option without a default to which nothing is given keeps its entry. -/
theorem get_store_of_not_given (hnodup : (desc.map Description.key).Nodup)
    (hdefault : (describe desc key).bind Description.default = none)
    (hos : describe desc key = none ∨ occurrences key os = []) (v : Variables) :
    (ProgramOptions.store desc v os).1.map.get key = v.map.get key := by
  have hone : ∀ (v : Variables) (o : Parsed), (o.key = key → describe desc key = none) →
      (storeOption desc v o).1.map.get key = v.map.get key := by
    intro v o hkey
    by_cases hsame : o.key = key
    · rw [storeOption_of_skipped (.inl (hsame.symm ▸ hkey hsame))]
    · unfold storeOption
      split
      · rfl
      · split
        · rfl
        · split <;> exact SortedMap.get_set_of_ne (Ne.symm hsame)
  have hall : ∀ (os : List Parsed) (v : Variables),
      (∀ o ∈ os, o.key = key → describe desc key = none) →
      (storeOptions desc v os).1.map.get key = v.map.get key := by
    intro os
    induction os with
    | nil => exact fun _ _ => rfl
    | cons o os ih =>
      intro v hkeys
      obtain ⟨ho, hos⟩ := List.forall_mem_cons.mp hkeys
      rw [storeOptions, ← hone v o ho]
      rcases storeOption desc v o with ⟨v₁, _ | e⟩
      · exact ih v₁ hos
      · rfl
  have hkeys : ∀ o ∈ os, o.key = key → describe desc key = none := fun o ho hkey =>
    hos.resolve_right fun hocc => occurrences_ne_nil_iff.mpr (List.mem_map.mpr ⟨o, ho, hkey⟩) hocc
  rw [← hall os v hkeys]
  unfold ProgramOptions.store
  rcases storeOptions desc v os with ⟨v₁, _ | e⟩
  · dsimp only
    rw [applyDefaults_get hnodup, hdefault, Option.map_none, Option.or_none]
  · rfl

/-- After a call of `store` that succeeds every option with a default has an entry. -/
theorem isSome_get_of_store (hnodup : (desc.map Description.key).Nodup)
    (hstore : (ProgramOptions.store desc v os).2 = none)
    (hdefault : ((describe desc key).bind Description.default).isSome = true) :
    ((ProgramOptions.store desc v os).1.map.get key).isSome = true := by
  unfold ProgramOptions.store at hstore ⊢
  rcases hrun : storeOptions desc v os with ⟨v₁, _ | e⟩
  · obtain ⟨value, hvalue⟩ := Option.isSome_iff_exists.mp hdefault
    dsimp only
    rw [applyDefaults_get hnodup, hvalue, Option.isSome_or, Option.map_some, Option.isSome_some,
      Bool.or_true]
  · rw [hrun] at hstore
    cases hstore

end Storing

end Spectrum.Lib.ProgramOptions
