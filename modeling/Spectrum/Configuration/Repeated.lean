import Spectrum.Configuration.Reload

/-!
# Options that are not described and given several times

The first value of such an option is kept as a `bool` or as a string, from the second one on there is
a list. The list is made from what was kept: a string is its first member, and a `bool` is one of the
things that `as` cannot cast, for which nothing is caught.

* `collect_spec` says what the loop over the options has come to;
* `throwsAt_iff` says at which option it throws;
* `keeps_iff` says when all values of an option are kept.
-/

namespace Spectrum.Configuration

open Lib ProgramOptions

/-- The values that are given for an option, in the order of the file. -/
def valuesOf (key : String) (options : List (String × String)) : List String :=
  (options.filter fun o => decide (o.1 = key)).map Prod.snd

/-- The texts that are taken for a `bool`. -/
def Boolean (value : String) : Prop := value ∈ ["true", "1", "false", "0"]

instance (value : String) : Decidable (Boolean value) :=
  inferInstanceAs (Decidable (value ∈ ["true", "1", "false", "0"]))

/-- The option is given a second time after a value that was taken for a `bool`. -/
def Clashing (options : List (String × String)) (key : String) : Prop :=
  ∃ first second rest, valuesOf key options = first :: second :: rest ∧ Boolean first

/-- What is kept of the values of an option. -/
def entryOf : List String → Option Unregistered
  | [] => none
  | [value] => some (unregistered value)
  | first :: second :: rest => some (.list (first :: second :: rest))

/-- The loop over the options throws at a value of the option. -/
def ThrowsAt (key : String) (options : List (String × String)) : Prop :=
  ∃ pre value post, options = pre ++ (key, value) :: post ∧ (collect [] {} pre).2 = true ∧
    (collect [] {} (pre ++ [(key, value)])).2 = false

/-- The loop throws at another option before it comes to the second value of this one. -/
def Stopped (key : String) (options : List (String × String)) : Prop :=
  ∃ pre value post, options = pre ++ (key, value) :: post ∧ (valuesOf key pre).length = 1 ∧
    ∃ other, Clashing pre other

/-- The options of the file that are not described. -/
def undescribed (options : List (String × String)) : List (String × String) :=
  options.filter fun o => !isDescribed o.1

section Collect

variable {key other value : String} {options l past : List (String × String)} {hasKey : List String}
  {m : SortedMap String Unregistered}

theorem valuesOf_append : valuesOf key (past ++ l) = valuesOf key past ++ valuesOf key l := by
  rw [valuesOf, List.filter_append, List.map_append]
  rfl

theorem valuesOf_singleton : valuesOf key [(other, value)] = if other = key then [value] else [] := by
  simp only [valuesOf, List.filter_cons, List.filter_nil, decide_eq_true_eq]
  split
  · rfl
  · rfl

theorem valuesOf_cons_self : valuesOf key ((key, value) :: l) = value :: valuesOf key l := by
  rw [← List.singleton_append, valuesOf_append, valuesOf_singleton, if_pos rfl]
  rfl

theorem unregistered_of_boolean (h : Boolean value) : ∃ b, unregistered value = .bool b := by
  unfold unregistered
  split
  · exact ⟨true, rfl⟩
  · split
    · exact ⟨false, rfl⟩
    · simp_all [Boolean]

theorem unregistered_of_not_boolean (h : ¬ Boolean value) : unregistered value = .string value := by
  simp only [Boolean, List.mem_cons, List.not_mem_nil, or_false, not_or] at h
  obtain ⟨htrue, hone, hfalse, hzero⟩ := h
  rw [unregistered, if_neg (by simp [htrue, hone]), if_neg (by simp [hfalse, hzero])]

theorem Clashing.append (h : Clashing past key) : Clashing (past ++ l) key := by
  obtain ⟨first, second, rest, hvalues, hbool⟩ := h
  exact ⟨first, second, rest ++ valuesOf key l, by rw [valuesOf_append, hvalues]; rfl, hbool⟩

/-- A clash that one more option makes is a second value of this option. -/
theorem Clashing.of_snoc (h : Clashing (past ++ [(key, value)]) other) (hnot : ¬ Clashing past other) :
    other = key ∧ ∃ first, valuesOf key past = [first] ∧ Boolean first := by
  obtain ⟨first, second, rest, hvalues, hbool⟩ := h
  rw [valuesOf_append, valuesOf_singleton] at hvalues
  by_cases hkey : key = other
  · subst hkey
    rw [if_pos rfl] at hvalues
    refine ⟨rfl, first, ?_, hbool⟩
    cases hpast : valuesOf key past with
    | nil =>
      rw [hpast] at hvalues
      cases hvalues
    | cons v vs =>
      rw [hpast] at hvalues
      cases vs with
      | nil =>
        cases hvalues
        rfl
      | cons w ws =>
        cases hvalues
        exact absurd ⟨first, second, ws, hpast, hbool⟩ hnot
  · rw [if_neg hkey, List.append_nil] at hvalues
    exact absurd ⟨first, second, rest, hvalues, hbool⟩ hnot

/-- What the loop knows of the options that it has seen. -/
structure Seen (past : List (String × String)) (hasKey : List String)
    (m : SortedMap String Unregistered) : Prop where
  keys : ∀ key, key ∈ hasKey ↔ valuesOf key past ≠ []
  entries : ∀ key, m.get key = entryOf (valuesOf key past)
  clear : ∀ key, ¬ Clashing past key

theorem seen_nil : Seen [] [] {} where
  keys key := by simp [valuesOf]
  entries _ := rfl
  clear key := by
    rintro ⟨first, second, rest, hvalues, -⟩
    cases hvalues

/-- A value is added to what was kept of the others. -/
theorem Seen.snoc (h : Seen past hasKey m) (hvalue : ∀ other, ¬ Clashing (past ++ [(key, value)]) other)
    {hasKey' : List String} (hkeys : ∀ other, other ∈ hasKey' ↔ other = key ∨ other ∈ hasKey) :
    Seen (past ++ [(key, value)]) hasKey'
      (m.set key ((entryOf (valuesOf key past ++ [value])).getD (.string value))) := by
  refine ⟨fun other => ?_, fun other => ?_, hvalue⟩
  · rw [hkeys, h.keys, valuesOf_append, valuesOf_singleton]
    by_cases hkey : key = other
    · simp [hkey]
    · simp [hkey, Ne.symm hkey]
  · rw [SortedMap.get_set, valuesOf_append, valuesOf_singleton]
    by_cases hkey : other = key
    · rw [if_pos hkey, if_pos hkey.symm, hkey]
      cases valuesOf key past with
      | nil => rfl
      | cons v vs =>
        cases vs with
        | nil => rfl
        | cons w ws => rfl
    · rw [if_neg hkey, if_neg (Ne.symm hkey), List.append_nil, h.entries]

/-- A round that does not throw goes on with one more value seen. -/
theorem Seen.exists_round (h : Seen past hasKey m)
    (hfirst : ∀ first, valuesOf key past = [first] → ¬ Boolean first) :
    ∃ hasKey' m', collect hasKey m ((key, value) :: l) = collect hasKey' m' l ∧
      Seen (past ++ [(key, value)]) hasKey' m' := by
  have hclear : ∀ other, ¬ Clashing (past ++ [(key, value)]) other := by
    intro other hclash
    obtain ⟨-, first, hvalues, hbool⟩ := hclash.of_snoc (h.clear other)
    exact hfirst first hvalues hbool
  have hentry := h.entries key
  by_cases hknown : key ∈ hasKey
  · have hkeys : ∀ other, other ∈ hasKey ↔ other = key ∨ other ∈ hasKey :=
      fun other => ⟨Or.inr, fun hother => hother.elim (fun heq => heq ▸ hknown) id⟩
    have hseen := h.snoc hclear hkeys
    rw [collect, if_neg (not_not_intro hknown)]
    cases hpast : valuesOf key past with
    | nil => exact absurd hpast ((h.keys key).mp hknown)
    | cons v vs =>
      rw [hpast] at hentry hseen
      cases vs with
      | nil =>
        rw [entryOf, unregistered_of_not_boolean (hfirst v hpast)] at hentry
        rw [hentry]
        exact ⟨_, _, rfl, hseen⟩
      | cons w ws =>
        rw [entryOf] at hentry
        rw [hentry]
        exact ⟨_, _, rfl, hseen⟩
  · have hpast : valuesOf key past = [] := not_not.mp fun hne => hknown ((h.keys key).mpr hne)
    have hseen := h.snoc hclear fun other => List.mem_cons (a := other)
    rw [hpast] at hseen
    rw [collect, if_pos hknown]
    exact ⟨_, _, rfl, hseen⟩

/-- A second value after one that was taken for a `bool`. -/
theorem Seen.throws (h : Seen past hasKey m) {first : String} (hpast : valuesOf key past = [first])
    (hbool : Boolean first) : (collect hasKey m ((key, value) :: l)).2 = false := by
  have hknown : key ∈ hasKey := (h.keys key).mpr (by rw [hpast]; exact List.cons_ne_nil _ _)
  have hentry := h.entries key
  obtain ⟨b, hb⟩ := unregistered_of_boolean hbool
  rw [hpast, entryOf, hb] at hentry
  rw [collect, if_neg (not_not_intro hknown), hentry]

/-- The loop completes when no option clashes, and then it has kept all values. -/
theorem collect_spec (h : Seen past hasKey m) :
    ((collect hasKey m l).2 = true ↔ ∀ key, ¬ Clashing (past ++ l) key) ∧
      ((collect hasKey m l).2 = true → ∀ key,
        (collect hasKey m l).1.get key = entryOf (valuesOf key (past ++ l))) := by
  induction l generalizing past hasKey m with
  | nil =>
    rw [List.append_nil]
    exact ⟨iff_of_true rfl h.clear, fun _ => h.entries⟩
  | cons o l ih =>
    obtain ⟨key, value⟩ := o
    have hsplit : past ++ (key, value) :: l = (past ++ [(key, value)]) ++ l := by simp
    by_cases hfirst : ∃ first, valuesOf key past = [first] ∧ Boolean first
    · obtain ⟨first, hpast, hbool⟩ := hfirst
      have hclash : Clashing (past ++ (key, value) :: l) key := by
        refine ⟨first, value, valuesOf key l, ?_, hbool⟩
        rw [valuesOf_append, valuesOf_cons_self, hpast]
        rfl
      rw [h.throws hpast hbool]
      exact ⟨iff_of_false Bool.false_ne_true fun hnone => hnone key hclash, fun h => nomatch h⟩
    · obtain ⟨hasKey', m', hround, hseen⟩ := @Seen.exists_round key value l past hasKey m h
        fun first hpast hbool => hfirst ⟨first, hpast, hbool⟩
      rw [hround, hsplit]
      exact ih hseen

theorem collect_iff : (collect [] {} l).2 = true ↔ ∀ key, ¬ Clashing l key := (collect_spec seen_nil).1

theorem collect_false_iff : (collect [] {} l).2 = false ↔ ∃ key, Clashing l key := by
  rw [← Bool.not_eq_true, collect_iff]
  exact not_forall_not

/-- The loop throws at the second value of the first option that clashes. -/
theorem throwsAt_iff : ThrowsAt key options ↔ ∃ pre value post first,
    options = pre ++ (key, value) :: post ∧ valuesOf key pre = [first] ∧ Boolean first ∧
      ∀ other, ¬ Clashing pre other := by
  constructor
  · rintro ⟨pre, value, post, heq, hbefore, hafter⟩
    have hclear := collect_iff.mp hbefore
    obtain ⟨other, hclash⟩ := collect_false_iff.mp hafter
    obtain ⟨-, first, hvalues, hbool⟩ := hclash.of_snoc (hclear other)
    exact ⟨pre, value, post, first, heq, hvalues, hbool, hclear⟩
  · rintro ⟨pre, value, post, first, heq, hvalues, hbool, hclear⟩
    refine ⟨pre, value, post, heq, collect_iff.mpr hclear, collect_false_iff.mpr ⟨key, ?_⟩⟩
    refine ⟨first, value, [], ?_, hbool⟩
    rw [valuesOf_append, hvalues, valuesOf_singleton, if_pos rfl]
    rfl

/-- The options before the first value of an option. -/
theorem exists_first {first : String} {rest : List String} (h : valuesOf key options = first :: rest) :
    ∃ pre post, options = pre ++ (key, first) :: post ∧ valuesOf key pre = [] ∧
      valuesOf key post = rest := by
  obtain ⟨o, os, hfilter, rfl, hrest⟩ := List.map_eq_cons_iff.mp h
  obtain ⟨pre, post, rfl, hpre, hkey, hpost⟩ := List.filter_eq_cons_iff.mp hfilter
  obtain ⟨other, first⟩ := o
  obtain rfl : other = key := of_decide_eq_true hkey
  refine ⟨pre, post, rfl, ?_, by rw [valuesOf, hpost, hrest]⟩
  rw [valuesOf, List.filter_eq_nil_iff.mpr hpre]
  rfl

theorem exists_second {first second : String} {rest : List String}
    (h : valuesOf key options = first :: second :: rest) :
    ∃ pre post, options = pre ++ (key, second) :: post ∧ valuesOf key pre = [first] := by
  obtain ⟨pre, post, rfl, hpre, hpost⟩ := exists_first h
  obtain ⟨pre', post', rfl, hpre', -⟩ := exists_first hpost
  refine ⟨pre ++ (key, first) :: pre', post', by simp, ?_⟩
  rw [valuesOf_append, hpre, valuesOf_cons_self, hpre']
  rfl

theorem Stopped.not_throwsAt (h : Stopped key options) : ¬ ThrowsAt key options := by
  obtain ⟨pre, value, post, rfl, hone, other, hclash⟩ := h
  rw [throwsAt_iff]
  rintro ⟨pre', value', post', first, heq, hvalues, -, hclear⟩
  rcases List.append_eq_append_iff.mp heq with ⟨l, rfl, -⟩ | ⟨l, rfl, hl⟩
  · exact hclear other hclash.append
  · cases l with
    | nil =>
      rw [List.append_nil] at hclash
      exact hclear other hclash
    | cons o l =>
      -- the loop that throws has come to the second value before
      obtain ⟨rfl, -⟩ := List.cons.inj hl
      rw [valuesOf_append, hvalues, valuesOf_cons_self] at hone
      simp at hone

theorem not_throwsAt_iff {first second : String} {rest : List String}
    (h : valuesOf key options = first :: second :: rest) :
    ¬ ThrowsAt key options ↔ (Boolean first → Stopped key options) := by
  constructor
  · intro hnot hbool
    obtain ⟨pre, post, heq, hvalues⟩ := exists_second h
    refine ⟨pre, second, post, heq, by rw [hvalues]; rfl, ?_⟩
    by_contra hclear
    exact hnot (throwsAt_iff.mpr ⟨pre, second, post, first, heq, hvalues, hbool, not_exists.mp hclear⟩)
  · intro hstopped hthrows
    obtain ⟨pre, value, post, first', heq, hvalues, hbool, -⟩ := throwsAt_iff.mp hthrows
    rw [heq, valuesOf_append, hvalues, List.singleton_append] at h
    obtain ⟨rfl, -⟩ := List.cons.inj h
    exact (hstopped hbool).not_throwsAt hthrows

end Collect

/-! ## Loads -/

/-- The value that the command line gives to an option that is not described. It takes the place of
those of the file. -/
def lineValue (env : Env) (key : String) : Option Unregistered :=
  (setUnregistered {} (commandLineOptions env)).get key

/-- The load does not throw at a value of the option, and has all its values in a list when it has gone
through the options of the file. -/
structure Keeps (env : Env) (c : Config) (configfile text port : String)
    (options : List (String × String)) (key : String) : Prop where
  quiet : ¬ ThrowsAt key (undescribed (complete env port options))
  stored : (collectFile (complete env port options)).2 = true →
    (c.load env configfile (some text) port).1.unregistered.get key =
      (lineValue env key).or (some (.list (valuesOf key options)))

section Loading

variable {env : Env} {c : Config} {configfile text port key : String} {options : List (String × String)}
  {m : SortedMap String Unregistered} {os : List Parsed}

theorem get_setUnregistered : (setUnregistered m os).get key =
    ((setUnregistered {} os).get key).or (m.get key) := by
  induction os generalizing m with
  | nil => rfl
  | cons o os ih =>
    have hfirst : (setUnregistered m [o]).get key =
        ((setUnregistered {} [o]).get key).or (m.get key) := by
      simp only [setUnregistered, List.foldl_cons, List.foldl_nil]
      split
      · split
        · rw [SortedMap.get_set, SortedMap.get_set]
          split
          · rfl
          · rfl
        · rfl
      · rfl
    have hcons : ∀ m', setUnregistered m' (o :: os) = setUnregistered (setUnregistered m' [o]) os :=
      fun m' => rfl
    rw [hcons, hcons, @ih (setUnregistered m [o]), @ih (setUnregistered {} [o]), hfirst, Option.or_assoc]

theorem loadCommandLine_unregistered (c : Config) : (c.loadCommandLine env).1.unregistered =
    setUnregistered c.unregistered (commandLineOptions env) := by
  unfold Config.loadCommandLine commandLineOptions
  cases env.commandLine with
  | absent => rfl
  | throws => rfl
  | options os => rfl

/-- A load that has gone through the options of the file keeps them, whatever comes next. -/
theorem load_unregistered (hfile : configfile ≠ "") (hparse : env.parse text = some options)
    (hcollect : (collectFile (complete env port options)).2 = true) :
    (c.load env configfile (some text) port).1.unregistered =
      setUnregistered (collectFile (complete env port options)).1 (commandLineOptions env) := by
  have hline := @loadCommandLine_unregistered env
    { c with file := configfile, unregistered := (collectFile (complete env port options)).1 }
  rw [Config.load, if_neg hfile, Config.loadStream, hparse]
  cases hc : collectFile (complete env port options) with
  | mk m ok =>
    rw [hc] at hcollect hline
    obtain rfl : ok = true := hcollect
    simp only [hc]
    split
    · rename_i c₁ heq
      rw [heq] at hline
      exact hline
    · rename_i c₁ o _ heq
      rw [heq] at hline
      exact hline

/-- When the loop throws, the load does. -/
theorem load_thrown (hfile : configfile ≠ "") (hparse : env.parse text = some options)
    (hcollect : (collectFile (complete env port options)).2 = false) :
    (c.load env configfile (some text) port).2 = .thrown := by
  rw [Config.load, if_neg hfile, Config.loadStream, hparse]
  cases hc : collectFile (complete env port options) with
  | mk m ok =>
    rw [hc] at hcollect
    obtain rfl : ok = false := hcollect
    simp only [hc]

theorem isDescribed_own : ∀ key ∈ ["service.jid", "service.working_dir", "service.pidfile",
    "service.portfile", "service.backend_port", "database.database"], isDescribed key = true := by
  decide +kernel

theorem adjust_fst (o : String × String) : (adjust env port o).1 = o.1 := by
  unfold adjust
  split
  · rfl
  · split
    · rfl
    · rfl

theorem adjust_of_undescribed {o : String × String} (h : isDescribed o.1 = false) :
    adjust env port o = o := by
  have hne : ∀ key ∈ ["service.jid", "service.working_dir", "service.pidfile",
      "service.portfile", "service.backend_port", "database.database"], o.1 ≠ key := by
    rintro key hmem rfl
    rw [isDescribed_own _ hmem] at h
    cases h
  rw [adjust, if_neg fun hjid => hne "service.jid" (by simp) hjid.1,
    if_neg fun hport => hne "service.backend_port" (by simp) hport.1]

theorem load_thrown_of_throwsAt (hfile : configfile ≠ "") (hparse : env.parse text = some options)
    (h : ThrowsAt key (undescribed (complete env port options))) :
    (c.load env configfile (some text) port).2 = .thrown := by
  obtain ⟨pre, value, post, first, heq, hvalues, hbool, -⟩ := throwsAt_iff.mp h
  refine load_thrown hfile hparse (collect_false_iff.mpr ⟨key, first, value, valuesOf key post, ?_, hbool⟩)
  rw [← undescribed, heq, valuesOf_append, hvalues, valuesOf_cons_self]
  rfl

/-- What is changed and added are options that are described. -/
theorem undescribed_complete : undescribed (complete env port options) = undescribed options := by
  have hadded : undescribed ((added port).filter fun o => decide (o.1 ∉ options.map Prod.fst)) = [] := by
    refine List.filter_eq_nil_iff.mpr fun o ho => ?_
    have hmem : o.1 ∈ (added port).map Prod.fst := List.mem_map_of_mem (List.mem_filter.mp ho).1
    rw [isDescribed_own o.1 (List.mem_cons_of_mem "service.jid" hmem)]
    exact Bool.false_ne_true
  have hkey : ((fun o => !isDescribed o.1) ∘ adjust env port) = fun o => !isDescribed o.1 := by
    funext o
    rw [Function.comp_apply, adjust_fst]
  rw [complete, undescribed, List.filter_append]
  refine (congrArg (_ ++ ·) hadded).trans ?_
  rw [List.append_nil, List.filter_map, hkey]
  refine (List.map_congr_left fun o ho => ?_).trans (List.map_id _)
  exact adjust_of_undescribed (by simpa using (List.mem_filter.mp ho).2)

theorem valuesOf_undescribed (options : List (String × String)) (hkey : isDescribed key = false) :
    valuesOf key (undescribed options) = valuesOf key options := by
  rw [valuesOf, undescribed, List.filter_filter, valuesOf]
  refine congrArg (List.map Prod.snd) (List.filter_congr fun o _ => ?_)
  by_cases heq : o.1 = key
  · simp [heq, hkey]
  · simp [heq]

/-- All values of an option that is given several times are kept, unless the first one is taken for a
`bool`. -/
theorem keeps_iff (hfile : configfile ≠ "") (hparse : env.parse text = some options)
    (hkey : isDescribed key = false) (htwice : 2 ≤ (valuesOf key options).length) :
    Keeps env c configfile text port options key ↔
      ∀ first ∈ (valuesOf key options).head?, Boolean first → Stopped key (undescribed options) := by
  have hvalues := valuesOf_undescribed options hkey
  cases hlist : valuesOf key options with
  | nil =>
    rw [hlist] at htwice
    simp at htwice
  | cons first more =>
    cases more with
    | nil =>
      rw [hlist] at htwice
      simp at htwice
    | cons second rest =>
      rw [hlist] at hvalues
      have hquiet := not_throwsAt_iff hvalues
      have hstored : (collectFile (complete env port options)).2 = true →
          (c.load env configfile (some text) port).1.unregistered.get key =
            (lineValue env key).or (some (.list (valuesOf key options))) := by
        intro hcollect
        rw [load_unregistered hfile hparse hcollect, get_setUnregistered, lineValue]
        refine congrArg (Option.or _) ?_
        have hentry := (collect_spec seen_nil).2 hcollect key
        rw [List.nil_append] at hentry
        refine hentry.trans ?_
        rw [← undescribed, undescribed_complete, hvalues, hlist]
        rfl
      constructor
      · rintro hkeeps first' hfirst hbool
        rw [List.head?_cons, Option.mem_some_iff] at hfirst
        subst hfirst
        have hthrows := hkeeps.quiet
        rw [undescribed_complete] at hthrows
        exact hquiet.mp hthrows hbool
      · intro hcondition
        refine ⟨?_, hstored⟩
        rw [undescribed_complete]
        exact hquiet.mpr (hcondition first rfl)

end Loading

namespace Sample

/-- A file with two servers. -/
def servers (first : String) : String :=
  "service.irc_server = " ++ first ++ "\nservice.irc_server=localhost\n"

def serverOptions (first : String) : List (String × String) :=
  [("service.irc_server", first), ("service.irc_server", "localhost")]

/-- The parser on the two files. -/
def serverEnv : Configuration.Env where
  parse file :=
    if file = servers "irc.freenode.org" then some (serverOptions "irc.freenode.org")
    else if file = servers "1" then some (serverOptions "1")
    else none

theorem parse_servers : serverEnv.parse (servers "irc.freenode.org") =
    some (serverOptions "irc.freenode.org") ∧ serverEnv.parse (servers "1") = some (serverOptions "1") := by
  decide +kernel

end Sample

open Configuration.Sample in
theorem keeps_iff_servers : Keeps serverEnv {} "spectrum.cfg" (servers "irc.freenode.org") "30001"
    (serverOptions "irc.freenode.org") "service.irc_server" := by
  refine (keeps_iff (by decide) parse_servers.1 (by decide +kernel) (by decide +kernel)).mpr ?_
  intro first hfirst hbool
  obtain rfl : "irc.freenode.org" = first := Option.some_inj.mp hfirst
  exact absurd hbool (by decide)

open Configuration.Sample in
/-- A first value that is taken for a `bool`. -/
theorem not_keeps_one : ¬ ∀ env c configfile text port options key, configfile ≠ "" →
    env.parse text = some options → isDescribed key = false → 2 ≤ (valuesOf key options).length →
      Keeps env c configfile text port options key := by
  intro h
  have hkeeps := h serverEnv {} "spectrum.cfg" (servers "1") "30001" (serverOptions "1")
    "service.irc_server" (by decide) parse_servers.2 (by decide +kernel) (by decide +kernel)
  refine hkeeps.quiet ?_
  rw [undescribed_complete]
  exact ⟨[("service.irc_server", "1")], "localhost", [], by decide +kernel, by decide +kernel,
    by decide +kernel⟩

end Spectrum.Configuration
