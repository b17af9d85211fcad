import Spectrum.Configuration.Load

/-!
# Loading the configuration again

`reload` stores the options of the file over the variables of the first load. `store` does not touch
an option that has got its value from the first file, so a successful reload gives the values of a
fresh load only if these options have not changed. A reload that fails has lost the options that are
not described, and may have stored a part of the others.
-/

namespace Spectrum.Configuration

open Lib ProgramOptions

section Definitions

variable (env : Env)

/-- The file names the port of the backend. -/
def FixedPort (options : List (String × String)) : Prop :=
  ∃ o ∈ options, o.1 = "service.backend_port" ∧ o.2 ≠ "0"

/-- Both have the same values, a random port aside. -/
structure SameValues (options : List (String × String)) (c c' : Config) : Prop where
  vars : ∀ key, (key = "service.backend_port" → FixedPort options) →
    c.vars.valueOf key = c'.vars.valueOf key
  unregistered : ∀ key, c.unregistered.get key = c'.unregistered.get key

/-- No option has another value. -/
structure Unchanged (c c' : Config) : Prop where
  vars : ∀ key, c'.vars.valueOf key = c.vars.valueOf key
  unregistered : ∀ key, c'.unregistered.get key = c.unregistered.get key

/-- A reload that succeeds gives the values of a fresh load, and one that fails changes nothing. -/
def Transactional (c : Config) (contents : Option String) (port : String) : Prop :=
  match c.reload env contents port with
  | (c', .loaded) => ∃ text options fresh, contents = some text ∧ env.parse text = some options ∧
    ({} : Config).load env c.file contents port = (fresh, .loaded) ∧ SameValues options c' fresh
  | (c', .refused) | (c', .thrown) => Unchanged c c'

def commandLineOptions : List Parsed :=
  match env.commandLine with
  | .options options => options
  | .absent | .throws => []

/-- The options that are given on the command line. -/
def commandLineKeys : List String := described opts (commandLineOptions env)

/-- The options that are not described, of a file and of the command line. -/
def unregisteredOf (port : String) (options : List (String × String)) :
    SortedMap String Unregistered :=
  setUnregistered (collectFile (complete env port options)).1 (commandLineOptions env)

/-- The options that the first file gives have the same value in the second one, the values that
`load` adds included, and the second file can be stored. -/
def Agrees (port₁ : String) (options₁ : List (String × String)) (port : String)
    (options : List (String × String)) : Prop :=
  Accepted opts (commandLineKeys env) (fileOptions env port options) ∧
    ∀ key ∈ described opts (fileOptions env port₁ options₁), key ∉ commandLineKeys env →
      (key = "service.backend_port" → FixedPort options) →
        valueIn opts (fileOptions env port₁ options₁) key =
          valueIn opts (fileOptions env port options) key

/-- The condition on the two files, after the first one was loaded. -/
def Compatible (port₁ : String) (options₁ : List (String × String)) (contents : Option String)
    (port : String) : Prop :=
  ∀ text, contents = some text →
    match env.parse text with
    | none => ∀ key, (unregisteredOf env port₁ options₁).get key = none
    | some options =>
      match collectFile (complete env port options) with
      | (m, false) => ∀ key, m.get key = (unregisteredOf env port₁ options₁).get key
      | (_, true) =>
        let kept := commandLineKeys env ++ described opts (fileOptions env port₁ options₁)
        (Accepted opts kept (fileOptions env port options) → Agrees env port₁ options₁ port options) ∧
        (¬ Accepted opts kept (fileOptions env port options) →
          (∀ key, (unregisteredOf env port options).get key =
            (unregisteredOf env port₁ options₁).get key) ∧
          Harmless opts kept (fileOptions env port options))

end Definitions

theorem opts_nodup : (opts.map Description.key).Nodup := by decide +kernel

section Loads

variable {env : Env} {c c' c₁ : Config} {os : List Parsed} {port port₁ text : String}
  {options options₁ : List (String × String)}

/-! ## The variables -/

theorem store_loaded_iff : (c.store os).2 = .loaded ↔ (ProgramOptions.store opts c.vars os).2 = none := by
  unfold Config.store
  simp only
  rcases (ProgramOptions.store opts c.vars os).2 with _ | _ | _
  · exact iff_of_true rfl rfl
  · exact iff_of_false (fun h => Outcome.noConfusion h) (Option.some_ne_none _)
  · exact iff_of_false (fun h => Outcome.noConfusion h) (Option.some_ne_none _)

/-- What a successful call of `store` leaves. -/
structure StoredOver (c : Config) (os : List Parsed) (c' : Config) : Prop where
  settled : c'.vars.Settled opts
  final : c'.vars.final = c.vars.final ++ described opts os
  value : ∀ key, c'.vars.valueOf key =
    if key ∈ c.vars.final then c.vars.valueOf key else valueIn opts os key
  default : ∀ key, key ∉ c'.vars.final →
    c'.vars.valueOf key = (describe opts key).bind Description.default
  unregistered : c'.unregistered = c.unregistered

theorem storedOver_of_loaded (h : c.vars.Settled opts) (hstore : c.store os = (c', .loaded)) :
    StoredOver c os c' := by
  have hnone := store_loaded_iff.mp (congrArg Prod.snd hstore)
  obtain ⟨hsettled, hfinal, hvalue⟩ := (h.store opts_nodup os).2 hnone
  obtain rfl : ({ c with vars := (ProgramOptions.store opts c.vars os).1 } : Config) = c' :=
    congrArg Prod.fst hstore
  exact ⟨hsettled, hfinal, hvalue, fun key hkey => h.valueOf_of_not_final opts_nodup hnone hkey, rfl⟩

theorem exists_store_loaded_iff (h : c.vars.Settled opts) :
    (∃ c', c.store os = (c', .loaded)) ↔ Accepted opts c.vars.final os := by
  rw [← (h.store opts_nodup os).1, ← store_loaded_iff]
  constructor
  · rintro ⟨c', hstore⟩
    exact congrArg Prod.snd hstore
  · intro hloaded
    exact ⟨_, Prod.ext rfl hloaded⟩

/-! ## The command line -/

/-- The command line is read in the same way whatever the file is. -/
theorem loadCommandLine_of_loaded {m : SortedMap String Unregistered}
    (h : ({ c with unregistered := m } : Config).loadCommandLine env = (c₁, .loaded))
    (m' : SortedMap String Unregistered) :
    ({ c with unregistered := m' } : Config).loadCommandLine env =
      ({ c₁ with unregistered := setUnregistered m' (commandLineOptions env) }, .loaded) := by
  unfold Config.loadCommandLine commandLineOptions at *
  cases hline : env.commandLine with
  | absent =>
    rw [hline] at h
    cases h
    rfl
  | throws =>
    rw [hline] at h
    cases h
  | options os =>
    rw [hline] at h
    obtain ⟨hc, ho⟩ := Prod.mk.inj h
    subst hc
    exact Prod.ext rfl ho

/-- What a command line leaves that can be read. -/
structure CommandLineOver (env : Env) (c c' : Config) : Prop where
  settled : c'.vars.Settled opts
  final : c'.vars.final = c.vars.final ++ commandLineKeys env
  old : ∀ key ∈ c.vars.final, c'.vars.valueOf key = c.vars.valueOf key
  given : ∀ key ∈ commandLineKeys env, key ∉ c.vars.final →
    c'.vars.valueOf key = valueIn opts (commandLineOptions env) key
  default : (∀ key, key ∉ c.vars.final →
      c.vars.valueOf key = (describe opts key).bind Description.default) →
    ∀ key, key ∉ c'.vars.final → c'.vars.valueOf key = (describe opts key).bind Description.default
  unregistered : c'.unregistered = setUnregistered c.unregistered (commandLineOptions env)

theorem commandLineOver_of_loaded (h : c.vars.Settled opts)
    (hline : c.loadCommandLine env = (c', .loaded)) : CommandLineOver env c c' := by
  unfold Config.loadCommandLine at hline
  cases hread : env.commandLine with
  | absent =>
    have hoptions : commandLineOptions env = [] := by rw [commandLineOptions, hread]
    have hkeys : commandLineKeys env = [] := by rw [commandLineKeys, hoptions]; rfl
    rw [hread] at hline
    cases hline
    refine ⟨h, ?_, fun key _ => rfl, fun key hkey => ?_, fun hdefault => hdefault, ?_⟩
    · rw [hkeys, List.append_nil]
    · rw [hkeys] at hkey
      cases hkey
    · rw [hoptions]
      rfl
  | throws =>
    rw [hread] at hline
    cases hline
  | options os =>
    have hoptions : commandLineOptions env = os := by rw [commandLineOptions, hread]
    rw [hread] at hline
    have hstored := storedOver_of_loaded (c := { c with
      unregistered := setUnregistered c.unregistered os }) h hline
    refine ⟨hstored.settled, ?_, fun key hkey => ?_, fun key _ hkey => ?_,
      fun _ => hstored.default, ?_⟩
    · rw [commandLineKeys, hoptions]
      exact hstored.final
    · rw [hstored.value, if_pos hkey]
    · rw [hstored.value, if_neg hkey, hoptions]
    · rw [hoptions]
      exact hstored.unregistered

/-- All options of the command line are final after a load, so they are passed over. -/
theorem loadCommandLine_again (h : c.vars.Settled opts) (hthrows : env.commandLine ≠ .throws)
    (hfinal : ∀ key ∈ commandLineKeys env, key ∈ c.vars.final) :
    ∃ c', c.loadCommandLine env = (c', .loaded) := by
  unfold Config.loadCommandLine
  cases hread : env.commandLine with
  | absent => exact ⟨c, rfl⟩
  | throws => exact absurd hread hthrows
  | options os =>
    have hkeys : commandLineKeys env = described opts os := by
      rw [commandLineKeys, commandLineOptions, hread]
    have hsettled : ({ c with unregistered := setUnregistered c.unregistered os } :
        Config).vars.Settled opts := h
    refine (exists_store_loaded_iff hsettled).mpr fun key d hkey hd => Or.inl ?_
    refine not_not.mp fun hocc => hkey (hfinal key ?_)
    rw [hkeys, mem_described_iff, hd]
    exact ⟨rfl, hocc⟩

/-! ## One load -/

theorem loadStream_of_collected {m : SortedMap String Unregistered}
    (hparse : env.parse text = some options)
    (hcollect : collectFile (complete env port options) = (m, true))
    (hline : ({ c with unregistered := m } : Config).loadCommandLine env = (c₁, .loaded)) :
    c.loadStream env text port = c₁.store (fileOptions env port options) := by
  unfold Config.loadStream
  rw [hparse]
  simp only [hcollect, hline]

/-- A load that succeeds has come to the last call of `store`. -/
theorem loaded_cases (h : c.loadStream env text port = (c', .loaded)) : ∃ options m c₁,
    env.parse text = some options ∧ collectFile (complete env port options) = (m, true) ∧
      ({ c with unregistered := m } : Config).loadCommandLine env = (c₁, .loaded) ∧
        c₁.store (fileOptions env port options) = (c', .loaded) := by
  unfold Config.loadStream at h
  split at h
  · cases h
  · rename_i options hparse
    split at h
    · cases h
    · rename_i m hcollect
      split at h
      · rename_i c₁ hline
        exact ⟨options, m, c₁, hparse, hcollect, hline, h⟩
      · rename_i c₁ o hnot hline
        cases h
        exact absurd rfl hnot

/-- The state after the first file was loaded. -/
structure Loaded (env : Env) (port : String) (options : List (String × String)) (c : Config) :
    Prop where
  settled : c.vars.Settled opts
  final : c.vars.final =
    commandLineKeys env ++ described opts (fileOptions env port options)
  value : ∀ key, c.vars.valueOf key =
    if key ∈ commandLineKeys env then valueIn opts (commandLineOptions env) key
    else valueIn opts (fileOptions env port options) key
  default : ∀ key, key ∉ c.vars.final →
    c.vars.valueOf key = (describe opts key).bind Description.default
  unregistered : c.unregistered = unregisteredOf env port options

theorem loaded_of_fresh {m : SortedMap String Unregistered} (hvars : c.vars = {})
    (hcollect : collectFile (complete env port options) = (m, true))
    (hline : ({ c with unregistered := m } : Config).loadCommandLine env = (c₁, .loaded))
    (hstore : c₁.store (fileOptions env port options) = (c', .loaded)) :
    Loaded env port options c' := by
  have hempty : ({ c with unregistered := m } : Config).vars.Settled opts := by
    have hsettled : c.vars.Settled opts := hvars ▸ settled_empty
    exact hsettled
  have hline' := commandLineOver_of_loaded hempty hline
  have hnone : ({ c with unregistered := m } : Config).vars.final = [] := by
    have hfinal : c.vars.final = [] := by rw [hvars]
    exact hfinal
  have hfinal := hline'.final
  rw [hnone, List.nil_append] at hfinal
  have hstored := storedOver_of_loaded hline'.settled hstore
  refine ⟨hstored.settled, ?_, fun key => ?_, hstored.default, ?_⟩
  · rw [hstored.final, hfinal]
  · rw [hstored.value, hfinal]
    split
    · rename_i hkey
      refine hline'.given key hkey ?_
      rw [hnone]
      exact List.not_mem_nil
    · rfl
  · rw [hstored.unregistered, hline'.unregistered, unregisteredOf, hcollect]

/-- A load from the start comes to the last call of `store` with the options of the command line
only. -/
theorem fresh_loaded_iff {m m₁ : SortedMap String Unregistered} {file : String} (hfile : file ≠ "")
    (hparse : env.parse text = some options)
    (hcollect : collectFile (complete env port options) = (m, true))
    (hline : ({ file, unregistered := m₁ } : Config).loadCommandLine env = (c₁, .loaded)) :
    ((∃ fresh, ({} : Config).load env file (some text) port = (fresh, .loaded)) ↔
        Accepted opts (commandLineKeys env) (fileOptions env port options)) ∧
      ∀ fresh, ({} : Config).load env file (some text) port = (fresh, .loaded) →
        Loaded env port options fresh := by
  have hfreshLine := @loadCommandLine_of_loaded env { file } c₁ m₁ hline m
  have hload : ({} : Config).load env file (some text) port =
      ({ c₁ with unregistered := setUnregistered m (commandLineOptions env) } : Config).store
        (fileOptions env port options) := by
    unfold Config.load
    rw [if_neg hfile]
    exact loadStream_of_collected hparse hcollect hfreshLine
  have hempty : ({ file, unregistered := m } : Config).vars.Settled opts := settled_empty
  have hover := commandLineOver_of_loaded hempty hfreshLine
  have haccepted := @exists_store_loaded_iff _ (fileOptions env port options) hover.settled
  rw [hover.final, List.nil_append] at haccepted
  rw [hload]
  exact ⟨haccepted, fun fresh hfresh =>
    loaded_of_fresh (c := { file }) rfl hcollect hfreshLine hfresh⟩

theorem loadCommandLine_file (c : Config) : (c.loadCommandLine env).1.file = c.file := by
  unfold Config.loadCommandLine
  split <;> rfl

theorem loadStream_file (c : Config) : (c.loadStream env text port).1.file = c.file := by
  unfold Config.loadStream
  split
  · rfl
  · split
    · rfl
    · rename_i m _
      have hfile := @loadCommandLine_file env { c with unregistered := m }
      split
      · rename_i c₁ hline
        rw [hline] at hfile
        exact hfile
      · rename_i c₁ o _ hline
        rw [hline] at hfile
        exact hfile

/-! ## The second load -/

/-- What a second load of `c` has come to before it stores the options of the file. -/
structure Reread (env : Env) (port : String) (options : List (String × String)) (c c₁ : Config) :
    Prop where
  settled : c₁.vars.Settled opts
  final : ∀ key, key ∈ c₁.vars.final ↔ key ∈ c.vars.final
  value : ∀ key, c₁.vars.valueOf key = c.vars.valueOf key
  default : ∀ key, key ∉ c₁.vars.final →
    c₁.vars.valueOf key = (describe opts key).bind Description.default
  unregistered : c₁.unregistered = unregisteredOf env port options

section Second

variable (h : Loaded env port₁ options₁ c)

include h

theorem mem_final_of_commandLine : ∀ key ∈ commandLineKeys env, key ∈ c.vars.final := by
  intro key hkey
  rw [h.final]
  exact List.mem_append_left _ hkey

/-- The command line does not change the variables any more. -/
theorem reread_of_commandLine {m : SortedMap String Unregistered}
    (hcollect : collectFile (complete env port options) = (m, true))
    (hline : ({ c with unregistered := m } : Config).loadCommandLine env = (c₁, .loaded)) :
    Reread env port options c c₁ := by
  have hsettled : ({ c with unregistered := m } : Config).vars.Settled opts := h.settled
  have hover := commandLineOver_of_loaded hsettled hline
  have hfinal : ∀ key, key ∈ c₁.vars.final ↔ key ∈ c.vars.final := by
    intro key
    rw [hover.final, List.mem_append]
    exact or_iff_left_of_imp (mem_final_of_commandLine h key)
  have hdefault := hover.default h.default
  refine ⟨hover.settled, hfinal, fun key => ?_, hdefault, ?_⟩
  · by_cases hkey : key ∈ c.vars.final
    · exact hover.old key hkey
    · rw [hdefault key (mt (hfinal key).mp hkey), h.default key hkey]
  · rw [hover.unregistered, unregisteredOf, hcollect]

/-- The second file can be stored: the values of the first one are kept. -/
theorem sameValues_iff_of_stored {fresh : Config} (hreread : Reread env port options c c₁)
    (hover : StoredOver c₁ (fileOptions env port options) c')
    (hfresh : Loaded env port options fresh) :
    SameValues options c' fresh ↔
      ∀ key ∈ described opts (fileOptions env port₁ options₁), key ∉ commandLineKeys env →
        (key = "service.backend_port" → FixedPort options) →
          valueIn opts (fileOptions env port₁ options₁) key =
            valueIn opts (fileOptions env port options) key := by
  have hkept : ∀ key, c'.vars.valueOf key = if key ∈ c.vars.final then c.vars.valueOf key
      else valueIn opts (fileOptions env port options) key := by
    intro key
    rw [hover.value, hreread.value]
    exact if_congr (hreread.final key) rfl rfl
  constructor
  · intro hsame key hkey hline hport
    have hmem : key ∈ c.vars.final := by
      rw [h.final]
      exact List.mem_append_right _ hkey
    have hvars := hsame.vars key hport
    rw [hkept, if_pos hmem, h.value, if_neg hline, hfresh.value, if_neg hline] at hvars
    exact hvars
  · intro hagrees
    refine ⟨fun key hport => ?_, fun key => ?_⟩
    · rw [hkept, hfresh.value]
      by_cases hline : key ∈ commandLineKeys env
      · rw [if_pos hline, if_pos (mem_final_of_commandLine h key hline), h.value, if_pos hline]
      · rw [if_neg hline]
        split
        · rename_i hmem
          rw [h.final, List.mem_append] at hmem
          rw [h.value, if_neg hline]
          exact hagrees key (hmem.resolve_left hline) hline hport
        · rfl
    · rw [hover.unregistered, hreread.unregistered, hfresh.unregistered]

/-- A reload that throws before it stores anything has changed the options that are not described. -/
theorem transactional_iff_of_thrown {contents : Option String} {m : SortedMap String Unregistered}
    (hreload : c.reload env contents port = ({ c with unregistered := m }, .thrown)) :
    Transactional env c contents port ↔
      ∀ key, m.get key = (unregisteredOf env port₁ options₁).get key := by
  unfold Transactional
  rw [hreload, ← h.unregistered]
  exact ⟨fun hsame => hsame.unregistered, fun hsame => ⟨fun _ => rfl, hsame⟩⟩

/-- The second file can be stored over the values of the first one. -/
theorem transactional_iff_agrees (hreread : Reread env port options c c₁)
    (hreload : c.reload env (some text) port = c₁.store (fileOptions env port options))
    (hparse : env.parse text = some options)
    (hloads : (∃ fresh, ({} : Config).load env c.file (some text) port = (fresh, .loaded)) ↔
      Accepted opts (commandLineKeys env) (fileOptions env port options))
    (hloaded : ∀ fresh, ({} : Config).load env c.file (some text) port = (fresh, .loaded) →
      Loaded env port options fresh)
    (haccepted : Accepted opts c.vars.final (fileOptions env port options)) :
    Transactional env c (some text) port ↔ Agrees env port₁ options₁ port options := by
  obtain ⟨c', hstore⟩ := (exists_store_loaded_iff hreread.settled).mpr
    ((accepted_congr fun key => (hreread.final key).symm).mp haccepted)
  have hover := storedOver_of_loaded hreread.settled hstore
  unfold Transactional
  rw [hreload, hstore]
  simp only
  constructor
  · rintro ⟨text', options', fresh, htext, hparse', hfresh, hsame⟩
    cases htext
    cases hparse.symm.trans hparse'
    exact ⟨hloads.mp ⟨fresh, hfresh⟩,
      (sameValues_iff_of_stored h hreread hover (hloaded fresh hfresh)).mp hsame⟩
  · rintro ⟨hline, hsame⟩
    obtain ⟨fresh, hfresh⟩ := hloads.mpr hline
    exact ⟨text, options, fresh, rfl, hparse, hfresh,
      (sameValues_iff_of_stored h hreread hover (hloaded fresh hfresh)).mpr hsame⟩

/-- The second file cannot be stored over the values of the first one. -/
theorem transactional_iff_harmless (hreread : Reread env port options c c₁)
    (hreload : c.reload env (some text) port = c₁.store (fileOptions env port options))
    (haccepted : ¬ Accepted opts c.vars.final (fileOptions env port options)) :
    Transactional env c (some text) port ↔
      (∀ key, (unregisteredOf env port options).get key =
        (unregisteredOf env port₁ options₁).get key) ∧
      Harmless opts c.vars.final (fileOptions env port options) := by
  have hsame : ∀ key, key ∈ c.vars.final ↔ key ∈ c₁.vars.final := fun key => (hreread.final key).symm
  have hnot : ¬ Accepted opts c₁.vars.final (fileOptions env port options) :=
    mt (accepted_congr hsame).mpr haccepted
  have hfailed : Transactional env c (some text) port ↔
      Unchanged c (c₁.store (fileOptions env port options)).1 := by
    unfold Transactional
    rw [hreload]
    split
    · rename_i c' hstore
      exact absurd ((exists_store_loaded_iff hreread.settled).mp ⟨c', hstore⟩) hnot
    · rename_i c' hstore
      rw [hstore]
    · rename_i c' hstore
      rw [hstore]
  have hharmless := hreread.settled.unchanged_iff_harmless hreread.default hnot
  rw [hfailed]
  constructor
  · intro hkept
    refine ⟨fun key => ?_, ?_⟩
    · rw [← hreread.unregistered, ← h.unregistered]
      exact hkept.unregistered key
    · refine Harmless.of_same hreread.final (hharmless.mp fun key => ?_)
      rw [hreread.value]
      exact hkept.vars key
  · rintro ⟨hmaps, hstop⟩
    refine ⟨fun key => ?_, fun key => ?_⟩
    · rw [← hreread.value]
      exact hharmless.mpr (hstop.of_same hsame) key
    · rw [h.unregistered, ← hmaps, ← hreread.unregistered]
      rfl

/-- The options of a second file that are not described are read to the end. -/
theorem transactional_iff_of_collected {m m₁ : SortedMap String Unregistered} {c₂ : Config}
    (hfile : c.file ≠ "") (hparse : env.parse text = some options)
    (hcollect : collectFile (complete env port options) = (m, true))
    (hline : ({ file := c.file, unregistered := m₁ } : Config).loadCommandLine env = (c₂, .loaded)) :
    Transactional env c (some text) port ↔
      (Accepted opts c.vars.final (fileOptions env port options) →
        Agrees env port₁ options₁ port options) ∧
      (¬ Accepted opts c.vars.final (fileOptions env port options) →
        (∀ key, (unregisteredOf env port options).get key =
          (unregisteredOf env port₁ options₁).get key) ∧
        Harmless opts c.vars.final (fileOptions env port options)) := by
  have hthrows : env.commandLine ≠ .throws := by
    intro hthrows
    rw [Config.loadCommandLine, hthrows] at hline
    cases hline
  have hsettled : ({ c with unregistered := m } : Config).vars.Settled opts := h.settled
  have hkeys := mem_final_of_commandLine h
  obtain ⟨c₁, hagain⟩ := @loadCommandLine_again env { c with unregistered := m } hsettled hthrows hkeys
  have hreread := reread_of_commandLine h hcollect hagain
  have hreload : c.reload env (some text) port = c₁.store (fileOptions env port options) := by
    unfold Config.reload Config.load
    rw [if_neg hfile, if_neg hfile]
    exact loadStream_of_collected hparse hcollect hagain
  obtain ⟨hloads, hloaded⟩ := fresh_loaded_iff hfile hparse hcollect hline
  by_cases haccepted : Accepted opts c.vars.final (fileOptions env port options)
  · rw [transactional_iff_agrees h hreread hreload hparse hloads hloaded haccepted]
    exact ⟨fun hall => ⟨fun _ => hall, fun hnot => absurd haccepted hnot⟩, fun hall => hall.1 haccepted⟩
  · rw [transactional_iff_harmless h hreread hreload haccepted]
    exact ⟨fun hall => ⟨fun hyes => absurd hyes haccepted, fun _ => hall⟩,
      fun hall => hall.2 haccepted⟩

end Second

end Loads

/-- What the first load leaves. -/
theorem loaded_of_load {env : Env} {file text₁ port₁ : String} {options₁ : List (String × String)}
    {c : Config} (hparse₁ : env.parse text₁ = some options₁)
    (h : ({} : Config).load env file (some text₁) port₁ = (c, .loaded)) :
    Loaded env port₁ options₁ c ∧ c.file ≠ "" ∧ ∃ m c₂,
      ({ file := c.file, unregistered := m } : Config).loadCommandLine env = (c₂, .loaded) := by
  unfold Config.load at h
  split at h
  · cases h
  · rename_i hname
    simp only at h
    have hfile : c.file = file := by
      have hkept := @loadStream_file env port₁ text₁ { file }
      rw [h] at hkept
      exact hkept
    obtain ⟨options, m, c₂, hparse, hcollect, hline, hstore⟩ := loaded_cases h
    cases hparse₁.symm.trans hparse
    have hloaded := loaded_of_fresh (c := { file }) rfl hcollect hline hstore
    rw [← hfile] at hname hline
    exact ⟨hloaded, hname, m, c₂, hline⟩

theorem transactional_iff_of_loaded {env : Env} {port₁ : String} {options₁ : List (String × String)}
    {c c₂ : Config} {m : SortedMap String Unregistered} (h : Loaded env port₁ options₁ c)
    (hname : c.file ≠ "")
    (hline : ({ file := c.file, unregistered := m } : Config).loadCommandLine env = (c₂, .loaded))
    (contents : Option String) (port : String) :
    Transactional env c contents port ↔ Compatible env port₁ options₁ contents port := by
  cases contents with
  | none =>
    have hreload : c.reload env none port = (c, .refused) := by
      unfold Config.reload Config.load
      rw [if_neg hname, if_neg hname]
    unfold Transactional Compatible
    rw [hreload]
    refine iff_of_true ⟨fun _ => rfl, fun _ => rfl⟩ fun text hnone => ?_
    cases hnone
  | some text =>
    have hreload : c.reload env (some text) port = c.loadStream env text port := by
      unfold Config.reload Config.load
      rw [if_neg hname, if_neg hname]
    unfold Compatible
    simp only [Option.some.injEq, forall_eq', ← h.final]
    cases hread : env.parse text with
    | none =>
      have hthrown : c.loadStream env text port = ({ c with unregistered := {} }, .thrown) := by
        unfold Config.loadStream
        rw [hread]
      rw [transactional_iff_of_thrown h (hreload.trans hthrown)]
      exact forall_congr' fun key => eq_comm
    | some options =>
      simp only
      rcases hcollect : collectFile (complete env port options) with ⟨m', ok⟩
      cases ok with
      | false =>
        have hthrown : c.loadStream env text port = ({ c with unregistered := m' }, .thrown) := by
          unfold Config.loadStream
          rw [hread]
          simp only [hcollect]
        exact transactional_iff_of_thrown h (hreload.trans hthrown)
      | true => exact transactional_iff_of_collected h hname hread hcollect hline

/-- After the first file was loaded, loading the second one is transactional exactly if the files are
compatible. -/
theorem transactional_iff_compatible (env : Env) {file text₁ port₁ : String}
    {options₁ : List (String × String)} {c : Config} (hparse₁ : env.parse text₁ = some options₁)
    (h : ({} : Config).load env file (some text₁) port₁ = (c, .loaded)) (contents : Option String)
    (port : String) :
    Transactional env c contents port ↔ Compatible env port₁ options₁ contents port := by
  obtain ⟨hloaded, hname, m, c₂, hline⟩ := loaded_of_load hparse₁ h
  exact transactional_iff_of_loaded hloaded hname hline contents port

namespace Sample

def text (server : String) : String := "[service]\njid=localhost\nserver=" ++ server ++ "\n"

def options (server : String) : List (String × String) :=
  [("service.jid", "localhost"), ("service.server", server)]

/-- The parser on the files of the examples. -/
def env : Env where
  parse file :=
    if file = text "a.example.com" then some (options "a.example.com")
    else if file = text "b.example.com" then some (options "b.example.com")
    else none

def config : Config := (({} : Config).load env "spectrum.cfg" (some (text "a.example.com")) "30001").1

theorem load_config :
    ({} : Config).load env "spectrum.cfg" (some (text "a.example.com")) "30001" =
      (config, .loaded) := by
  have hloaded : (({} : Config).load env "spectrum.cfg" (some (text "a.example.com")) "30001").2 =
      .loaded := by
    decide +kernel
  exact Prod.ext rfl hloaded

theorem parse_files : env.parse (text "a.example.com") = some (options "a.example.com") ∧
    env.parse (text "b.example.com") = some (options "b.example.com") ∧
      env.parse "[service" = none := by
  decide +kernel

end Sample

open Configuration.Sample in
/-- A file that cannot be parsed after one without options that are not described. -/
theorem transactional_iff_compatible_broken :
    Transactional env config (some "[service") "30002" := by
  obtain ⟨hfirst, -, hbroken⟩ := parse_files
  refine (transactional_iff_compatible env hfirst load_config _ _).mpr fun file hfile => ?_
  cases hfile
  rw [hbroken]
  have hnone : unregisteredOf env "30001" (options "a.example.com") = {} := by
    have hentries : (unregisteredOf env "30001" (options "a.example.com")).entries = [] := by
      decide +kernel
    rcases hmap : unregisteredOf env "30001" (options "a.example.com") with ⟨entries, sorted⟩
    rw [hmap] at hentries
    cases hentries
    rfl
  intro key
  rw [hnone]
  rfl

open Configuration.Sample in
/-- The server of the second file is not used. -/
theorem not_transactional_of_server : ¬ ∀ env file text port c contents port',
    ({} : Config).load env file (some text) port = (c, .loaded) →
      Transactional env c contents port' := by
  intro h
  have htransactional := h env "spectrum.cfg" (text "a.example.com") "30001" config
    (some (text "b.example.com")) "30002" load_config
  obtain ⟨hfirst, hsecond, -⟩ := parse_files
  obtain ⟨hloaded, hname, m, c₂, hline⟩ := loaded_of_load hfirst load_config
  have hcompatible := (transactional_iff_of_loaded hloaded hname hline _ _).mp htransactional _ rfl
  rw [hsecond] at hcompatible
  simp only at hcompatible
  have hcollect : (collectFile (complete env "30002" (options "b.example.com"))).2 = true := by
    decide +kernel
  rcases hread : collectFile (complete env "30002" (options "b.example.com")) with ⟨m', ok⟩
  rw [hread] at hcollect hcompatible
  cases hcollect
  -- All options of the second file are final.
  have hkept : ∀ key ∈ (fileOptions env "30002" (options "b.example.com")).map Parsed.key,
      key ∈ commandLineKeys env ++
        described opts (fileOptions env "30001" (options "a.example.com")) := by
    decide +kernel
  have hagrees := hcompatible.1 fun key d hkey _ =>
    Or.inl (not_not.mp fun hocc => hkey (hkept key (occurrences_ne_nil_iff.mp hocc)))
  have hserver := hagrees.2 "service.server" (by decide +kernel) (by decide +kernel)
    fun hport => absurd hport (by decide +kernel)
  exact absurd hserver (by decide +kernel)

end Spectrum.Configuration
