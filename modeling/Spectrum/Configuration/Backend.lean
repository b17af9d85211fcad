import Spectrum.Configuration.Reload
import Spectrum.Lib.ConfigFile

/-!
# The configuration of the backend

A C++ backend describes itself with `NetworkPlugin::sendConfig`, and every time it does the transport
stores the text in `m_backendConfig`. Every backend process sends its own text. boost's parser is a
parameter, of which `Reads` is known.

* `inForce_of_updates`: whatever the later backends send, the options of the first one are in force.
  Only the extra fields of the registration form can come later.
-/

namespace Spectrum.Configuration

open Lib ProgramOptions ConfigFile

/-! ## The plugin -/

/-- `NetworkPlugin::PluginConfig`. -/
structure PluginConfig where
  needPassword : Bool := true
  needRegistration : Bool := true
  supportMuc : Bool := false
  rawXml : Bool := false
  disableJidEscaping : Bool := false
  extraFields : List String := []
  deriving DecidableEq, Repr

def flag (b : Bool) : String := if b then "1" else "0"

/-- `NetworkPlugin::sendConfig`. -/
def sendConfig (cfg : PluginConfig) : String :=
  let data := "[registration]\n"
  let data := data ++ ("needPassword=" ++ flag cfg.needPassword ++ "\n")
  let data := data ++ ("needRegistration=" ++ flag cfg.needRegistration ++ "\n")
  let data := cfg.extraFields.foldl (fun data field => data ++ ("extraField=" ++ field ++ "\n")) data
  let data := data ++ "[features]\n"
  let data := data ++ ("muc=" ++ flag cfg.supportMuc ++ "\n")
  let data := data ++ ("rawxml=" ++ flag cfg.rawXml ++ "\n")
  data ++ ("disable_jid_escaping=" ++ flag cfg.disableJidEscaping ++ "\n")

/-! ## The transport -/

/-- The options of `updateBackendConfig`. -/
def backendOpts : List Description := [
  bool "registration.needPassword" true,
  bool "registration.needRegistration" true,
  strings "registration.extraField",
  bool "features.receipts" false,
  bool "features.muc" false,
  bool "features.rawxml" false,
  bool "features.disable_jid_escaping" false,
  bool "features.send_buddies_on_login" false]

/-- `Config` with `m_backendConfig`. -/
structure Backed where
  config : Config
  backend : Variables := {}

/-- A value as `safeAs<bool>` reads it. -/
def asBool (value : Option Value) (default : Bool) : Bool :=
  match value with
  | some (.bool b) => b
  | _ => default

namespace Backed

variable (c : Backed)

/-- `CONFIG_BOOL_DEFAULTED`. -/
def boolDefaulted (key : String) (default : Bool) : Bool :=
  match c.config.vars.map.get key with
  | some x => asBool x.value default
  | none =>
    match c.backend.map.get key with
    | some x => asBool x.value default
    | none =>
      match c.config.unregistered.get key with
      | some (.bool b) => b
      | _ => default

/-- `CONFIG_VECTOR`. None if the value is no list. -/
def vector (key : String) : Option (List String) :=
  match (c.config.vars.map.get key).or (c.backend.map.get key) with
  | some x =>
    match x.value with
    | some (.strings l) => some l
    | _ => none
  | none => if (c.config.unregistered.get key).isSome then none else some []

/-- The end of `updateBackendConfig`. There is no value to write if the option is missing. -/
def disableEscaping : Option Backed :=
  if c.boolDefaulted "features.disable_jid_escaping" false then
    (c.config.vars.map.get "service.jid_escaping").map fun x =>
      { c with config := { c.config with vars := { c.config.vars with
        map := c.config.vars.map.set "service.jid_escaping" { x with value := some (.bool false) } } } }
  else some c

/-- `Config::updateBackendConfig`. None if it throws an exception. -/
def updateBackendConfig (env : Env) (text : String) : Option Backed :=
  (env.parse text).bind fun options =>
    match store backendOpts c.backend (options.map fun o => ⟨o.1, [o.2]⟩) with
    | (backend, none) => disableEscaping { c with backend }
    | (_, some _) => none

/-- The backends send their configurations, one after the other. -/
def updates (env : Env) : Backed → List PluginConfig → Option Backed
  | c, [] => some c
  | c, cfg :: cfgs =>
    (c.updateBackendConfig env (sendConfig cfg)).bind fun c => c.updates env cfgs

end Backed

/-! ## The text -/

/-- The lines of the text. -/
def items (cfg : PluginConfig) : List Item :=
  [.heading "registration", .option "needPassword" (flag cfg.needPassword),
    .option "needRegistration" (flag cfg.needRegistration)] ++
  cfg.extraFields.map (.option "extraField") ++
  [.heading "features", .option "muc" (flag cfg.supportMuc), .option "rawxml" (flag cfg.rawXml),
    .option "disable_jid_escaping" (flag cfg.disableJidEscaping)]

theorem unlines_append_list (ps qs : List String) :
    unlines '\n' (ps ++ qs) = unlines '\n' ps ++ unlines '\n' qs := by
  induction ps with
  | nil => simp [unlines]
  | cons p ps ih =>
    have hcons : ∀ rest, unlines '\n' (p :: rest) = p ++ String.singleton '\n' ++ unlines '\n' rest :=
      fun _ => rfl
    rw [List.cons_append, hcons, hcons, ih, String.append_assoc, String.append_assoc,
      String.append_assoc]

theorem sendConfig_eq (cfg : PluginConfig) :
    sendConfig cfg = unlines '\n' ((items cfg).map Item.render) := by
  have hfields : ∀ (fields : List String) (data : String),
      fields.foldl (fun data field => data ++ ("extraField=" ++ field ++ "\n")) data =
        data ++ unlines '\n' (fields.map fun field => (Item.option "extraField" field).render) := by
    intro fields
    induction fields with
    | nil => intro data; simp [unlines]
    | cons field fields ih =>
      intro data
      rw [List.foldl_cons, ih]
      apply String.toList_inj.mp
      simp [unlines, Item.render]
  unfold sendConfig
  dsimp only
  rw [hfields, items, List.map_append, List.map_append, unlines_append_list, unlines_append_list,
    List.map_map]
  apply String.toList_inj.mp
  simp [unlines, Item.render, Function.comp_def]

/-- The field fits on its line. -/
def OneLine (field : String) : Prop := '\n' ∉ field.toList

theorem wellFormed_items {cfg : PluginConfig} (h : ∀ field ∈ cfg.extraFields, OneLine field) :
    ∀ i ∈ items cfg, i.WellFormed := by
  have hflag : ∀ b, '\n' ∉ (flag b).toList := by decide
  have hends : ∀ name b, (Item.option name "").WellFormed → (Item.option name (flag b)).WellFormed :=
    fun name b hname => ⟨hname.1, hflag b, hname.2.2⟩
  unfold items
  simp only [List.forall_mem_append, List.forall_mem_cons, List.forall_mem_map]
  refine ⟨⟨⟨by decide, hends _ _ (by decide), hends _ _ (by decide), by simp⟩, fun field hfield => ?_⟩,
    by decide, hends _ _ (by decide), hends _ _ (by decide), hends _ _ (by decide), by simp⟩
  exact ⟨by decide, h field hfield, by decide⟩

/-- The options of the text, with the fields as they are received. -/
def sentOptions (cfg : PluginConfig) : List Parsed :=
  [⟨"registration.needPassword", [flag cfg.needPassword]⟩,
    ⟨"registration.needRegistration", [flag cfg.needRegistration]⟩] ++
  cfg.extraFields.map (fun field => ⟨"registration.extraField", [received field]⟩) ++
  [⟨"features.muc", [flag cfg.supportMuc]⟩, ⟨"features.rawxml", [flag cfg.rawXml]⟩,
    ⟨"features.disable_jid_escaping", [flag cfg.disableJidEscaping]⟩]

theorem optionsOf_map_append (section_ key : String) (values : List String) (items : List Item) :
    optionsOf section_ (values.map (.option key) ++ items) =
      values.map (fun value => (section_ ++ key, received value)) ++ optionsOf section_ items := by
  induction values with
  | nil => rfl
  | cons value values ih => exact congrArg _ ih

theorem received_flag (b : Bool) : received (flag b) = flag b := by
  cases b <;> decide

theorem parse_sendConfig {env : Env} {cfg : PluginConfig} (hparse : Reads env.parse)
    (h : ∀ field ∈ cfg.extraFields, OneLine field) :
    (env.parse (sendConfig cfg)).map (List.map fun o => Parsed.mk o.1 [o.2]) =
      some (sentOptions cfg) := by
  have hkeys : "" ++ "registration" ++ "." = "registration." ∧ "features" ++ "." = "features." := by
    decide
  rw [sendConfig_eq, hparse _ (wellFormed_items h), Option.map_some, items, List.append_assoc]
  simp only [List.cons_append, List.nil_append, optionsOf, optionsOf_map_append, received_flag]
  rw [sentOptions]
  simp only [List.map_cons, List.map_append, List.map_map, List.cons_append, List.nil_append]
  rfl

/-! ## What a text changes -/

theorem backendOpts_nodup : (backendOpts.map Description.key).Nodup := by decide +kernel

theorem occurrences_map_of_ne {key key' : String} (hne : key' ≠ key) (values : List String) :
    occurrences key (values.map fun value => (⟨key', [value]⟩ : Parsed)) = [] := by
  rw [occurrences, List.filter_eq_nil_iff.mpr]
  · rfl
  · rintro o ho
    obtain ⟨value, -, rfl⟩ := List.mem_map.mp ho
    simpa using hne

theorem occurrences_map_self (key : String) (values : List String) :
    occurrences key (values.map fun value => (⟨key, [value]⟩ : Parsed)) =
      values.map fun value => [value] := by
  rw [occurrences, List.filter_eq_self.mpr]
  · rw [List.map_map]
    rfl
  · rintro o ho
    obtain ⟨value, -, rfl⟩ := List.mem_map.mp ho
    exact decide_eq_true rfl

/-- The options with one value in every text. -/
inductive Setting
  | needPassword
  | needRegistration
  | muc
  | rawXml
  | disableJidEscaping
  deriving DecidableEq, Repr

def Setting.key : Setting → String
  | .needPassword => "registration.needPassword"
  | .needRegistration => "registration.needRegistration"
  | .muc => "features.muc"
  | .rawXml => "features.rawxml"
  | .disableJidEscaping => "features.disable_jid_escaping"

/-- The member of `PluginConfig` that an option is written from. -/
def PluginConfig.get (cfg : PluginConfig) : Setting → Bool
  | .needPassword => cfg.needPassword
  | .needRegistration => cfg.needRegistration
  | .muc => cfg.supportMuc
  | .rawXml => cfg.rawXml
  | .disableJidEscaping => cfg.disableJidEscaping

theorem occurrences_setting (cfg : PluginConfig) (x : Setting) :
    occurrences x.key (sentOptions cfg) = [[flag (cfg.get x)]] := by
  unfold sentOptions
  rw [occurrences_append, occurrences_append]
  have hfields : occurrences x.key
      (cfg.extraFields.map fun field => Parsed.mk "registration.extraField" [received field]) = [] := by
    have := @occurrences_map_of_ne x.key "registration.extraField" (by cases x <;> decide)
      (cfg.extraFields.map received)
    rwa [List.map_map] at this
  rw [hfields, List.append_nil]
  cases x <;> rfl

theorem occurrences_extraField (cfg : PluginConfig) :
    occurrences "registration.extraField" (sentOptions cfg) =
      cfg.extraFields.map fun field => [received field] := by
  have := occurrences_map_self "registration.extraField" (cfg.extraFields.map received)
  rw [List.map_map, List.map_map] at this
  unfold sentOptions
  rw [occurrences_append, occurrences_append]
  exact (List.append_nil _).trans this

/-- The options that no text sets. -/
def unsentKeys : List String := ["features.receipts", "features.send_buddies_on_login"]

theorem occurrences_unsent (cfg : PluginConfig) : ∀ key ∈ unsentKeys,
    occurrences key (sentOptions cfg) = [] := by
  intro key hkey
  have hmap := fun hne => @occurrences_map_of_ne key "registration.extraField" hne
    (cfg.extraFields.map received)
  rw [List.map_map] at hmap
  unfold sentOptions
  rw [occurrences_append, occurrences_append]
  simp only [unsentKeys, List.mem_cons, List.not_mem_nil, or_false] at hkey
  rcases hkey with rfl | rfl
  · exact (List.append_nil _).trans (hmap (by decide))
  · exact (List.append_nil _).trans (hmap (by decide))

/-- Every option of the backend is set by the texts in one of three ways. -/
theorem key_cases {key : String} {d : Description} (h : describe backendOpts key = some d) :
    (∃ x : Setting, key = x.key ∧ d.type = .bool ∧ d.default.isSome) ∨
      (key = "registration.extraField" ∧ d.type = .strings) ∨
      key ∈ unsentKeys := by
  obtain rfl : d.key = key := by simpa using List.find?_some (h : List.find? _ _ = _)
  have hmem := List.mem_of_find?_eq_some h
  simp only [backendOpts, List.mem_cons, List.not_mem_nil, or_false] at hmem
  rcases hmem with rfl | rfl | rfl | rfl | rfl | rfl | rfl | rfl
  · exact .inl ⟨.needPassword, rfl, rfl, rfl⟩
  · exact .inl ⟨.needRegistration, rfl, rfl, rfl⟩
  · exact .inr (.inl ⟨rfl, rfl⟩)
  · exact .inr (.inr (by decide))
  · exact .inl ⟨.muc, rfl, rfl, rfl⟩
  · exact .inl ⟨.rawXml, rfl, rfl, rfl⟩
  · exact .inl ⟨.disableJidEscaping, rfl, rfl, rfl⟩
  · exact .inr (.inr (by decide))

theorem read_flag (b : Bool) : OptionType.bool.read [flag b] = some (.bool b) := by
  cases b <;> rfl

/-- The texts can be stored, whatever was stored before. -/
theorem accepted_sentOptions (cfg : PluginConfig) (final : List String) :
    Accepted backendOpts final (sentOptions cfg) := by
  intro key d _ hd
  rcases key_cases hd with ⟨x, rfl, htype, -⟩ | ⟨rfl, htype⟩ | hkey
  · rw [occurrences_setting, htype]
    refine .inr ?_
    rw [OptionType.given, read_flag]
    · rfl
    · simp
  · rw [occurrences_extraField, htype]
    cases cfg.extraFields with
    | nil => exact .inl rfl
    | cons field fields => exact .inr rfl
  · exact .inl (occurrences_unsent cfg key hkey)

/-- The first fields that are not empty. -/
def firstFields (cfgs : List PluginConfig) : Option (List String) :=
  (cfgs.map PluginConfig.extraFields).find? fun fields => !fields.isEmpty

/-- The options of a configuration are final. -/
structure InForce (cfg : PluginConfig) (v : Variables) : Prop where
  final : ∀ x : Setting, x.key ∈ v.final
  value : ∀ x : Setting, v.valueOf x.key = some (.bool (cfg.get x))
  unsent : ∀ key ∈ unsentKeys, v.valueOf key = some (.bool false)

/-- The extra fields are the first that were sent. -/
structure FieldsOf (cfgs : List PluginConfig) (v : Variables) : Prop where
  settled : v.Settled backendOpts
  unsent : ∀ key ∈ unsentKeys, key ∉ v.final
  given : ∀ fields, firstFields cfgs = some fields → "registration.extraField" ∈ v.final ∧
    v.valueOf "registration.extraField" = some (.strings (fields.map received))
  missing : firstFields cfgs = none →
    "registration.extraField" ∉ v.final ∧ v.map.get "registration.extraField" = none

theorem fieldsOf_nil : FieldsOf [] {} where
  settled := settled_empty
  unsent _ _ := List.not_mem_nil
  given _ h := by cases h
  missing _ := ⟨List.not_mem_nil, rfl⟩

section Update

variable {v : Variables} {cfgs : List PluginConfig} {cfg first : PluginConfig}

theorem store_sentOptions (h : v.Settled backendOpts) (cfg : PluginConfig) :
    (store backendOpts v (sentOptions cfg)).2 = none ∧
    (store backendOpts v (sentOptions cfg)).1.Settled backendOpts ∧
    (store backendOpts v (sentOptions cfg)).1.final =
      v.final ++ described backendOpts (sentOptions cfg) ∧
    ∀ key, (store backendOpts v (sentOptions cfg)).1.valueOf key =
      if key ∈ v.final then v.valueOf key else valueIn backendOpts (sentOptions cfg) key := by
  obtain ⟨haccepted, hstored⟩ := h.store backendOpts_nodup (sentOptions cfg)
  have hnone := haccepted.mpr (accepted_sentOptions cfg v.final)
  exact ⟨hnone, hstored hnone⟩

theorem firstFields_append (cfgs : List PluginConfig) (cfg : PluginConfig) :
    firstFields (cfgs ++ [cfg]) = (firstFields cfgs).or
      (if cfg.extraFields = [] then none else some cfg.extraFields) := by
  unfold firstFields
  rw [List.map_append, List.find?_append, List.map_singleton]
  cases cfg.extraFields <;> rfl

theorem valueIn_extraField (hne : cfg.extraFields ≠ []) :
    valueIn backendOpts (sentOptions cfg) "registration.extraField" =
      some (.strings (cfg.extraFields.map received)) := by
  have hd : describe backendOpts "registration.extraField" =
      some (strings "registration.extraField") := rfl
  rw [valueIn, hd, Option.bind_some, occurrences_extraField]
  cases hfields : cfg.extraFields with
  | nil => exact absurd hfields hne
  | cons field fields =>
    have hflat : ((field :: fields).map fun field => [received field]).flatten =
        (field :: fields).map received := by
      rw [← List.flatMap_def, List.map_eq_flatMap]
    exact congrArg (fun l => some (Value.strings l)) hflat

/-- Fields are stored if none were before. -/
theorem FieldsOf.store (h : FieldsOf cfgs v) (cfg : PluginConfig) :
    FieldsOf (cfgs ++ [cfg]) (store backendOpts v (sentOptions cfg)).1 := by
  obtain ⟨-, hsettled, hfinal, hvalue⟩ := store_sentOptions h.settled cfg
  have hdescribed : "registration.extraField" ∈ described backendOpts (sentOptions cfg) ↔
      cfg.extraFields ≠ [] := by
    rw [mem_described_iff, occurrences_extraField, Ne, List.map_eq_nil_iff]
    exact and_iff_right rfl
  refine ⟨hsettled, fun key hkey => ?_, fun fields hfields => ?_, fun hnone => ?_⟩
  · rw [hfinal, List.mem_append, not_or, mem_described_iff, occurrences_unsent cfg key hkey]
    exact ⟨h.unsent key hkey, fun hboth => hboth.2 rfl⟩
  · rw [firstFields_append] at hfields
    rw [hfinal, hvalue]
    cases hfirst : firstFields cfgs with
    | some old =>
      rw [hfirst, Option.some_or, Option.some_inj] at hfields
      subst hfields
      obtain ⟨hmem, hold⟩ := h.given old hfirst
      rw [if_pos hmem]
      exact ⟨List.mem_append_left _ hmem, hold⟩
    | none =>
      rw [hfirst, Option.none_or] at hfields
      split at hfields
      · cases hfields
      · rename_i hne
        cases hfields
        rw [if_neg (h.missing hfirst).1, valueIn_extraField hne]
        exact ⟨List.mem_append_right _ (hdescribed.mpr hne), rfl⟩
  · rw [firstFields_append, Option.or_eq_none_iff] at hnone
    obtain ⟨hfirst, hempty⟩ := hnone
    have hnil : cfg.extraFields = [] := by
      by_contra hne
      rw [if_neg hne] at hempty
      cases hempty
    obtain ⟨hmem, hget⟩ := h.missing hfirst
    rw [hfinal, List.mem_append, not_or, hdescribed, get_store_of_not_given backendOpts_nodup rfl
      (.inr (by rw [occurrences_extraField, hnil]; rfl))]
    exact ⟨⟨hmem, fun hne => hne hnil⟩, hget⟩

theorem valueIn_setting (cfg : PluginConfig) (x : Setting) :
    valueIn backendOpts (sentOptions cfg) x.key = some (.bool (cfg.get x)) := by
  have hd : ∃ default, describe backendOpts x.key = some ⟨x.key, .bool, some default⟩ := by
    cases x <;> exact ⟨_, rfl⟩
  obtain ⟨default, hd⟩ := hd
  rw [valueIn, hd, Option.bind_some, occurrences_setting]
  change ((OptionType.bool.read [flag (cfg.get x)]).or _) = _
  rw [read_flag, Option.some_or]

theorem valueIn_unsent (cfg : PluginConfig) : ∀ key ∈ unsentKeys,
    valueIn backendOpts (sentOptions cfg) key = some (.bool false) := by
  intro key hkey
  rw [valueIn, occurrences_unsent cfg key hkey]
  simp only [unsentKeys, List.mem_cons, List.not_mem_nil, or_false] at hkey
  rcases hkey with rfl | rfl <;> rfl

/-- The first text puts its options in force, with the defaults of those that it does not have. -/
theorem inForce_first (cfg : PluginConfig) : InForce cfg (store backendOpts {} (sentOptions cfg)).1 := by
  obtain ⟨-, -, hfinal, hvalue⟩ := store_sentOptions settled_empty cfg
  refine ⟨fun x => ?_, fun x => ?_, fun key hkey => ?_⟩
  · rw [hfinal, List.mem_append, mem_described_iff, occurrences_setting]
    exact .inr ⟨by cases x <;> rfl, List.cons_ne_nil _ _⟩
  · rw [hvalue, if_neg List.not_mem_nil, valueIn_setting]
  · rw [hvalue, if_neg List.not_mem_nil, valueIn_unsent cfg key hkey]

/-- A later text changes none of them. -/
theorem InForce.store (h : InForce first v) (hf : FieldsOf cfgs v) (cfg : PluginConfig) :
    InForce first (store backendOpts v (sentOptions cfg)).1 := by
  obtain ⟨-, -, hfinal, hvalue⟩ := store_sentOptions hf.settled cfg
  refine ⟨fun x => ?_, fun x => ?_, fun key hkey => ?_⟩
  · rw [hfinal]
    exact List.mem_append_left _ (h.final x)
  · rw [hvalue, if_pos (h.final x), h.value]
  · rw [hvalue, if_neg (hf.unsent key hkey), valueIn_unsent cfg key hkey]

end Update

/-! ## The transport -/

section Transport

variable {env : Env} {file port : String} {contents : Option String} {config : Config}

/-- What the transport relies on after it has loaded its file. -/
structure Ready (config : Config) : Prop where
  backend : ∀ key, (describe backendOpts key).isSome = true → config.vars.map.get key = none
  escaping : (config.vars.map.get "service.jid_escaping").isSome = true

theorem not_described {key : String} (h : (describe backendOpts key).isSome = true) :
    describe opts key = none := by
  obtain ⟨d, hd⟩ := Option.isSome_iff_exists.mp h
  have hmem := List.mem_of_find?_eq_some hd
  obtain rfl : d.key = key := by simpa using List.find?_some (hd : List.find? _ _ = _)
  have hnone : ∀ d ∈ backendOpts, describe opts d.key = none := by decide +kernel
  exact hnone d hmem

theorem get_store {key : String} (h : (describe backendOpts key).isSome = true) (c : Config)
    (os : List Parsed) : (c.store os).1.vars.map.get key = c.vars.map.get key :=
  get_store_of_not_given opts_nodup (by rw [not_described h]; rfl) (.inl (not_described h)) c.vars

/-- A file that was loaded has given no values to the options of the backend. -/
theorem ready_of_load (h : ({} : Config).load env file contents port = (config, .loaded)) :
    Ready config := by
  unfold Config.load at h
  split at h
  · cases h
  · cases contents with
    | none => cases h
    | some text =>
      obtain ⟨options, m, c₁, -, -, hline, hstore⟩ := loaded_cases h
      have hconfig : (c₁.store (fileOptions env port options)).1 = config := congrArg Prod.fst hstore
      have hnone := store_loaded_iff.mp (congrArg Prod.snd hstore)
      constructor
      · intro key hkey
        rw [← hconfig, get_store hkey]
        unfold Config.loadCommandLine at hline
        split at hline
        · cases hline
          rfl
        · cases hline
        · rename_i os _
          have hc₁ := congrArg (fun r => r.1.vars.map.get key) hline
          exact hc₁.symm.trans (get_store hkey _ os)
      · rw [← hconfig]
        exact isSome_get_of_store opts_nodup hnone (by decide +kernel)

variable {c : Backed} {cfg first : PluginConfig} {cfgs : List PluginConfig} {key : String}

theorem boolDefaulted_of_backend (hready : Ready c.config)
    (hd : (describe backendOpts key).isSome = true) {b : Bool}
    (hv : c.backend.valueOf key = some (.bool b)) (default : Bool) :
    c.boolDefaulted key default = b := by
  obtain ⟨x, hx, hvalue⟩ := Option.bind_eq_some_iff.mp hv
  rw [Backed.boolDefaulted, hready.backend key hd]
  simp only [hx, hvalue, asBool]

theorem isSome_describe_setting (x : Setting) : (describe backendOpts x.key).isSome = true := by
  cases x <;> rfl

/-- The value of `service.jid_escaping`. -/
def escapingOf (config : Config) : Option Value := config.vars.valueOf "service.jid_escaping"

theorem disableEscaping_spec (hready : Ready c.config) {b : Bool}
    (hb : c.boolDefaulted "features.disable_jid_escaping" false = b) :
    ∃ c', c.disableEscaping = some c' ∧ c'.backend = c.backend ∧ Ready c'.config ∧
      c'.config.unregistered = c.config.unregistered ∧
      escapingOf c'.config = if b then some (.bool false) else escapingOf c.config := by
  obtain ⟨x, hx⟩ := Option.isSome_iff_exists.mp hready.escaping
  unfold Backed.disableEscaping
  rw [hb]
  cases b with
  | false => exact ⟨c, rfl, rfl, hready, rfl, rfl⟩
  | true =>
    rw [if_pos rfl, hx, Option.map_some]
    refine ⟨_, rfl, rfl, ⟨fun key hkey => ?_, ?_⟩, rfl, ?_⟩
    · have hne : key ≠ "service.jid_escaping" := fun heq => by
        rw [heq] at hkey
        exact absurd hkey (by decide)
      exact (SortedMap.get_set_of_ne hne).trans (hready.backend key hkey)
    · exact Option.isSome_iff_exists.mpr ⟨_, SortedMap.get_set_self _ _ _⟩
    · rw [escapingOf, Variables.valueOf]
      exact congrArg (Option.bind · Variable.value) (SortedMap.get_set_self _ _ _)

/-- The state after the texts `cfgs`, the first of which was `first`. -/
structure Updated (config : Config) (first : PluginConfig) (cfgs : List PluginConfig) (c : Backed) :
    Prop where
  ready : Ready c.config
  unregistered : c.config.unregistered = config.unregistered
  inForce : InForce first c.backend
  fieldsOf : FieldsOf cfgs c.backend
  escaping : escapingOf c.config =
    if first.disableJidEscaping then some (.bool false) else escapingOf config

/-- A text is stored, and then the escaping is disabled if the first configuration says so. -/
theorem updated_of_store (hreads : Reads env.parse) (hready : Ready c.config) (hun : c.config.unregistered = config.unregistered)
    (hf : FieldsOf cfgs c.backend)
    (hinForce : InForce first (store backendOpts c.backend (sentOptions cfg)).1)
    (hescaping : escapingOf c.config = escapingOf config ∨ escapingOf c.config =
      if first.disableJidEscaping then some (.bool false) else escapingOf config)
    (hlines : ∀ field ∈ cfg.extraFields, OneLine field) :
    ∃ c', c.updateBackendConfig env (sendConfig cfg) = some c' ∧
      Updated config first (cfgs ++ [cfg]) c' := by
  obtain ⟨options, hparse, hoptions⟩ := Option.map_eq_some_iff.mp (parse_sendConfig hreads hlines)
  obtain ⟨hnone, -⟩ := store_sentOptions hf.settled cfg
  have hupdate : c.updateBackendConfig env (sendConfig cfg) = Backed.disableEscaping
      { c with backend := (store backendOpts c.backend (sentOptions cfg)).1 } := by
    rw [Backed.updateBackendConfig, hparse, Option.bind_some, hoptions]
    rcases hrun : store backendOpts c.backend (sentOptions cfg) with ⟨v, _ | e⟩
    · rfl
    · rw [hrun] at hnone
      cases hnone
  have hfields := hf.store cfg
  generalize (store backendOpts c.backend (sentOptions cfg)).1 = v at hinForce hupdate hfields
  have hdisable : Backed.boolDefaulted { c with backend := v } "features.disable_jid_escaping" false =
      first.disableJidEscaping :=
    @boolDefaulted_of_backend { c with backend := v } _ hready
      (isSome_describe_setting .disableJidEscaping) _ (hinForce.value .disableJidEscaping) false
  obtain ⟨c', hsome, hbackend, hready', hun', hescaping'⟩ :=
    @disableEscaping_spec { c with backend := v } hready _ hdisable
  refine ⟨c', hupdate.trans hsome, hready', hun'.trans hun, hbackend ▸ hinForce, hbackend ▸ hfields, ?_⟩
  rw [hescaping']
  split
  · rfl
  · rename_i hoff
    rw [if_neg hoff, or_self] at hescaping
    exact hescaping

theorem updated_updates (hreads : Reads env.parse) (h : Updated config first cfgs c) {later : List PluginConfig}
    (hlines : ∀ cfg ∈ later, ∀ field ∈ cfg.extraFields, OneLine field) :
    ∃ c', c.updates env later = some c' ∧ Updated config first (cfgs ++ later) c' := by
  induction later generalizing c cfgs with
  | nil => exact ⟨c, rfl, by rwa [List.append_nil]⟩
  | cons cfg later ih =>
    obtain ⟨hcfg, hlater⟩ := List.forall_mem_cons.mp hlines
    obtain ⟨c₁, hone, hc₁⟩ := updated_of_store hreads h.ready h.unregistered h.fieldsOf
      (h.inForce.store h.fieldsOf cfg) (.inr h.escaping) hcfg
    obtain ⟨c₂, hrest, hc₂⟩ := ih hc₁ hlater
    refine ⟨c₂, ?_, by rwa [List.append_assoc] at hc₂⟩
    rw [Backed.updates, hone, Option.bind_some, hrest]

/-- After the configurations `first :: later` of the backends, whatever the file says about the options
of the backend: the five flags are those of the first configuration, the options that no backend sends
are off, the extra fields are the first that were sent, and node escaping is off if the first
configuration disables it and as in the file otherwise. -/
theorem inForce_of_updates (hreads : Reads env.parse)
    (hload : ({} : Config).load env file contents port = (config, .loaded))
    (first : PluginConfig) (later : List PluginConfig)
    (hlines : ∀ cfg ∈ first :: later, ∀ field ∈ cfg.extraFields, OneLine field) :
    ∃ c, Backed.updates env ⟨config, {}⟩ (first :: later) = some c ∧
      (∀ (x : Setting) (default : Bool), c.boolDefaulted x.key default = first.get x) ∧
      (∀ key ∈ unsentKeys, ∀ default : Bool, c.boolDefaulted key default = false) ∧
      c.vector "registration.extraField" =
        (firstFields (first :: later)).elim (Backed.vector ⟨config, {}⟩ "registration.extraField")
          (fun fields => some (fields.map received)) ∧
      c.boolDefaulted "service.jid_escaping" true = (!first.disableJidEscaping &&
        Backed.boolDefaulted ⟨config, {}⟩ "service.jid_escaping" true) := by
  have hready := ready_of_load hload
  obtain ⟨hfirst, hlater⟩ := List.forall_mem_cons.mp hlines
  obtain ⟨c₁, hone, hc₁⟩ := @updated_of_store env config ⟨config, {}⟩ first first [] hreads hready rfl
    fieldsOf_nil (inForce_first first) (.inl rfl) hfirst
  obtain ⟨c, hrest, hc⟩ := updated_updates hreads hc₁ hlater
  have hextra := hc.ready.backend "registration.extraField" rfl
  have hextra₀ := hready.backend "registration.extraField" rfl
  obtain ⟨x, hx⟩ := Option.isSome_iff_exists.mp hc.ready.escaping
  obtain ⟨x₀, hx₀⟩ := Option.isSome_iff_exists.mp hready.escaping
  refine ⟨c, ?_, fun x default => ?_, fun key hkey default => ?_, ?_, ?_⟩
  · rw [Backed.updates, hone, Option.bind_some, hrest]
  · exact boolDefaulted_of_backend hc.ready (isSome_describe_setting x) (hc.inForce.value x) default
  · refine boolDefaulted_of_backend hc.ready ?_ (hc.inForce.unsent key hkey) default
    simp only [unsentKeys, List.mem_cons, List.not_mem_nil, or_false] at hkey
    rcases hkey with rfl | rfl <;> rfl
  · unfold Backed.vector
    rw [hextra, hextra₀, Option.none_or, Option.none_or, hc.unregistered]
    cases hfields : firstFields (first :: later) with
    | none =>
      rw [(hc.fieldsOf.missing hfields).2]
      rfl
    | some fields =>
      obtain ⟨x, hx, hvalue⟩ := Option.bind_eq_some_iff.mp (hc.fieldsOf.given fields hfields).2
      rw [hx]
      simp only [hvalue, Option.elim_some]
  · have hescaping := hc.escaping
    rw [escapingOf, escapingOf, Variables.valueOf, Variables.valueOf, hx, hx₀, Option.bind_some,
      Option.bind_some] at hescaping
    unfold Backed.boolDefaulted
    simp only [hx, hx₀, hescaping]
    cases first.disableJidEscaping <;> rfl

end Transport

namespace Sample

/-- The configuration of the other examples, read by a parser of every text. -/
def reader : Env := { env with parse := ConfigFile.parse }

def loaded : Config := (({} : Config).load reader "spectrum.cfg" (some (text "a.example.com")) "30001").1

theorem load_loaded :
    ({} : Config).load reader "spectrum.cfg" (some (text "a.example.com")) "30001" =
      (loaded, .loaded) := by
  have hloaded : (({} : Config).load reader "spectrum.cfg" (some (text "a.example.com")) "30001").2 =
      .loaded := by
    decide +kernel
  exact Prod.ext rfl hloaded

/-- A backend with rooms and with a field that it has commented. -/
def rooms : PluginConfig where
  supportMuc := true
  disableJidEscaping := true
  extraFields := ["nick # shown"]

end Sample

open Configuration.Sample in
/-- A second backend without rooms and without fields changes nothing. -/
theorem inForce_of_updates_rooms : ∃ c, Backed.updates reader ⟨loaded, {}⟩ [rooms, {}] = some c ∧
    (∀ default, c.boolDefaulted "features.muc" default = true) ∧
    c.vector "registration.extraField" = some ["nick"] ∧
    c.boolDefaulted "service.jid_escaping" true = false := by
  have hlines : ∀ cfg ∈ [rooms, {}], ∀ field ∈ cfg.extraFields, OneLine field := by
    simp only [List.forall_mem_cons, OneLine]
    decide
  obtain ⟨c, hc, hsettings, -, hfields, hescaping⟩ :=
    inForce_of_updates reads_parse load_loaded _ _ hlines
  refine ⟨c, hc, hsettings .muc, hfields.trans ?_, hescaping⟩
  decide

end Spectrum.Configuration
