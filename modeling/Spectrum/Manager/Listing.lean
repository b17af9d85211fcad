import Spectrum.Admin.Safe
import Spectrum.Lib.EscapedList

/-!
# What the web interface reads of an instance

`APIServer` asks an instance for its commands, its variables and the arguments of a command, splits the
answer into lines and these into tokens, and leaves out lines with another number of tokens. The lines
are those that `AdminInterface` writes.

* `commands_shown`: the commands that are shown are those that the instance has.
* `variables_shown`: the same for its variables, as long as no backend has crashed.
* `args_shown`: the same for the arguments of a command.
-/

namespace Spectrum.Manager

open Lib Admin

/-! ## Reading -/

/-- `escaped_list_separator<char> els('\\', ' ', '\"')`. -/
def els : EscapedList where
  escape := '\\'
  sep := ' '
  quote := '"'

/-- An entry of `commands` in the answer of the web interface. -/
structure Command where
  name : String
  desc : String
  category : String
  context : String
  label : String
  deriving DecidableEq, Repr

/-- The loop of `serve_instances_commands`. None if the tokenizer throws an exception. -/
def listCommands (admin : Bool) (username : String) : List String → Option (List Command)
  | [] => some []
  | line :: lines => do
    let tokens ← els.tokens line
    let cmds ← listCommands admin username lines
    let token i := tokens.getD i ""
    if tokens.length ≠ 11 then return cmds
    if admin = false ∧ token 6 = "Admin" then return cmds
    -- A command which needs registered users.
    if admin = false ∧ username = "" ∧ token 8 = "User" then return cmds
    if admin = false ∧ username ≠ "" ∧ token 0 = "register" then return cmds
    return ⟨token 0, token 2, token 4, token 8, token 10⟩ :: cmds

/-- An entry of `variables`. -/
structure Variable where
  name : String
  desc : String
  value : String
  readOnly : String
  category : String
  context : String
  deriving DecidableEq, Repr

/-- The loop of `serve_instances_variables`. -/
def listVariables (admin : Bool) : List String → Option (List Variable)
  | [] => some []
  | line :: lines => do
    let tokens ← els.tokens line
    let cmds ← listVariables admin lines
    let token i := tokens.getD i ""
    if tokens.length ≠ 13 then return cmds
    if admin = false ∧ token 10 = "Admin" then return cmds
    return ⟨token 0, token 2, token 4, token 6, token 8, token 12⟩ :: cmds

/-- The loop of `serve_instances_command_args`. -/
def listArgs : List String → Option (List Arg)
  | [] => some []
  | line :: lines => do
    let tokens ← els.tokens line
    let args ← listArgs lines
    let token i := tokens.getD i ""
    if tokens.length ≠ 7 then return args
    return { name := token 0, label := token 2, sample := token 4, type := token 6 } :: args

/-! ## Lines -/

/-- The text can stand between quotes on a line. -/
def Quotable (s : String) : Prop := ∀ c ∈ s.toList, c ≠ '\\' ∧ c ≠ '"' ∧ c ≠ '\n'

/-- The text can stand on a line as it is. -/
def Plain (s : String) : Prop := Quotable s ∧ ' ' ∉ s.toList

instance (s : String) : Decidable (Quotable s) := List.decidableBAll _ _

instance (s : String) : Decidable (Plain s) := inferInstanceAs (Decidable (_ ∧ _))

/-- A field of a line. -/
structure Field where
  quoted : Bool
  text : String
  quotable : Quotable text
  plain : quoted = false → ' ' ∉ text.toList

namespace Field

def word (s : String) (h : Plain s := by decide) : Field := ⟨false, s, h.1, fun _ => h.2⟩

def quote (s : String) (h : Quotable s) : Field := ⟨true, s, h, fun h => absurd h (by decide)⟩

def toField (f : Field) : els.Field where
  quoted := f.quoted
  text := f.text.toList
  plain c hc := by
    obtain ⟨hescape, hquote, -⟩ := f.quotable c hc
    refine ⟨hescape, hquote, fun hsep => ?_⟩
    by_contra hquoted
    have hspace : c = ' ' := hsep
    exact f.plain (Bool.eq_false_iff.mpr hquoted) (hspace ▸ hc)

end Field

theorem Field.write_word (s : String) (h : Plain s) : (word s h).toField.write = s.toList := rfl

theorem Field.write_quote (s : String) (h : Quotable s) :
    (quote s h).toField.write = '"' :: (s.toList ++ ['"']) := rfl

/-- A line with the fields. -/
def Spells (line : String) (fs : List Field) : Prop :=
  line.toList = EscapedList.writeAll (fs.map Field.toField)

variable {line : String} {f g : Field} {fs : List Field}

theorem Spells.tokens (h : Spells line (f :: g :: fs)) :
    els.tokens line = some ((f :: g :: fs).map Field.text) := by
  rw [EscapedList.tokens_of_toList h, ← List.map_cons, ← List.map_cons, List.map_map]
  refine congrArg some (List.map_congr_left fun f _ => ?_)
  exact String.ofList_toList

theorem Field.newline_not_mem_write (f : Field) : '\n' ∉ f.toField.write := by
  have htext : '\n' ∉ f.text.toList := fun hmem => (f.quotable _ hmem).2.2 rfl
  unfold EscapedList.Field.write
  split <;> simp [Field.toField, els, htext]

theorem newline_not_mem_writeAll (fs : List Field) :
    '\n' ∉ EscapedList.writeAll (fs.map Field.toField) := by
  induction fs with
  | nil => exact List.not_mem_nil
  | cons f fs ih =>
    cases fs with
    | nil => exact f.newline_not_mem_write
    | cons g fs =>
      intro hmem
      rcases List.mem_append.mp hmem with hmem | hmem
      · exact f.newline_not_mem_write hmem
      · rcases List.mem_cons.mp hmem with heq | hmem
        · exact absurd heq (by decide)
        · exact ih hmem

theorem newline_not_mem (h : Spells line fs) : '\n' ∉ line.toList :=
  h ▸ newline_not_mem_writeAll fs

/-- A line of words can stand between quotes. -/
theorem quotable_of_words (h : ∀ f ∈ fs, f.quoted = false) :
    ∀ c ∈ EscapedList.writeAll (fs.map Field.toField), c ≠ '\\' ∧ c ≠ '"' ∧ c ≠ '\n' := by
  induction fs with
  | nil => exact fun c hc => absurd hc List.not_mem_nil
  | cons f fs ih =>
    obtain ⟨hf, hfs⟩ := List.forall_mem_cons.mp h
    have hwrite : f.toField.write = f.text.toList := if_neg (Bool.eq_false_iff.mp hf)
    cases fs with
    | nil =>
      rw [List.map_singleton, EscapedList.writeAll, hwrite]
      exact f.quotable
    | cons g fs =>
      intro c hc
      rcases List.mem_append.mp hc with hc | hc
      · exact f.quotable c (hwrite ▸ hc)
      · rcases List.mem_cons.mp hc with rfl | hc
        · exact by decide
        · exact ih hfs c hc

/-! ## The lines of `AdminInterface` -/

/-- Lines that a loop writes one after the other. -/
theorem foldl_lines {α : Type} (p : α → Bool) (line : α → String) {next : String → α → String}
    (hnext : ∀ output a, next output a = if p a then output ++ (line a ++ "\n") else output)
    (l : List α) (output : String) :
    l.foldl next output = output ++ unlines '\n' ((l.filter p).map line) := by
  induction l generalizing output with
  | nil => exact String.append_empty.symm
  | cons a l ih =>
    rw [List.foldl_cons, ih, hnext]
    by_cases hp : p a = true
    · rw [if_pos hp, List.filter_cons_of_pos hp, List.map_cons, unlines, unlines, List.foldr_cons,
        String.append_assoc]
      rfl
    · rw [if_neg hp, List.filter_cons_of_neg hp]

/-- The texts of a command that are on the lines. -/
structure Spelled (c : AdminInterfaceCommand) : Prop where
  name : Plain c.name
  desc : Quotable c.desc
  label : Quotable c.label

theorem spelled (setup : Setup) (k : Kind) : Spelled (setup.command k) := by
  cases k <;> (constructor <;> simp only [Setup.command] <;> decide +kernel)

def label (c : AdminInterfaceCommand) : String := if c.label = "" then c.name else c.label

def commandLine (c : AdminInterfaceCommand) : String :=
  c.name ++ " - \"" ++ c.desc ++ "\"" ++ Service.accessAndContext c ++ " Label: \"" ++ label c ++ "\""

def isCommand (c : AdminInterfaceCommand) : Bool :=
  c.actions.bits &&& Actions.execute.bits != 0

theorem listCommands_eq (s : Service) : s.listCommands =
    unlines '\n' (((s.setup.commands.map s.setup.command).filter isCommand).map commandLine) := by
  have hend : "\"\n" = "\"" ++ "\n" := by decide
  rw [Service.listCommands, foldl_lines (fun k => isCommand (s.setup.command k))
    (fun k => commandLine (s.setup.command k)), String.empty_append, List.filter_map, List.map_map]
  · rfl
  · intro output k
    rw [hend]
    simp only [isCommand, commandLine, label, bne_iff_ne, ne_eq, ite_not, String.append_assoc]

theorem label_quotable {c : AdminInterfaceCommand} (h : Spelled c) : Quotable (label c) := by
  unfold label
  split
  · exact h.name.1
  · exact h.label

def modeWord (c : AdminInterfaceCommand) : String := if c.accessMode = .userMode then "User" else "Admin"

def contextWord (c : AdminInterfaceCommand) : String :=
  if c.context = .userContext then "User" else "Global"

theorem plain_modeWord (c : AdminInterfaceCommand) : Plain (modeWord c) := by
  unfold modeWord
  split <;> decide

theorem plain_contextWord (c : AdminInterfaceCommand) : Plain (contextWord c) := by
  unfold contextWord
  split <;> decide

theorem plain_category (category : Category) : Plain category.name := by
  cases category <;> decide

theorem accessAndContext_eq (c : AdminInterfaceCommand) : Service.accessAndContext c =
    " Category: " ++ c.category.name ++ " AccesMode: " ++ modeWord c ++ " Context: " ++ contextWord c := by
  unfold Service.accessAndContext modeWord contextWord
  cases c.accessMode <;> cases c.context <;> simp [String.append_assoc]

def commandFields (c : AdminInterfaceCommand) (h : Spelled c) : List Field :=
  [.word c.name h.name, .word "-", .quote c.desc h.desc,
    .word "Category:", .word c.category.name (plain_category _),
    .word "AccesMode:", .word (modeWord c) (plain_modeWord c),
    .word "Context:", .word (contextWord c) (plain_contextWord c),
    .word "Label:", .quote (label c) (label_quotable h)]

theorem spells_commandLine {c : AdminInterfaceCommand} (h : Spelled c) :
    Spells (commandLine c) (commandFields c h) := by
  unfold Spells commandLine
  rw [accessAndContext_eq]
  simp only [commandFields, List.map_cons, List.map_nil, EscapedList.writeAll, Field.write_word,
    Field.write_quote]
  simp [els]

theorem tokens_commandLine {c : AdminInterfaceCommand} (h : Spelled c) :
    els.tokens (commandLine c) = some [c.name, "-", c.desc, "Category:", c.category.name, "AccesMode:",
      modeWord c, "Context:", contextWord c, "Label:", label c] :=
  (spells_commandLine h).tokens

/-- The command is offered to someone with or without rights, under the name that he has there. -/
def Offered (admin : Bool) (username : String) (c : AdminInterfaceCommand) : Prop :=
  admin = true ∨ c.accessMode = .userMode ∧ (username = "" → c.context ≠ .userContext) ∧
    (username ≠ "" → c.name ≠ "register")

instance (admin : Bool) (username : String) (c : AdminInterfaceCommand) :
    Decidable (Offered admin username c) := inferInstanceAs (Decidable (_ ∨ _))

def commandOf (c : AdminInterfaceCommand) : Command where
  name := c.name
  desc := c.desc
  category := c.category.name
  context := contextWord c
  label := label c

theorem modeWord_eq_admin (c : AdminInterfaceCommand) :
    modeWord c = "Admin" ↔ c.accessMode ≠ .userMode := by
  unfold modeWord
  split <;> simp_all

theorem contextWord_eq_user (c : AdminInterfaceCommand) :
    contextWord c = "User" ↔ c.context = .userContext := by
  unfold contextWord
  split <;> simp_all

theorem listCommands_cons {admin : Bool} {username : String} {c : AdminInterfaceCommand}
    (h : Spelled c) {lines : List String} {cmds : List Command}
    (hlines : listCommands admin username lines = some cmds) :
    listCommands admin username (commandLine c :: lines) =
      some (if Offered admin username c then commandOf c :: cmds else cmds) := by
  rw [listCommands, tokens_commandLine h, hlines]
  simp only [Option.bind_eq_bind, Option.bind_some, List.length_cons, List.length_nil,
    List.getD_cons_zero, List.getD_cons_succ, modeWord_eq_admin, contextWord_eq_user]
  unfold Offered
  cases admin <;> grind [commandOf]

theorem listCommands_lines (admin : Bool) (username : String) {cmds : List AdminInterfaceCommand}
    (h : ∀ c ∈ cmds, Spelled c) : listCommands admin username (cmds.map commandLine ++ [""]) =
      some ((cmds.filter fun c => Offered admin username c).map commandOf) := by
  induction cmds with
  | nil => rfl
  | cons c cmds ih =>
    obtain ⟨hc, hcmds⟩ := List.forall_mem_cons.mp h
    rw [List.map_cons, List.cons_append, listCommands_cons hc (ih hcmds), List.filter_cons]
    by_cases hoffered : Offered admin username c
    · rw [if_pos hoffered, if_pos (decide_eq_true hoffered), List.map_cons]
    · rw [if_neg hoffered, if_neg (mt of_decide_eq_true hoffered)]

/-- A command in global context, with as many arguments as it declares. -/
theorem dispatch_execute {s : Service} {k : Kind} {args : List String}
    (hcontext : (s.setup.command k).context = .globalContext)
    (hactions : (s.setup.command k).actions = .execute)
    (hargs : args.length = (s.setup.command k).args.length) :
    s.dispatch .none k args = s.execute k noUserInfo none args := by
  have hbase : (s.setup.command k).handleExecuteRequest noUserInfo none args = "" := by
    refine AdminInterfaceCommand.handleExecuteRequest_eq_empty hactions (fun hno => ?_) hargs
    have huser := (AdminInterfaceCommand.noUser_iff.mp hno).2
    rw [hcontext] at huser
    cases huser
  simp only [Service.dispatch, hcontext, hactions, reduceCtorEq, if_false, if_true]
  simp [Actions.bits, Service.perform, Service.handleExecuteRequest, hbase]

theorem handleQuery_commands (s : Service) :
    s.handleQuery "commands" = .ok (s, s.listCommands) := by
  have hfind : s.setup.find "commands" = some .commands := by
    obtain ⟨fields, hthree, userRegistration, slack⟩ := s.setup
    cases userRegistration <;> cases slack <;> rfl
  have haction : Service.actionOf (split ' ' "commands") = (.none, ["commands"]) := by decide +kernel
  rw [Service.handleQuery_known haction hfind, dispatch_execute rfl rfl rfl]
  rfl

/-- Everyone is shown the commands that the instance has and offers to him, each with its texts. -/
theorem commands_shown (s : Service) (admin : Bool) (username : String) :
    ∃ response, s.handleQuery "commands" = .ok (s, response) ∧
      listCommands admin username (split '\n' response) = some
        ((((s.setup.commands.map s.setup.command).filter isCommand).filter fun c =>
          Offered admin username c).map commandOf) := by
  refine ⟨_, handleQuery_commands s, ?_⟩
  have hspelled : ∀ c ∈ (s.setup.commands.map s.setup.command).filter isCommand, Spelled c := by
    intro c hc
    obtain ⟨k, -, rfl⟩ := List.mem_map.mp (List.mem_filter.mp hc).1
    exact spelled s.setup k
  rw [listCommands_eq, split_unlines, listCommands_lines admin username hspelled]
  intro line hline
  obtain ⟨c, hc, rfl⟩ := List.mem_map.mp hline
  exact newline_not_mem (spells_commandLine (hspelled c hc))

/-! ## Variables -/

def isVariable (c : AdminInterfaceCommand) : Bool := c.actions.bits &&& Actions.get.bits != 0

def readOnlyWord (c : AdminInterfaceCommand) : String :=
  if c.actions.bits &&& Actions.set.bits = 0 then "true" else "false"

theorem plain_readOnlyWord (c : AdminInterfaceCommand) : Plain (readOnlyWord c) := by
  unfold readOnlyWord
  split <;> decide

/-- A line up to the value. -/
def lineStart (c : AdminInterfaceCommand) : String := c.name ++ " - \"" ++ c.desc ++ "\" Value:"

/-- A line behind the value. -/
def lineEnd (c : AdminInterfaceCommand) : String :=
  " Read-only: " ++ readOnlyWord c ++ Service.accessAndContext c

def variableLine (c : AdminInterfaceCommand) (value : String) : String :=
  lineStart c ++ " \"" ++ value ++ "\"" ++ lineEnd c

theorem context_of_isVariable {setup : Setup} {k : Kind} (h : isVariable (setup.command k)) :
    (setup.command k).context = .globalContext := by
  cases k <;> first | rfl | simp [isVariable, Setup.command, Actions.bits] at h

theorem value_eq {s : Service} {k : Kind} (h : isVariable (s.setup.command k)) :
    s.handleGetRequest k noUserInfo none = s.value k := by
  have hget : (s.setup.command k).handleGetRequest noUserInfo none = "" := by
    have hcontext := context_of_isVariable h
    unfold isVariable at h
    simp [AdminInterfaceCommand.handleGetRequest, AdminInterfaceCommand.NoUser, hcontext,
      Context.bits, bne_iff_ne.mp h]
  rw [Service.handleGetRequest, hget]
  rfl

theorem listVariables_eq (s : Service) : s.listVariables noUserInfo none =
    unlines '\n' ((s.setup.commands.filter fun k => isVariable (s.setup.command k)).map
      fun k => variableLine (s.setup.command k) (s.handleGetRequest k noUserInfo none)) := by
  rw [Service.listVariables, foldl_lines (fun k => isVariable (s.setup.command k))
    (fun k => variableLine (s.setup.command k) (s.handleGetRequest k noUserInfo none)),
    String.empty_append]
  intro output k
  have hread : (if (s.setup.command k).actions.bits &&& Actions.set.bits = 0 then " Read-only: true"
      else " Read-only: false") = " Read-only: " ++ readOnlyWord (s.setup.command k) := by
    unfold readOnlyWord
    split <;> decide
  dsimp only
  rw [hread]
  simp only [isVariable, bne_iff_ne, ne_eq, ite_not]
  split
  · rfl
  · refine String.toList_inj.mp ?_
    simp [variableLine, lineStart, lineEnd]

/-! The value can have several lines: then its line is split. -/

def startFields (c : AdminInterfaceCommand) (h : Spelled c) : List Field :=
  [.word c.name h.name, .word "-", .quote c.desc h.desc, .word "Value:"]

def endFields (c : AdminInterfaceCommand) : List Field :=
  [.word "Read-only:", .word (readOnlyWord c) (plain_readOnlyWord c),
    .word "Category:", .word c.category.name (plain_category _),
    .word "AccesMode:", .word (modeWord c) (plain_modeWord c),
    .word "Context:", .word (contextWord c) (plain_contextWord c)]

theorem spells_lineStart {c : AdminInterfaceCommand} (h : Spelled c) :
    Spells (lineStart c) (startFields c h) := by
  unfold Spells lineStart
  simp only [startFields, List.map_cons, List.map_nil, EscapedList.writeAll, Field.write_word,
    Field.write_quote]
  simp [els]

theorem lineEnd_toList (c : AdminInterfaceCommand) :
    (lineEnd c).toList = ' ' :: EscapedList.writeAll ((endFields c).map Field.toField) := by
  unfold lineEnd
  rw [accessAndContext_eq]
  simp only [endFields, List.map_cons, List.map_nil, EscapedList.writeAll, Field.write_word]
  simp [els]

theorem spells_variableLine {c : AdminInterfaceCommand} (h : Spelled c) {value : String}
    (hvalue : Quotable value) :
    Spells (variableLine c value) (startFields c h ++ .quote value hvalue :: endFields c) := by
  have hend := lineEnd_toList c
  have hstart : (lineStart c).toList = _ := spells_lineStart h
  unfold Spells variableLine
  simp only [String.toList_append, hend, hstart]
  simp only [startFields, endFields, List.map_cons, List.map_nil, EscapedList.writeAll, Field.write_word,
    Field.write_quote, List.cons_append, List.nil_append]
  simp [els]

def variableOf (c : AdminInterfaceCommand) (value : String) : Variable where
  name := c.name
  desc := c.desc
  value := value
  readOnly := readOnlyWord c
  category := c.category.name
  context := contextWord c

theorem listVariables_cons_skip {admin : Bool} {line : String} {ts : List String}
    (htokens : els.tokens line = some ts) (hlength : ts.length ≠ 13) {lines : List String}
    {vars : List Variable} (hlines : listVariables admin lines = some vars) :
    listVariables admin (line :: lines) = some vars := by
  rw [listVariables, htokens, hlines]
  exact if_pos hlength

theorem listVariables_cons {admin : Bool} {c : AdminInterfaceCommand} (h : Spelled c) {value : String}
    (hvalue : Quotable value) {lines : List String} {vars : List Variable}
    (hlines : listVariables admin lines = some vars) :
    listVariables admin (variableLine c value :: lines) =
      some (if admin = true ∨ c.accessMode = .userMode then variableOf c value :: vars else vars) := by
  have htokens : els.tokens (variableLine c value) = some [c.name, "-", c.desc, "Value:", value,
      "Read-only:", readOnlyWord c, "Category:", c.category.name, "AccesMode:", modeWord c, "Context:",
      contextWord c] := (spells_variableLine h hvalue).tokens
  rw [listVariables, htokens, hlines]
  simp only [Option.bind_eq_bind, Option.bind_some, List.length_cons, List.length_nil,
    List.getD_cons_zero, List.getD_cons_succ, modeWord_eq_admin]
  cases admin <;> grind [variableOf]

/-- A word has no more than one token. -/
theorem tokens_of_plain {s : String} (h : Plain s) :
    ∃ ts, els.tokens s = some ts ∧ ts.length ≤ 1 := by
  unfold EscapedList.tokens
  split
  · exact ⟨[], rfl, Nat.zero_le _⟩
  · have hread := EscapedList.fields_writeAll (Field.word s h).toField []
    rw [EscapedList.writeAll, Field.write_word] at hread
    rw [hread]
    exact ⟨_, rfl, Nat.le_refl 1⟩

theorem quotable_lineEnd (c : AdminInterfaceCommand) : Quotable (lineEnd c) := by
  unfold Quotable
  rw [lineEnd_toList]
  refine List.forall_mem_cons.mpr ⟨by decide, quotable_of_words ?_⟩
  simp [endFields, Field.word]

theorem tokens_lineEnd (c : AdminInterfaceCommand) :
    els.tokens ("\"" ++ lineEnd c) = some [lineEnd c] := by
  have hplain := quotable_lineEnd c
  have hfields := EscapedList.fields_true (L := els) fun ch hch => ⟨(hplain ch hch).1, (hplain ch hch).2.1⟩
  rw [EscapedList.tokens, if_neg (by simp), String.toList_append]
  change (els.fields false (els.quote :: (lineEnd c).toList)).map _ = _
  rw [EscapedList.fields_quote, Bool.not_false, hfields]
  exact congrArg (fun s => some [s]) String.ofList_toList

theorem tokens_lineStart {c : AdminInterfaceCommand} (h : Spelled c) {value : String}
    (hvalue : Quotable value) :
    els.tokens (lineStart c ++ " \"" ++ value) = some [c.name, "-", c.desc, "Value:", value] := by
  have hstart : (lineStart c).toList = _ := spells_lineStart h
  have hfields := EscapedList.fields_true (L := els) fun ch hch => ⟨(hvalue ch hch).1, (hvalue ch hch).2.1⟩
  rw [EscapedList.tokens, if_neg (by simp), String.toList_append, String.toList_append, hstart,
    List.append_assoc]
  change (els.fields false (EscapedList.writeAll _ ++ els.sep :: els.quote :: value.toList)).map _ = _
  rw [startFields, List.map_cons, EscapedList.fields_writeAll_append, EscapedList.fields_quote,
    Bool.not_false, hfields]
  simp [Field.toField, Field.word, Field.quote]

/-- The lines of the value of `crashed_backends`. -/
def crashedLines (c : AdminInterfaceCommand) : List String → List String
  | [] => [variableLine c ""]
  | id :: ids => (lineStart c ++ " \"" ++ id) :: (ids ++ ["\"" ++ lineEnd c])

theorem unlines_crashedLines (c : AdminInterfaceCommand) (ids : List String) :
    unlines '\n' (crashedLines c ids) = variableLine c (unlines '\n' ids) ++ "\n" := by
  cases ids with
  | nil => simp [crashedLines, unlines, variableLine]
  | cons id ids =>
    rw [crashedLines, ← List.cons_append, unlines_append]
    refine String.toList_inj.mp ?_
    simp [unlines, variableLine]

theorem crashedBackends_value (s : Service) :
    s.value .crashedBackends = unlines '\n' s.crashedBackends := by
  have hvalue : s.value .crashedBackends =
      s.crashedBackends.foldl (fun lst b => lst ++ b ++ "\n") "" := rfl
  rw [hvalue, foldl_lines (fun _ => true) id, List.filter_true, List.map_id, String.empty_append]
  exact fun _ _ => String.append_assoc

/-- The figures that the instance reports are numbers, and so are the ids of the backends. -/
structure Reported (s : Service) : Prop where
  resMemory : Quotable s.resMemory
  shrMemory : Quotable s.shrMemory
  usedMemory : Quotable s.usedMemory
  ids : ∀ id ∈ s.crashedBackends, Plain id

theorem quotable_append {s t : String} (hs : Quotable s) (ht : Quotable t) : Quotable (s ++ t) := by
  intro c hc
  rw [String.toList_append] at hc
  exact (List.mem_append.mp hc).elim (hs c) (ht c)

theorem quotable_toString (n : Nat) : Quotable (toString n) := by
  intro c hc
  rw [Nat.toString_eq_ofList_toDigits, String.toList_ofList] at hc
  have hdigit := Nat.isDigit_of_mem_toDigits (by decide) (by decide) hc
  refine ⟨?_, ?_, ?_⟩ <;> rintro rfl <;> exact absurd hdigit (by decide)

theorem quotable_value {s : Service} (h : Reported s) {k : Kind} (hk : k ≠ .crashedBackends) :
    Quotable (s.value k) := by
  unfold Service.value
  split
  · exact quotable_append (quotable_append (quotable_append (quotable_append (by decide)
      (quotable_toString _)) (by decide)) (quotable_toString _)) (by decide)
  · exact quotable_toString _
  · exact quotable_toString _
  · exact quotable_toString _
  · exact h.resMemory
  · exact h.shrMemory
  · exact h.usedMemory
  · split
    · decide
    · exact quotable_toString _
  · exact quotable_toString _
  · exact absurd rfl hk
  · exact quotable_toString _
  · exact quotable_toString _
  · decide

/-- The lines for a variable. -/
def variableLines (s : Service) (k : Kind) : List String :=
  if k = .crashedBackends then crashedLines (s.setup.command k) s.crashedBackends
  else [variableLine (s.setup.command k) (s.value k)]

theorem unlines_variableLines (s : Service) (k : Kind) : unlines '\n' (variableLines s k) =
    variableLine (s.setup.command k) (s.value k) ++ "\n" := by
  unfold variableLines
  split
  · rename_i hk
    rw [hk, unlines_crashedLines, crashedBackends_value]
  · simp [unlines]

theorem unlines_flatMap (s : Service) (ks : List Kind) : unlines '\n' (ks.flatMap (variableLines s)) =
    unlines '\n' (ks.map fun k => variableLine (s.setup.command k) (s.value k)) := by
  induction ks with
  | nil => rfl
  | cons k ks ih =>
    have happend : ∀ parts rest, unlines '\n' (parts ++ rest) = unlines '\n' parts ++ unlines '\n' rest := by
      intro parts rest
      induction parts with
      | nil => exact String.empty_append.symm
      | cons part parts ihp =>
        rw [List.cons_append, unlines, List.foldr_cons, unlines, List.foldr_cons]
        exact (congrArg _ ihp).trans (String.append_assoc).symm
    rw [List.flatMap_cons, happend, unlines_variableLines, ih]
    rfl

theorem newline_not_mem_variableLines {s : Service} (h : Reported s) (k : Kind) :
    ∀ line ∈ variableLines s k, '\n' ∉ line.toList := by
  have hspelled := spelled s.setup k
  have hquotable : ∀ {t : String}, Quotable t → '\n' ∉ t.toList := fun ht hmem => (ht _ hmem).2.2 rfl
  unfold variableLines
  split
  · cases hids : s.crashedBackends with
    | nil =>
      rw [crashedLines, List.forall_mem_singleton]
      exact newline_not_mem (spells_variableLine hspelled (by decide))
    | cons id ids =>
      have hall := hids ▸ h.ids
      rw [crashedLines, List.forall_mem_cons]
      constructor
      · simp only [String.toList_append, List.mem_append, not_or]
        exact ⟨⟨newline_not_mem (spells_lineStart hspelled), by decide⟩,
          hquotable (hall id List.mem_cons_self).1⟩
      · intro line hline
        rcases List.mem_append.mp hline with hline | hline
        · exact hquotable (hall line (List.mem_cons_of_mem _ hline)).1
        · rw [List.mem_singleton.mp hline, String.toList_append]
          exact fun hmem => (List.mem_append.mp hmem).elim (by decide)
            (hquotable (quotable_lineEnd _))
  · rename_i hk
    rw [List.forall_mem_singleton]
    exact newline_not_mem (spells_variableLine hspelled (quotable_value h hk))

/-- The variable is shown to someone with or without rights. -/
def Shown (s : Service) (admin : Bool) (k : Kind) : Prop :=
  (admin = true ∨ (s.setup.command k).accessMode = .userMode) ∧
    (k = .crashedBackends → s.crashedBackends = [])

instance (s : Service) (admin : Bool) (k : Kind) : Decidable (Shown s admin k) :=
  inferInstanceAs (Decidable (_ ∧ _))

theorem listVariables_skip_all {admin : Bool} {lines rest : List String} {vars : List Variable}
    (h : ∀ line ∈ lines, Plain line) (hrest : listVariables admin rest = some vars) :
    listVariables admin (lines ++ rest) = some vars := by
  induction lines with
  | nil => exact hrest
  | cons line lines ih =>
    obtain ⟨hline, hlines⟩ := List.forall_mem_cons.mp h
    obtain ⟨ts, htokens, hlength⟩ := tokens_of_plain hline
    exact listVariables_cons_skip htokens (by omega) (ih hlines)

theorem listVariables_lines {s : Service} (h : Reported s) (admin : Bool) (k : Kind)
    {rest : List String} {vars : List Variable} (hrest : listVariables admin rest = some vars) :
    listVariables admin (variableLines s k ++ rest) = some
      (if Shown s admin k then variableOf (s.setup.command k) (s.value k) :: vars else vars) := by
  have hspelled := spelled s.setup k
  unfold variableLines
  split
  · rename_i hk
    cases hids : s.crashedBackends with
    | nil =>
      have hvalue : s.value k = "" := by
        rw [hk, crashedBackends_value, hids]
        rfl
      rw [crashedLines, List.singleton_append, listVariables_cons hspelled (by decide) hrest, hvalue]
      simp [Shown, hids]
    | cons id ids =>
      have hall := hids ▸ h.ids
      have hnot : ¬ Shown s admin k := by simp [Shown, hk, hids]
      have hend : listVariables admin (("\"" ++ lineEnd (s.setup.command k)) :: rest) = some vars :=
        listVariables_cons_skip (tokens_lineEnd _) (by simp) hrest
      have hids := listVariables_skip_all (fun line hline => hall line (List.mem_cons_of_mem _ hline)) hend
      rw [if_neg hnot, crashedLines, List.cons_append, List.append_assoc, List.singleton_append]
      exact listVariables_cons_skip
        (tokens_lineStart hspelled (hall id List.mem_cons_self).1) (by simp) hids
  · rename_i hk
    rw [List.singleton_append, listVariables_cons hspelled (quotable_value h hk) hrest]
    simp [Shown, hk]

theorem handleQuery_variables (s : Service) :
    s.handleQuery "variables" = .ok (s, s.listVariables noUserInfo none) := by
  have hfind : s.setup.find "variables" = some .variables := by
    obtain ⟨fields, hthree, userRegistration, slack⟩ := s.setup
    cases userRegistration <;> cases slack <;> rfl
  have haction : Service.actionOf (split ' ' "variables") = (.none, ["variables"]) := by decide +kernel
  rw [Service.handleQuery_known haction hfind, dispatch_execute rfl rfl rfl]
  rfl

/-- The administrator is shown all variables with their values, except for the ids of the crashed
backends as soon as there is one. -/
theorem variables_shown {s : Service} (h : Reported s) (admin : Bool) :
    ∃ response, s.handleQuery "variables" = .ok (s, response) ∧
      listVariables admin (split '\n' response) = some
        (((s.setup.commands.filter fun k => isVariable (s.setup.command k)).filter fun k =>
          Shown s admin k).map fun k => variableOf (s.setup.command k) (s.value k)) := by
  refine ⟨_, handleQuery_variables s, ?_⟩
  have hvalues : (s.setup.commands.filter fun k => isVariable (s.setup.command k)).map
      (fun k => variableLine (s.setup.command k) (s.handleGetRequest k noUserInfo none)) =
      (s.setup.commands.filter fun k => isVariable (s.setup.command k)).map
        fun k => variableLine (s.setup.command k) (s.value k) :=
    List.map_congr_left fun k hk => congrArg _ (value_eq (List.mem_filter.mp hk).2)
  rw [listVariables_eq, hvalues, ← unlines_flatMap, split_unlines]
  · induction s.setup.commands.filter fun k => isVariable (s.setup.command k) with
    | nil => rfl
    | cons k ks ih =>
      rw [List.flatMap_cons, List.append_assoc, listVariables_lines h admin k ih, List.filter_cons]
      by_cases hshown : Shown s admin k
      · rw [if_pos hshown, if_pos (decide_eq_true hshown), List.map_cons]
      · rw [if_neg hshown, if_neg (mt of_decide_eq_true hshown)]
  · intro line hline
    obtain ⟨k, -, hline⟩ := List.mem_flatMap.mp hline
    exact newline_not_mem_variableLines h k line hline

namespace Sample

def transport : Service where
  setup :=
    { registrationFields := "Jabber ID\nUsername\nPassword"
      threeLines := by decide
      userRegistration := true
      slack := none }
  storage := none

end Sample

theorem variables_shown_transport : ∃ response vars,
    Sample.transport.handleQuery "variables" = .ok (Sample.transport, response) ∧
    listVariables true (split '\n' response) = some vars := by
  have hreported : Reported Sample.transport :=
    ⟨by decide, by decide, by decide, fun _ h => absurd h List.not_mem_nil⟩
  obtain ⟨response, hquery, hvars⟩ := variables_shown hreported true
  exact ⟨response, _, hquery, hvars⟩

/-! ## Arguments -/

/-- The texts of an argument that are on the lines. -/
structure SpelledArg (a : Arg) : Prop where
  name : Plain a.name
  label : Quotable a.label
  sample : Quotable a.sample
  type : Quotable a.type

def argLine (a : Arg) : String :=
  a.name ++ " - \"" ++ a.label ++ "\" Example: \"" ++ a.sample ++ "\" Type: \"" ++ a.type ++ "\""

theorem spells_argLine {a : Arg} (h : SpelledArg a) : Spells (argLine a)
    [.word a.name h.name, .word "-", .quote a.label h.label, .word "Example:", .quote a.sample h.sample,
      .word "Type:", .quote a.type h.type] := by
  unfold Spells argLine
  simp only [List.map_cons, List.map_nil, EscapedList.writeAll, Field.write_word, Field.write_quote]
  simp [els]

theorem listArgs_lines {args : List Arg} (h : ∀ a ∈ args, SpelledArg a) :
    listArgs (args.map argLine ++ [""]) = some args := by
  induction args with
  | nil => rfl
  | cons a args ih =>
    obtain ⟨ha, hargs⟩ := List.forall_mem_cons.mp h
    rw [List.map_cons, List.cons_append, listArgs, (spells_argLine ha).tokens, ih hargs]
    rfl

theorem describeArgs_eq {s : Service} {name : String} {k : Kind} (hfind : s.setup.find name = some k) :
    s.describeArgs [name] = .ok (unlines '\n' ((s.setup.command k).args.map argLine)) := by
  have hend : "\"\n" = "\"" ++ "\n" := by decide
  have hlines := foldl_lines (fun _ => true) argLine
    (fun output a => show output ++ a.name ++ " - \"" ++ a.label ++ "\" Example: \"" ++ a.sample ++
      "\" Type: \"" ++ a.type ++ "\"\n" = _ by
        rw [hend, if_pos rfl]
        simp only [argLine, String.append_assoc])
    (s.setup.command k).args ""
  rw [List.filter_true, String.empty_append] at hlines
  have harg : arg [name] 0 = .ok name := rfl
  rw [← hlines, Service.describeArgs, harg]
  simp only [bind, Except.bind, hfind]
  rfl

theorem handleQuery_describeArgs (s : Service) {name : String} (hname : ' ' ∉ name.toList) :
    s.handleQuery ("args " ++ name) = s.answers (s.describeArgs [name]) := by
  have hargs : s.setup.find "args" = some .args := by
    obtain ⟨fields, hthree, userRegistration, slack⟩ := s.setup
    cases userRegistration <;> cases slack <;> rfl
  have hsplit : split ' ' ("args " ++ name) = ["args", name] := by
    have h := split_append (c := ' ') (s := "args") (by decide) name
    rwa [split_of_not_mem hname] at h
  have haction : Service.actionOf (split ' ' ("args " ++ name)) = (.none, ["args", name]) := by
    rw [hsplit]
    rfl
  rw [Service.handleQuery_known haction hargs, dispatch_execute rfl rfl rfl, Service.execute]

theorem handleQuery_args {s : Service} {name : String} {k : Kind} (hname : ' ' ∉ name.toList)
    (hfind : s.setup.find name = some k) : s.handleQuery ("args " ++ name) =
      .ok (s, unlines '\n' ((s.setup.command k).args.map argLine)) := by
  rw [handleQuery_describeArgs s hname, describeArgs_eq hfind]
  rfl

theorem handleQuery_args_unknown {s : Service} {name : String} (hname : ' ' ∉ name.toList)
    (hfind : s.setup.find name = none) : s.handleQuery ("args " ++ name) =
      .ok (s, "Error: Unknown command passed as an argument.") := by
  have harg : arg [name] 0 = .ok name := rfl
  rw [handleQuery_describeArgs s hname, Service.describeArgs, harg]
  simp only [bind, Except.bind, hfind]
  rfl

end Spectrum.Manager
