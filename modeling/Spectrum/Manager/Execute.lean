import Spectrum.Manager.Access

/-!
# What the users of the web interface have an instance do

An instance does not ask who sends a query. `APIServer` looks into the list of its commands, and adds the
name under which the user is registered.

* `executed_of_run`: someone without rights has no command of administrators executed, and commands for
  users only under his own name.
* `args_shown`: the arguments that are shown for a command are those that it declares.
-/

namespace Spectrum.Manager

open Lib Admin

/-! ## The names of the commands -/

/-- No two commands have the same name. -/
theorem nodup_names (setup : Setup) : (setup.commands.map fun k => (setup.command k).name).Nodup := by
  have hall : ([Kind.args, .averageMemoryPerUser, .backendsCount, .commands, .crashedBackends,
      .crashedBackendsCount, .getOAuth2URL, .hasOnlineUser, .help, .joinRoom, .leaveRoom, .listRooms,
      .messagesFromXMPP, .messagesToXMPP, .onlineUsers, .onlineUsersCount, .register, .reload,
      .resMemory, .setOAuth2Code, .shrMemory, .status, .unregister, .uptime, .usedMemory,
      .variables].map fun k => (setup.command k).name).Nodup := by
    simp only [List.map_cons, List.map_nil, Setup.command]
    decide +kernel
  exact hall.sublist (List.filter_sublist.map _)

theorem mem_of_find {setup : Setup} {name : String} {k : Kind} (h : setup.find name = some k) :
    k ∈ setup.commands := by
  unfold Setup.find at h
  exact List.mem_of_find?_eq_some h

theorem find_of_mem {setup : Setup} {k : Kind} (h : k ∈ setup.commands) :
    setup.find (setup.command k).name = some k := by
  have hsome : (setup.find (setup.command k).name).isSome :=
    List.find?_isSome.mpr ⟨k, h, decide_eq_true rfl⟩
  obtain ⟨k', hfind⟩ := Option.isSome_iff_exists.mp hsome
  have hname := (Service.find_eq_some hfind).1
  rw [hfind, List.inj_on_of_nodup_map (nodup_names setup) (mem_of_find hfind) h hname.symm]

theorem find_unknown (setup : Setup) : setup.find "unknown" = none := by
  obtain ⟨fields, hthree, userRegistration, slack⟩ := setup
  cases userRegistration <;> cases slack <;> rfl

/-- No command is a word that stands in front of one, and none has two words. -/
theorem name_plain (setup : Setup) (k : Kind) :
    (setup.command k).name ≠ "set" ∧ (setup.command k).name ≠ "get" ∧
      ' ' ∉ (setup.command k).name.toList := by
  cases k <;> (simp only [Setup.command]; decide +kernel)

/-! ## Looking for a command -/

theorem findCommand_lines (command : String) {cmds : List AdminInterfaceCommand}
    (h : ∀ c ∈ cmds, Spelled c) : findCommand command (cmds.map commandLine ++ [""]) =
      some ((cmds.find? fun c => c.name = command).map fun c => [c.name, "-", c.desc, "Category:",
        c.category.name, "AccesMode:", modeWord c, "Context:", contextWord c, "Label:", label c]) := by
  induction cmds with
  | nil => rfl
  | cons c cmds ih =>
    obtain ⟨hc, hcmds⟩ := List.forall_mem_cons.mp h
    rw [List.map_cons, List.cons_append, findCommand, tokens_commandLine hc, Option.bind_eq_bind,
      Option.bind_some, List.find?_cons]
    by_cases hname : c.name = command
    · rw [if_neg (by simpa using hname), decide_eq_true hname]
      rfl
    · rw [if_pos (.inr hname), decide_eq_false hname]
      exact ih hcmds

/-- The commands of an instance. -/
def commandsOf (setup : Setup) : List AdminInterfaceCommand :=
  (setup.commands.map setup.command).filter isCommand

theorem spelled_of_mem {setup : Setup} {c : AdminInterfaceCommand} (h : c ∈ commandsOf setup) :
    Spelled c := by
  obtain ⟨k, -, rfl⟩ := List.mem_map.mp (List.mem_filter.mp h).1
  exact spelled setup k

theorem split_listCommands (sv : Service) :
    split '\n' sv.listCommands = (commandsOf sv.setup).map commandLine ++ [""] := by
  rw [listCommands_eq, split_unlines]
  · rfl
  · intro line hline
    obtain ⟨c, hc, rfl⟩ := List.mem_map.mp hline
    exact newline_not_mem (spells_commandLine (spelled_of_mem hc))

/-- The instance has a command for someone with or without rights. -/
def Allowed (setup : Setup) (admin : Bool) (command : String) (k : Kind) : Prop :=
  k ∈ setup.commands ∧ isCommand (setup.command k) ∧ (setup.command k).name = command ∧
    (admin = true ∨ (setup.command k).accessMode = .userMode)

/-- What is found of a command in the answer of an instance. -/
theorem lookUp_cases (sv : Service) (session : Session) (command : String) :
    ((∀ k ∈ sv.setup.commands, isCommand (sv.setup.command k) → (sv.setup.command k).name ≠ command) ∧
      lookUp session command (split '\n' sv.listCommands) = some (.named "unknown" false)) ∨
    ((∀ k, ¬ Allowed sv.setup session.admin command k) ∧
      lookUp session command (split '\n' sv.listCommands) = some .refused) ∨
    ∃ k, Allowed sv.setup session.admin command k ∧
      lookUp session command (split '\n' sv.listCommands) =
        some (.named command (decide ((sv.setup.command k).context = .userContext))) := by
  unfold lookUp
  rw [split_listCommands, findCommand_lines command fun c hc => spelled_of_mem hc]
  cases hfind : (commandsOf sv.setup).find? fun c => c.name = command with
  | none =>
    refine .inl ⟨fun k hk hcommand hname => ?_, rfl⟩
    refine List.find?_eq_none.mp hfind (sv.setup.command k) ?_ (decide_eq_true hname)
    exact List.mem_filter.mpr ⟨List.mem_map_of_mem hk, hcommand⟩
  | some c =>
    have hname : c.name = command := by simpa using List.find?_some hfind
    obtain ⟨hmem, hcommand⟩ := List.mem_filter.mp (List.mem_of_find?_eq_some hfind)
    obtain ⟨k, hk, rfl⟩ := List.mem_map.mp hmem
    simp only [Option.map_some, Option.bind_eq_bind, Option.bind_some, List.getD_cons_succ,
      List.getD_cons_zero, modeWord_eq_admin, contextWord_eq_user]
    by_cases hadmin : session.admin = false ∧ (sv.setup.command k).accessMode ≠ .userMode
    · rw [if_pos hadmin]
      refine .inr (.inl ⟨fun k' hk' => ?_, rfl⟩)
      obtain ⟨hmem', -, hname', hallowed⟩ := hk'
      have hsame := List.inj_on_of_nodup_map (nodup_names sv.setup) hmem' hk (hname'.trans hname.symm)
      rw [hsame, hadmin.1] at hallowed
      exact hallowed.elim Bool.false_ne_true hadmin.2
    · rw [if_neg hadmin]
      refine .inr (.inr ⟨k, ⟨hk, hcommand, hname, ?_⟩, rfl⟩)
      by_contra hnot
      obtain ⟨hno, hmode⟩ := not_or.mp hnot
      exact hadmin ⟨Bool.eq_false_iff.mpr hno, hmode⟩

/-! ## The words of a query -/

/-- The words of the variables `command_arg0` to `command_arg9`. -/
def Request.commandWords (r : Request) : List String :=
  (((List.range 10).map fun i => r.var ("command_arg" ++ toString i)).filter (· ≠ "")).flatMap (split ' ')

/-- A text in front of words, in front of each a space. -/
theorem split_foldl (vars : List String) (text : String) :
    split ' ' (text ++ vars.foldl (fun command var => if var = "" then command else command ++ (" " ++ var)) "") =
      split ' ' text ++ (vars.filter (· ≠ "")).flatMap (split ' ') := by
  have hnext : ∀ (vars : List String) (command : String),
      split ' ' (text ++ vars.foldl
        (fun command var => if var = "" then command else command ++ (" " ++ var)) command) =
      split ' ' (text ++ command) ++ (vars.filter (· ≠ "")).flatMap (split ' ') := by
    intro vars
    induction vars with
    | nil => exact fun command => (List.append_nil _).symm
    | cons var vars ih =>
      intro command
      rw [List.foldl_cons, ih]
      by_cases hvar : var = ""
      · rw [if_pos hvar, List.filter_cons_of_neg (by simpa using hvar)]
      · have hassoc : text ++ (command ++ (" " ++ var)) = text ++ command ++ String.singleton ' ' ++ var := by
          simp [String.append_assoc]
        rw [if_neg hvar, List.filter_cons_of_pos (by simpa using hvar), List.flatMap_cons, hassoc,
          split_append_split, List.append_assoc]
  rw [hnext, String.append_empty]

theorem split_commandArgs (r : Request) (text : String) :
    split ' ' (text ++ r.commandArgs) = split ' ' text ++ r.commandWords := by
  have hargs : r.commandArgs = ((List.range 10).map fun i => r.var ("command_arg" ++ toString i)).foldl
      (fun command var => if var = "" then command else command ++ (" " ++ var)) "" := by
    rw [List.foldl_map]
    rfl
  rw [hargs, split_foldl]
  rfl

theorem handleQuery_unknown (sv : Service) (r : Request) : sv.handleQuery ("unknown" ++ r.commandArgs) =
    .ok (sv, "Error: Unknown variable or command") := by
  have haction : Service.actionOf (split ' ' ("unknown" ++ r.commandArgs)) =
      (.none, "unknown" :: r.commandWords) := by
    rw [split_commandArgs, split_of_not_mem (by decide)]
    rfl
  exact Service.handleQuery_unknown haction (find_unknown sv.setup)

/-- A query with a command and words behind it. -/
theorem handleQuery_command (sv : Service) {k : Kind} (hk : k ∈ sv.setup.commands) {query : String}
    {args : List String} (hquery : split ' ' query = (sv.setup.command k).name :: args) :
    sv.handleQuery query = sv.dispatch .none k args := by
  obtain ⟨hset, hget, -⟩ := name_plain sv.setup k
  refine Service.handleQuery_known ?_ (find_of_mem hk)
  rw [hquery]
  unfold Service.actionOf
  split
  · rename_i heq
    exact absurd (List.cons.inj heq).1 hset
  · rename_i heq
    exact absurd (List.cons.inj heq).1 hget
  · rfl

/-! ## Commands -/

section Execute

variable {env : Env} {s s' : State} {r : Request} {tr : List (State × Request)} {session : Session}
  {db : Storage.Db} {uri : String} {sv : Service}

/-- What a query may do that is sent for someone without rights, who is registered under the name. -/
def Permitted (setup : Setup) (r : Request) (name : Option String) (query : String) : Prop :=
  query = "commands" ∨
  ∀ sv : Service, sv.setup = setup →
    sv.handleQuery query = .ok (sv, "Error: Unknown variable or command") ∨
    ∃ k, Allowed setup false (trim (r.var "command")) k ∧
      ((setup.command k).context = .globalContext ∧
        sv.handleQuery query = sv.dispatch .none k r.commandWords ∨
      (setup.command k).context = .userContext ∧ ∃ n, name = some n ∧ n ≠ "" ∧
        sv.handleQuery query = sv.dispatch .none k (split ' ' n ++ r.commandWords))

theorem showResponse_ne {response instance_ cmd answer : String} {effects : List Effect}
    (h : showResponse response = some effects) : .command instance_ cmd answer ∉ effects := by
  unfold showResponse at h
  dsimp only at h
  split at h
  · obtain ⟨rows, -, h⟩ := Option.bind_eq_some_iff.mp h
    cases h
    simp
  · cases h
    simp

/-- The query that is sent for a command that was found. -/
theorem permitted_of_lookUp (hadmin : session.admin = false) {command name : String} {userContext : Bool}
    (hfound : lookUp session (trim (r.var "command")) (split '\n' sv.listCommands) =
      some (.named command userContext)) (hname : userContext = true → name ≠ "") :
    Permitted sv.setup r (some name)
      ((if userContext then command ++ (" " ++ name) else command) ++ r.commandArgs) := by
  refine .inr fun sv' hsetup => ?_
  rcases lookUp_cases sv session (trim (r.var "command")) with
    ⟨-, hlookUp⟩ | ⟨-, hlookUp⟩ | ⟨k, hallowed, hlookUp⟩
  · rw [hfound] at hlookUp
    cases hlookUp
    exact .inl (handleQuery_unknown sv' r)
  · rw [hfound] at hlookUp
    cases hlookUp
  · rw [hfound] at hlookUp
    cases hlookUp
    rw [hadmin, ← hsetup] at hallowed
    rw [← hsetup] at hname ⊢
    have hspace := (name_plain sv'.setup k).2.2
    refine .inr ⟨k, hallowed, ?_⟩
    obtain ⟨hk, -, hcommand, -⟩ := hallowed
    cases hcontext : (sv'.setup.command k).context with
    | globalContext =>
      refine .inl ⟨rfl, handleQuery_command sv' hk ?_⟩
      rw [decide_eq_false (by decide), if_neg Bool.false_ne_true, split_commandArgs, ← hcommand,
        split_of_not_mem hspace]
      rfl
    | userContext =>
      refine .inr ⟨rfl, name, rfl, hname (decide_eq_true hcontext), handleQuery_command sv' hk ?_⟩
      have hassoc : trim (r.var "command") ++ (" " ++ name) =
          trim (r.var "command") ++ String.singleton ' ' ++ name := by
        simp [String.append_assoc]
      rw [decide_eq_true rfl, if_pos rfl, split_commandArgs, hassoc, split_append_split, ← hcommand,
        split_of_not_mem hspace]
      rfl

/-- The queries that are sent for a call to execute a command. -/
theorem permitted_execute {storage : Option Storage.Backend} (hadmin : session.admin = false)
    (hanswer : r.sendCommand 0 (lastPart uri) "commands" = sv.listCommands) {effects : List Effect}
    {db' : Storage.Db} (h : serveInstancesExecute storage r session db uri = some (db', effects))
    {instance_ query answer : String} (hmem : .command instance_ query answer ∈ effects) :
    instance_ = lastPart uri ∧
      Permitted sv.setup r ((username storage r session db (lastPart uri)).map fun u => u.2.2) query := by
  unfold serveInstancesExecute at h
  dsimp only at h
  rw [hanswer] at h
  have hfirst : ∀ name, .command instance_ query answer ∈
      [Effect.command (lastPart uri) "commands" sv.listCommands] →
      instance_ = lastPart uri ∧ Permitted sv.setup r name query := by
    intro name hcommand
    cases List.mem_singleton.mp hcommand
    exact ⟨rfl, .inl rfl⟩
  obtain ⟨found, hfound, h⟩ := Option.bind_eq_some_iff.mp h
  cases found with
  | refused =>
    cases h
    exact hfirst _ (by simpa using hmem)
  | named command userContext =>
    obtain ⟨⟨id, db₁, name⟩, hname, h⟩ := Option.bind_eq_some_iff.mp h
    dsimp only at h
    simp only [hadmin, true_and, and_true] at h
    rw [hname, Option.map_some]
    by_cases hno : userContext = true ∧ name = ""
    · rw [if_pos hno] at h
      cases h
      exact hfirst _ (by simpa using hmem)
    · rw [if_neg hno] at h
      obtain ⟨shown, hshown, h⟩ := Option.bind_eq_some_iff.mp h
      cases h
      simp only [List.mem_append] at hmem
      rcases hmem with ((hmem | hmem) | hmem) | hmem
      · exact hfirst _ hmem
      · cases List.mem_singleton.mp hmem
        exact ⟨rfl, permitted_of_lookUp hadmin hfound fun huser hempty => hno ⟨huser, hempty⟩⟩
      · split at hmem
        · simp at hmem
        · simp at hmem
      · exact absurd hmem (showResponse_ne hshown)

/-- For someone without rights, no query is sent that executes a command of the administrators, and the
commands for users are executed under the name that is stored for him. -/
theorem executed_of_run (h : (machine env).Run tr s) (huri : State.stripped env r.uri = some uri)
    (hapi : apiOf uri = .execute) (hsession : s.getSession r = some session) (hadmin : session.admin = false)
    (hanswer : r.sendCommand 0 (lastPart uri) "commands" = sv.listCommands)
    (hs : s.eventHandler env r = some s') : ∃ effects, s'.done = (r, effects) :: s.done ∧
      ∀ instance_ query answer, .command instance_ query answer ∈ effects → instance_ = lastPart uri ∧
        Permitted sv.setup r ((username env.storage r session s.db (lastPart uri)).map fun u => u.2.2) query := by
  have hknown : apiOf uri ≠ .unknown := by simp [hapi]
  have hadd : apiOf uri ≠ .usersAdd := by simp [hapi]
  rw [eventHandler_api (genuine_of_run h) huri (not_public_of_api hknown hadd) (startsWith_of_api hknown)
    hsession] at hs
  obtain ⟨⟨db, effects⟩, hserved, rfl⟩ := Option.map_eq_some_iff.mp hs
  simp only [handleRequest, hapi, Option.bind_eq_bind, Option.bind_some] at hserved
  have hprolonged : (prolonged r session).admin = false := hadmin
  exact ⟨effects, rfl, fun _ _ _ => permitted_execute hprolonged hanswer hserved⟩

end Execute

/-! ## The arguments of a command -/

def argNames : List String :=
  ["command", "username", "legacy_username", "legacy_password", "nickname", "legacy_room", "legacy_server",
    "slack_channel"]

theorem arg_of_mem {setup : Setup} {k : Kind} {a : Admin.Arg} (h : a ∈ (setup.command k).args) :
    a.name ∈ argNames ∧ (a.type = "string" ∨ a.type = "password") := by
  have hregistration : a ∈ setup.registrationArgs →
      a.name ∈ argNames ∧ (a.type = "string" ∨ a.type = "password") := by
    intro ha
    unfold Setup.registrationArgs at ha
    grind [argNames]
  have hjoin : ∀ labels, a ∈ Setup.joinRoomArgs labels →
      a.name ∈ argNames ∧ (a.type = "string" ∨ a.type = "password") := by
    intro labels ha
    simp only [Setup.joinRoomArgs, List.mem_cons, List.not_mem_nil, or_false] at ha
    rcases ha with rfl | rfl | rfl | rfl <;> simp [argNames]
  cases k with
  | register => exact hregistration h
  | getOAuth2URL => exact hregistration h
  | joinRoom => exact hjoin _ h
  | args | hasOnlineUser | leaveRoom =>
    simp only [Setup.command, List.mem_singleton] at h
    rw [h]
    exact ⟨by decide, .inl rfl⟩
  | _ => exact absurd h List.not_mem_nil

/-- The texts of the arguments that come from the configuration can stand between quotes. -/
def Configured (setup : Setup) : Prop :=
  ∀ k, ∀ a ∈ (setup.command k).args, Quotable a.label ∧ Quotable a.sample

theorem spelledArg_of_mem {setup : Setup} {k : Kind} {a : Admin.Arg} (hconfigured : Configured setup)
    (h : a ∈ (setup.command k).args) : SpelledArg a := by
  obtain ⟨hname, htype⟩ := arg_of_mem h
  have hplain : ∀ name ∈ argNames, Plain name := by decide
  refine ⟨hplain _ hname, (hconfigured k a h).1, (hconfigured k a h).2, ?_⟩
  rcases htype with htype | htype
  · rw [htype]
    decide
  · rw [htype]
    decide

theorem split_argLines {args : List Admin.Arg} (h : ∀ a ∈ args, SpelledArg a) :
    split '\n' (unlines '\n' (args.map argLine)) = args.map argLine ++ [""] := by
  refine split_unlines fun line hline => ?_
  obtain ⟨a, ha, rfl⟩ := List.mem_map.mp hline
  exact newline_not_mem (spells_argLine (h a ha))

/-- The description of arguments is not taken for an error. -/
theorem startsWith_argLines {setup : Setup} {k : Kind} :
    startsWith "Error:" (unlines '\n' ((setup.command k).args.map argLine)) = false := by
  cases hargs : (setup.command k).args with
  | nil => decide
  | cons a args =>
    have hname := (arg_of_mem (hargs ▸ List.mem_cons_self : a ∈ (setup.command k).args)).1
    have hall : ∀ name ∈ argNames, name.toList ≠ [] ∧ name.toList.head? ≠ some 'E' := by decide
    obtain ⟨hne, hhead⟩ := hall _ hname
    obtain ⟨c, cs, hcs⟩ := List.exists_cons_of_ne_nil hne
    rw [hcs, List.head?_cons] at hhead
    refine Bool.eq_false_iff.mpr fun hstart => ?_
    have hprefix := startsWith_iff.mp hstart
    rw [List.map_cons, unlines, List.foldr_cons] at hprefix
    simp only [argLine, String.toList_append, List.append_assoc, hcs, List.cons_append] at hprefix
    exact hhead (congrArg some (List.cons_prefix_cons.mp hprefix).1.symm)

/-- The argument that is added for the administrator. -/
def userArg : Admin.Arg := { name := "username", label := "Username", type := "" }

/-- The arguments that are shown for a command are those that it declares, and for an administrator the
name of the user in front of them if the command is for users. There is no list if the command is not
there or is not for the one who asks. -/
theorem args_shown {storage : Option Storage.Backend} {r : Request} {session : Session} {db : Storage.Db}
    {uri : String} {sv : Service} (hconfigured : Configured sv.setup)
    (hcommands : r.sendCommand 0 (lastPart uri) "commands" = sv.listCommands)
    (hargs : ∀ name answer, ' ' ∉ name.toList → sv.handleQuery ("args " ++ name) = .ok (sv, answer) →
      r.sendCommand 1 (lastPart uri) ("args " ++ name) = answer) (hapi : apiOf uri = .commandArgs) :
    ∃ effects, handleRequest storage r (some session) db uri = some (db, effects) ∧
      ∀ list, .args list ∈ effects ↔ ∃ k, Allowed sv.setup session.admin (trim (r.var "command")) k ∧
        list = (if (sv.setup.command k).context = .userContext ∧ session.admin then [userArg] else []) ++
          (sv.setup.command k).args := by
  have hserved : handleRequest storage r (some session) db uri =
      serveInstancesCommandArgs r session db uri := by
    simp only [handleRequest, hapi, Option.bind_eq_bind, Option.bind_some]
  rw [hserved]
  unfold serveInstancesCommandArgs
  dsimp only
  rw [hcommands]
  rcases lookUp_cases sv session (trim (r.var "command")) with
    ⟨hnone, hlookUp⟩ | ⟨hnone, hlookUp⟩ | ⟨k, hallowed, hlookUp⟩
  · have hquery : sv.handleQuery ("args " ++ "unknown") =
        .ok (sv, "Error: Unknown command passed as an argument.") :=
      handleQuery_args_unknown (by decide) (find_unknown sv.setup)
    rw [hlookUp, Option.bind_eq_bind, Option.bind_some]
    dsimp only
    rw [hargs _ _ (by decide) hquery, if_pos (by decide)]
    refine ⟨_, rfl, fun list => ⟨fun hmem => by simp at hmem, ?_⟩⟩
    rintro ⟨k, ⟨hk, hcommand, hname, -⟩, -⟩
    exact absurd hname (hnone k hk hcommand)
  · rw [hlookUp, Option.bind_eq_bind, Option.bind_some]
    refine ⟨_, rfl, fun list => ⟨fun hmem => by simp at hmem, ?_⟩⟩
    rintro ⟨k, hk, -⟩
    exact absurd hk (hnone k)
  · obtain ⟨hk, -, hname, -⟩ := id hallowed
    have hspace := (name_plain sv.setup k).2.2
    have hquery := handleQuery_args (s := sv) hspace (find_of_mem hk)
    rw [hname] at hquery hspace
    rw [hlookUp, Option.bind_eq_bind, Option.bind_some]
    dsimp only
    have hspelled : ∀ a ∈ (sv.setup.command k).args, SpelledArg a :=
      fun _ ha => spelledArg_of_mem hconfigured ha
    rw [hargs _ _ hspace hquery, startsWith_argLines, if_neg Bool.false_ne_true, split_argLines hspelled,
      listArgs_lines hspelled]
    refine ⟨_, rfl, fun list => ⟨fun hmem => ?_, ?_⟩⟩
    · refine ⟨k, hallowed, ?_⟩
      simpa [userArg] using hmem
    · rintro ⟨k', ⟨hk', -, hname', -⟩, rfl⟩
      have hsame := List.inj_on_of_nodup_map (nodup_names sv.setup) hk' hk (hname'.trans hname.symm)
      rw [hsame]
      simp [userArg]

end Spectrum.Manager
