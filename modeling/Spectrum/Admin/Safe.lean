import Spectrum.Admin.Query

/-!
# Which queries are safe

Three queries leave defined behaviour: the list of the online users when somebody is online, the
removal of a user who is known, and a room for a Slack user who is online. No other query does.
-/

namespace Spectrum.Admin

open Lib

/-- No argument is read that is not there, and no user is asked who is not there. -/
def Safe {α : Type} (r : Except Stop α) : Prop := r = .error .elsewhere ∨ ∃ a, r = .ok a

section Safe

variable {α β : Type} {r : Except Stop α} {f : α → Except Stop β} {args : List String} {i : Nat}

theorem Safe.ok (a : α) : Safe (.ok a) := Or.inr ⟨a, rfl⟩

theorem Safe.elsewhere : Safe (.error .elsewhere : Except Stop α) := Or.inl rfl

theorem Safe.bind (hr : Safe r) (hf : ∀ a, r = .ok a → Safe (f a)) : Safe (r >>= f) := by
  rcases hr with rfl | ⟨a, rfl⟩
  · exact Safe.elsewhere
  · exact hf a rfl

theorem Safe.arg (h : i < args.length) : Safe (arg args i) := by
  rw [Admin.arg, List.getElem?_eq_getElem h]
  exact Safe.ok _

theorem not_safe_outOfRange : ¬ Safe (.error .outOfRange : Except Stop α) := by
  rintro (h | ⟨a, h⟩)
  · cases h
  · cases h

theorem not_safe_nullUser : ¬ Safe (.error .nullUser : Except Stop α) := by
  rintro (h | ⟨a, h⟩)
  · cases h
  · cases h

end Safe

/-! ## The base class -/

theorem AdminInterfaceCommand.noUser_iff {c : AdminInterfaceCommand} {uinfo : Storage.UserInfo}
    {user : Option Storage.UserInfo} :
    c.NoUser uinfo user ↔ (user = none ∧ uinfo.id = -1) ∧ c.context = .userContext := by
  unfold NoUser
  cases c.context with
  | globalContext => exact and_congr_right' (iff_of_false (fun h => h (by decide)) nofun)
  | userContext => exact and_congr_right' (iff_of_true (by decide) rfl)

/-- What holds when the base class lets a command through. -/
theorem AdminInterfaceCommand.of_handleExecuteRequest {c : AdminInterfaceCommand}
    {uinfo : Storage.UserInfo} {user : Option Storage.UserInfo} {args : List String}
    (h : c.handleExecuteRequest uinfo user args = "") :
    ¬ c.NoUser uinfo user ∧ args.length = c.args.length := by
  unfold handleExecuteRequest at h
  split at h
  · exact absurd h (by decide)
  split at h
  · exact absurd h (by decide)
  split at h
  · exact absurd h (by decide)
  rename_i huser
  split at h
  · exact absurd h (by decide)
  split at h
  · exact absurd h (by decide)
  exact ⟨huser, by omega⟩

/-- The number of `AdminMode` is 0: nobody is refused. -/
theorem AdminInterfaceCommand.handleExecuteRequest_eq_empty {c : AdminInterfaceCommand}
    {uinfo : Storage.UserInfo} {user : Option Storage.UserInfo} {args : List String}
    (hactions : c.actions = .execute) (huser : ¬ c.NoUser uinfo user)
    (hargs : args.length = c.args.length) : c.handleExecuteRequest uinfo user args = "" := by
  have hmode : ¬ (user ≠ none ∧ c.accessMode.bits &&& AccessMode.adminMode.bits ≠ 0) := by
    rintro ⟨-, hbits⟩
    exact hbits (Nat.and_zero _)
  have hexecute : ¬ c.actions.bits &&& Actions.execute.bits = 0 := by
    rw [hactions]
    decide
  rw [handleExecuteRequest, if_neg hexecute, if_neg hmode, if_neg huser, if_neg (by omega),
    if_neg (by omega)]

/-! ## The commands -/

namespace Service

variable {s : Service} {k : Kind} {uinfo : Storage.UserInfo} {user : Option Storage.UserInfo}
  {args : List String}

theorem safe_answers {answer : Except Stop String} (h : Safe answer) : Safe (s.answers answer) :=
  h.bind fun _ _ => Safe.ok _

theorem safe_onlineUsers_iff : Safe (s.onlineUsers user) ↔ user ≠ none ∨ s.users = [] := by
  cases user with
  | some user =>
    refine iff_of_true ?_ (Or.inl nofun)
    have hfold : ∀ (users : List (String × Storage.UserInfo)) (ret : String),
        Safe (users.foldlM (fun ret u => (.ok (ret ++ u.1 ++
          " \"3rd-party network username:\" \"" ++ user.uin ++ "\"\n") : Except Stop String))
          ret) := by
      intro users
      induction users with
      | nil => exact fun ret => Safe.ok ret
      | cons u users ih => exact fun ret => ih _
    exact hfold s.users _
  | none =>
    cases hs : s.users with
    | nil =>
      refine iff_of_true ?_ (Or.inr rfl)
      rw [onlineUsers, hs]
      exact Safe.ok _
    | cons u users =>
      refine iff_of_false (fun h => ?_) ?_
      · rw [onlineUsers, hs] at h
        exact not_safe_nullUser h
      · rintro (h | h)
        · exact h rfl
        · cases h

theorem safe_hasOnlineUser : Safe (s.hasOnlineUser args) := by
  unfold hasOnlineUser
  split_ifs with hargs
  · exact Safe.ok _
  · exact (Safe.arg (List.length_pos_iff.mpr hargs)).bind fun _ _ => Safe.ok _

theorem safe_registerUser (user : Storage.UserInfo) : Safe (s.registerUser user) := by
  unfold registerUser
  cases s.storage with
  | none => exact Safe.elsewhere
  | some b =>
    simp only []
    cases b.getUser user.jid s.db with
    | throws => exact Safe.elsewhere
    | notFound => exact Safe.ok _
    | found old => exact Safe.ok _

theorem safe_register : Safe (s.register args) := by
  unfold register
  split_ifs with hcount htwo
  · exact Safe.ok _
  · exact (Safe.arg (by omega)).bind fun _ _ => (Safe.arg (by omega)).bind fun _ _ =>
      (Safe.ok _).bind fun _ _ => (safe_registerUser _).bind fun _ _ => Safe.ok _
  · exact (Safe.arg (by omega)).bind fun _ _ => (Safe.arg (by omega)).bind fun _ _ =>
      (Safe.arg (by omega)).bind fun _ _ => (safe_registerUser _).bind fun _ _ => Safe.ok _

theorem safe_setOAuth2Code : Safe (s.setOAuth2Code args) := by
  unfold setOAuth2Code
  split_ifs with hcount
  · exact Safe.ok _
  · exact (Safe.arg (by omega)).bind fun _ _ => (Safe.arg (by omega)).bind fun _ _ => Safe.ok _

theorem safe_getOAuth2URL : Safe (s.getOAuth2URL args) := by
  unfold getOAuth2URL
  split_ifs with hslack hcount
  · exact Safe.ok _
  · exact (Safe.arg (by omega)).bind fun _ _ => (Safe.arg (by omega)).bind fun _ _ => Safe.ok _
  · exact Safe.ok _

theorem safe_describeArgs (h : args.length = 1) : Safe (s.describeArgs args) := by
  unfold describeArgs
  refine (Safe.arg (by omega)).bind fun name _ => ?_
  cases s.setup.find name with
  | none => exact Safe.ok _
  | some k => exact Safe.ok _

theorem safe_rooms (id : Int) : Safe (s.rooms id) := by
  unfold rooms
  cases s.storage with
  | none => exact Safe.elsewhere
  | some b => exact Safe.ok _

theorem safe_listRooms : Safe (s.listRooms uinfo) := by
  unfold listRooms
  split_ifs
  · exact Safe.ok _
  · exact (safe_rooms _).bind fun _ _ => Safe.ok _

theorem safe_leaveRoom (h : args.length = 1) : Safe (s.leaveRoom uinfo args) := by
  unfold leaveRoom
  split_ifs
  · exact Safe.ok _
  · exact (safe_rooms _).bind fun _ _ => (Safe.arg (by omega)).bind fun _ _ => Safe.ok _

/-- Four arguments are too few for `handleJoinMessage`. -/
theorem safe_joinRoom_iff (h : args.length = 4) :
    Safe (s.joinRoom uinfo user args) ↔ uinfo.id = -1 ∨ s.storage = none ∨ user = none := by
  by_cases hid : uinfo.id = -1
  · rw [joinRoom, if_pos hid]
    exact iff_of_true (Safe.ok _) (Or.inl hid)
  · rw [joinRoom, if_neg hid]
    match args, h with
    | [nickname, room, server, channel], _ =>
      cases hstorage : s.storage with
      | none =>
        refine iff_of_true ?_ (Or.inr (Or.inl rfl))
        rw [rooms, hstorage]
        exact Safe.elsewhere
      | some b =>
        rw [rooms, hstorage]
        cases user with
        | none => exact iff_of_true (Safe.ok _) (Or.inr (Or.inr rfl))
        | some user =>
          refine iff_of_false not_safe_outOfRange ?_
          rintro (h | h | h)
          · exact hid h
          · cases h
          · cases h

/-- `unregisterUser` comes back. -/
def Unregistrable (s : Service) (barejid : String) : Prop :=
  ∃ b, s.storage = some b ∧ b.getUser barejid s.db ≠ .throws

theorem safe_unregister_iff (h : args = []) :
    Safe (s.unregister uinfo args) ↔ ¬ s.Unregistrable uinfo.jid := by
  subst h
  unfold unregister unregisterUser
  cases hstorage : s.storage with
  | none =>
    refine iff_of_true Safe.elsewhere ?_
    rintro ⟨b, hb, -⟩
    rw [hstorage] at hb
    cases hb
  | some b =>
    simp only []
    cases hget : b.getUser uinfo.jid s.db with
    | throws =>
      refine iff_of_true Safe.elsewhere ?_
      rintro ⟨b', hb, hne⟩
      rw [hstorage] at hb
      obtain rfl := Option.some.inj hb
      exact hne hget
    | notFound =>
      exact iff_of_false not_safe_outOfRange fun hnot => hnot ⟨b, hstorage, by rw [hget]; nofun⟩
    | found user =>
      exact iff_of_false not_safe_outOfRange fun hnot => hnot ⟨b, hstorage, by rw [hget]; nofun⟩

/-- The command leaves defined behaviour although the base class lets it through. -/
def Faults (s : Service) (uinfo : Storage.UserInfo) (user : Option Storage.UserInfo)
    (args : List String) : Kind → Prop
  | .onlineUsers => args = [] ∧ user = none ∧ s.users ≠ []
  | .unregister => args = [] ∧ ¬ (user = none ∧ uinfo.id = -1) ∧ s.Unregistrable uinfo.jid
  | .joinRoom => args.length = 4 ∧ uinfo.id ≠ -1 ∧ s.storage ≠ none ∧ user ≠ none
  | _ => False

/-- The declared arguments are there. -/
theorem safe_execute_iff (hargs : args.length = (s.setup.command k).args.length)
    (huser : ¬ (s.setup.command k).NoUser uinfo user) :
    Safe (s.execute k uinfo user args) ↔ ¬ s.Faults uinfo user args k := by
  cases k with
  | onlineUsers =>
    have hnil : args = [] := List.length_eq_zero_iff.mp hargs
    have hanswers : Safe (s.answers (s.onlineUsers user)) ↔ Safe (s.onlineUsers user) := by
      refine ⟨fun h => ?_, safe_answers⟩
      cases honline : s.onlineUsers user with
      | ok text => exact Safe.ok _
      | error stop =>
        rw [honline] at h
        rcases h with h | ⟨a, h⟩
        · exact Or.inl (congrArg Except.error (Except.error.inj h))
        · cases h
    have hfaults : s.Faults uinfo user args .onlineUsers ↔ user = none ∧ s.users ≠ [] :=
      and_iff_right hnil
    have hiff := hanswers.trans safe_onlineUsers_iff
    rw [execute, hiff, hfaults]
    tauto
  | unregister =>
    have hnil : args = [] := List.length_eq_zero_iff.mp hargs
    have hknown : ¬ (user = none ∧ uinfo.id = -1) := fun h =>
      huser (AdminInterfaceCommand.noUser_iff.mpr ⟨h, rfl⟩)
    have hfaults : s.Faults uinfo user args .unregister ↔ s.Unregistrable uinfo.jid :=
      (and_iff_right hnil).trans (and_iff_right hknown)
    rw [execute, hfaults]
    exact safe_unregister_iff hnil
  | joinRoom =>
    have hfour : args.length = 4 := hargs
    have hfaults : s.Faults uinfo user args .joinRoom ↔
        uinfo.id ≠ -1 ∧ s.storage ≠ none ∧ user ≠ none := and_iff_right hfour
    rw [execute, safe_joinRoom_iff hfour, hfaults]
    tauto
  | leaveRoom => exact iff_of_true (safe_leaveRoom hargs) id
  | listRooms => exact iff_of_true safe_listRooms id
  | args => exact iff_of_true (safe_answers (safe_describeArgs hargs)) id
  | getOAuth2URL => exact iff_of_true (safe_answers safe_getOAuth2URL) id
  | setOAuth2Code => exact iff_of_true (safe_answers safe_setOAuth2Code) id
  | hasOnlineUser => exact iff_of_true (safe_answers safe_hasOnlineUser) id
  | register => exact iff_of_true safe_register id
  | _ => exact iff_of_true (Safe.ok _) id

theorem safe_handleExecuteRequest_iff :
    Safe (s.handleExecuteRequest k uinfo user args) ↔ ¬ s.Faults uinfo user args k := by
  unfold handleExecuteRequest
  by_cases hbase : (s.setup.command k).handleExecuteRequest uinfo user args = ""
  · obtain ⟨huser, hargs⟩ := AdminInterfaceCommand.of_handleExecuteRequest hbase
    rw [if_neg (not_not.mpr hbase)]
    exact safe_execute_iff hargs huser
  · -- Where a command faults, the base class lets it through.
    rw [if_pos hbase]
    refine iff_of_true (Safe.ok _) fun hfaults => hbase ?_
    cases k with
    | onlineUsers =>
      exact AdminInterfaceCommand.handleExecuteRequest_eq_empty rfl
        (fun h => nomatch (AdminInterfaceCommand.noUser_iff.mp h).2)
        (List.length_eq_zero_iff.mpr hfaults.1)
    | unregister =>
      exact AdminInterfaceCommand.handleExecuteRequest_eq_empty rfl (fun h => hfaults.2.1 h.1)
        (List.length_eq_zero_iff.mpr hfaults.1)
    | joinRoom =>
      exact AdminInterfaceCommand.handleExecuteRequest_eq_empty rfl
        (fun h => hfaults.2.1 h.1.2) hfaults.1
    | _ => exact hfaults.elim

/-! ## The query -/

theorem find_eq_some {setup : Setup} {name : String} (h : setup.find name = some k) :
    name = (setup.command k).name ∧ setup.registered k = true := by
  unfold Setup.find at h
  have hname : (setup.command k).name = name := by simpa using List.find?_some h
  have hmem := List.mem_of_find?_eq_some h
  exact ⟨hname.symm, (List.mem_filter.mp hmem).2⟩

theorem find_onlineUsers (setup : Setup) : setup.find "online_users" = some .onlineUsers := by
  obtain ⟨fields, hthree, userRegistration, slack⟩ := setup
  cases userRegistration <;> cases slack <;> rfl

theorem find_unregister {setup : Setup} (h : setup.userRegistration = true) :
    setup.find "unregister" = some .unregister := by
  obtain ⟨fields, hthree, userRegistration, slack⟩ := setup
  cases userRegistration with
  | false => cases h
  | true => cases slack <;> rfl

theorem find_joinRoom {setup : Setup} (h : setup.slack.isSome = true) :
    setup.find "join_room" = some .joinRoom := by
  obtain ⟨fields, hthree, userRegistration, slack⟩ := setup
  cases slack with
  | none => cases h
  | some labels => cases userRegistration <;> rfl

theorem safe_perform {action : Actions} (h : action ≠ .execute) :
    Safe (s.perform action k uinfo user args) := by
  cases action with
  | none => exact Safe.ok _
  | get => exact Safe.ok _
  | set => exact Safe.ok _
  | execute => exact absurd rfl h

theorem safe_lookUp (name : String) : Safe (s.lookUp name) := by
  unfold lookUp
  cases s.storage with
  | none => exact Safe.ok _
  | some b =>
    simp only []
    cases b.getUser name s.db with
    | throws => exact Safe.elsewhere
    | notFound => exact Safe.ok _
    | found user => exact Safe.ok _

/-- The query was for a variable or a value was to be set. -/
theorem safe_dispatch {action : Actions} (hnone : action ≠ .none) (hexecute : action ≠ .execute) :
    Safe (s.dispatch action k args) := by
  unfold dispatch
  simp only [if_neg hnone]
  split
  · cases args with
    | nil => exact Safe.ok _
    | cons name args => exact (safe_lookUp name).bind fun _ _ => safe_perform hexecute
  · exact safe_perform hexecute

/-- Without `get` and `set` variables are read and commands are executed. -/
theorem action_cases (setup : Setup) (k : Kind) :
    (setup.command k).actions = .get ∨ (setup.command k).actions = .execute := by
  cases k <;> first | exact Or.inl rfl | exact Or.inr rfl

/-- The command faults in its context. -/
def DispatchFaults (s : Service) (k : Kind) (args : List String) : Prop :=
  if (s.setup.command k).context = .userContext then
    ∃ name rest uinfo, args = name :: rest ∧ s.lookUp name = .ok uinfo ∧
      s.Faults uinfo (s.getUser name) rest k
  else s.Faults noUserInfo none args k

theorem execute_of_faults (h : s.Faults uinfo user args k) :
    (s.setup.command k).actions = .execute := by
  cases k with
  | onlineUsers => rfl
  | unregister => rfl
  | joinRoom => rfl
  | _ => exact h.elim

theorem safe_dispatch_none_iff : Safe (s.dispatch .none k args) ↔ ¬ s.DispatchFaults k args := by
  have hperform : ∀ uinfo user args, Safe (s.perform
      (if (s.setup.command k).actions.bits &&& Actions.get.bits ≠ 0 then .get
        else if (s.setup.command k).actions.bits &&& Actions.execute.bits ≠ 0 then .execute
        else .none) k uinfo user args) ↔ ¬ s.Faults uinfo user args k := by
    intro uinfo user args
    rcases action_cases s.setup k with hget | hexecute
    · rw [hget]
      refine iff_of_true (safe_perform (by decide)) fun h => ?_
      rw [execute_of_faults h] at hget
      cases hget
    · rw [hexecute]
      exact safe_handleExecuteRequest_iff
  unfold dispatch DispatchFaults
  simp only [if_true]
  split
  · cases args with
    | nil =>
      refine iff_of_true (Safe.ok _) ?_
      rintro ⟨name, rest, uinfo, hargs, -⟩
      cases hargs
    | cons name args =>
      change Safe (s.lookUp name >>= fun uinfo => s.perform _ k uinfo (s.getUser name) args) ↔ _
      cases hlookUp : s.lookUp name with
      | error stop =>
        refine iff_of_true ?_ ?_
        · rcases safe_lookUp (s := s) name with h | ⟨a, h⟩
          · rw [hlookUp] at h
            exact Or.inl (congrArg Except.error (Except.error.inj h))
          · rw [hlookUp] at h
            cases h
        · rintro ⟨name', rest, uinfo, hargs, h, -⟩
          cases hargs
          rw [hlookUp] at h
          cases h
      | ok uinfo =>
        refine (hperform uinfo (s.getUser name) args).trans (not_congr ⟨fun h => ?_, ?_⟩)
        · exact ⟨name, args, uinfo, rfl, hlookUp, h⟩
        · rintro ⟨name', rest, uinfo', hargs, h, hfaults⟩
          cases hargs
          rw [hlookUp] at h
          obtain rfl := Except.ok.inj h
          exact hfaults
  · exact hperform noUserInfo none args

/-- The words of the queries that leave defined behaviour. -/
def Breaks (s : Service) (words : List String) : Prop :=
  words = ["online_users"] ∧ s.users ≠ [] ∨
  (∃ name uinfo, words = ["unregister", name] ∧ s.setup.userRegistration = true ∧
    s.lookUp name = .ok uinfo ∧ ¬ (s.getUser name = none ∧ uinfo.id = -1) ∧
    s.Unregistrable uinfo.jid) ∨
  ∃ name nickname room server channel uinfo,
    words = ["join_room", name, nickname, room, server, channel] ∧
    s.setup.slack.isSome = true ∧ s.lookUp name = .ok uinfo ∧ uinfo.id ≠ -1 ∧
    s.getUser name ≠ none

theorem breaks_iff (name : String) (args : List String) :
    s.Breaks (name :: args) ↔ ∃ k, s.setup.find name = some k ∧ s.DispatchFaults k args := by
  constructor
  · rintro (⟨hwords, hne⟩ | ⟨user, uinfo, hwords, hregistration, hlookUp, hknown, hun⟩ |
      ⟨user, nickname, room, server, channel, uinfo, hwords, hslack, hlookUp, hid, honline⟩)
    · cases hwords
      exact ⟨.onlineUsers, find_onlineUsers _, rfl, rfl, hne⟩
    · cases hwords
      exact ⟨.unregister, find_unregister hregistration, user, [], uinfo, rfl, hlookUp, rfl, hknown,
        hun⟩
    · cases hwords
      refine ⟨.joinRoom, find_joinRoom hslack, user, _, uinfo, rfl, hlookUp, rfl, hid, ?_, honline⟩
      intro hstorage
      rw [lookUp, hstorage] at hlookUp
      cases hlookUp
      exact hid rfl
  · rintro ⟨k, hfind, hfaults⟩
    obtain ⟨hname, hregistered⟩ := find_eq_some hfind
    cases k with
    | onlineUsers =>
      obtain ⟨hargs, -, hne⟩ := hfaults
      exact Or.inl ⟨by rw [hname, hargs]; rfl, hne⟩
    | unregister =>
      obtain ⟨user, rest, uinfo, hargs, hlookUp, hrest, hknown, hun⟩ := hfaults
      exact Or.inr (Or.inl ⟨user, uinfo, by rw [hname, hargs, hrest]; rfl, hregistered, hlookUp,
        hknown, hun⟩)
    | joinRoom =>
      obtain ⟨user, rest, uinfo, hargs, hlookUp, hrest, hid, -, honline⟩ := hfaults
      match rest, hrest with
      | [nickname, room, server, channel], _ =>
        exact Or.inr (Or.inr ⟨user, nickname, room, server, channel, uinfo,
          by rw [hname, hargs]; rfl, hregistered, hlookUp, hid, honline⟩)
    | leaveRoom =>
      obtain ⟨_, _, _, -, -, h⟩ := hfaults
      exact h.elim
    | listRooms =>
      obtain ⟨_, _, _, -, -, h⟩ := hfaults
      exact h.elim
    | _ => exact hfaults.elim

theorem actionOf_cases (words : List String) :
    (∃ args, words = "set" :: args ∧ actionOf words = (.set, args)) ∨
      (∃ args, words = "get" :: args ∧ actionOf words = (.get, args)) ∨
      actionOf words = (.none, words) := by
  unfold actionOf
  split
  · exact Or.inl ⟨_, rfl, rfl⟩
  · exact Or.inr (Or.inl ⟨_, rfl, rfl⟩)
  · exact Or.inr (Or.inr rfl)

theorem not_breaks_of_head {name : String} (hget : name = "set" ∨ name = "get")
    (args : List String) : ¬ s.Breaks (name :: args) := by
  rintro (⟨h, -⟩ | ⟨_, _, h, -⟩ | ⟨_, _, _, _, _, _, h, -⟩)
  all_goals
    have hname := (List.cons.inj h).1
    rcases hget with rfl | rfl <;> exact absurd hname (by decide)

section Queries

variable {body name : String} {action : Actions} {args : List String}

theorem safe_handleQuery_nil (haction : actionOf (split ' ' body) = (action, [])) :
    Safe (s.handleQuery body) := by
  rw [handleQuery, haction]
  exact Safe.ok _

theorem handleQuery_unknown (haction : actionOf (split ' ' body) = (action, name :: args))
    (hfind : s.setup.find name = none) :
    s.handleQuery body = .ok (s, "Error: Unknown variable or command") := by
  rw [handleQuery, haction]
  simp only [hfind]

theorem handleQuery_known (haction : actionOf (split ' ' body) = (action, name :: args)) {k : Kind}
    (hfind : s.setup.find name = some k) : s.handleQuery body = s.dispatch action k args := by
  rw [handleQuery, haction]
  simp only [hfind]

/-- Variables are read and written without harm. -/
theorem safe_handleQuery_of_action (haction : actionOf (split ' ' body) = (action, args))
    (hnone : action ≠ .none) (hexecute : action ≠ .execute) : Safe (s.handleQuery body) := by
  cases args with
  | nil => exact safe_handleQuery_nil haction
  | cons name args =>
    cases hfind : s.setup.find name with
    | none =>
      rw [handleQuery_unknown haction hfind]
      exact Safe.ok _
    | some k =>
      rw [handleQuery_known haction hfind]
      exact safe_dispatch hnone hexecute

end Queries

/-- A query is safe unless its words are those of the three queries. -/
theorem safe_handleQuery_iff (s : Service) (body : String) :
    Safe (s.handleQuery body) ↔ ¬ s.Breaks (split ' ' body) := by
  rcases actionOf_cases (split ' ' body) with ⟨args, hwords, haction⟩ | ⟨args, hwords, haction⟩ |
    haction
  · rw [hwords]
    exact iff_of_true (safe_handleQuery_of_action haction (by decide) (by decide))
      (not_breaks_of_head (Or.inl rfl) args)
  · rw [hwords]
    exact iff_of_true (safe_handleQuery_of_action haction (by decide) (by decide))
      (not_breaks_of_head (Or.inr rfl) args)
  · cases hwords : split ' ' body with
    | nil =>
      refine iff_of_true (safe_handleQuery_nil (haction.trans (by rw [hwords]))) ?_
      rintro (⟨h, -⟩ | ⟨_, _, h, -⟩ | ⟨_, _, _, _, _, _, h, -⟩) <;> cases h
    | cons name args =>
      have hcons : actionOf (split ' ' body) = (.none, name :: args) := haction.trans (by rw [hwords])
      rw [breaks_iff]
      cases hfind : s.setup.find name with
      | none =>
        rw [handleQuery_unknown hcons hfind]
        refine iff_of_true (Safe.ok _) ?_
        rintro ⟨k, h, -⟩
        cases h
      | some k =>
        rw [handleQuery_known hcons hfind]
        refine safe_dispatch_none_iff.trans (not_congr ⟨fun h => ⟨k, rfl, h⟩, ?_⟩)
        rintro ⟨k', h, hfaults⟩
        obtain rfl := Option.some.inj h
        exact hfaults

/-- Somebody is online and the online users are asked for. -/
theorem not_forall_safe_handleQuery :
    ¬ ∀ (s : Service) (body : String), Safe (s.handleQuery body) := by
  intro h
  let setup : Setup :=
    { registrationFields := "Jabber ID\nUsername\nPassword", threeLines := by decide
      userRegistration := true, slack := none }
  let s : Service := { setup, users := [("alice@example.org", noUserInfo)], storage := none }
  have hquery : s.handleQuery "online_users" = s.dispatch .none .onlineUsers [] := rfl
  have hsafe := h s "online_users"
  rw [hquery, safe_dispatch_none_iff] at hsafe
  exact hsafe ⟨rfl, rfl, nofun⟩

end Service

end Spectrum.Admin
