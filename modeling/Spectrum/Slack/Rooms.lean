import Spectrum.Lib.Text
import Spectrum.Slack.Session
import Spectrum.Storage.Settings

/-!
# The list of rooms of a Slack user

`join_room` appends a line to the setting `rooms`, `leave_room` keeps the lines of other channels and
`handleRTMStarted` joins what is there. A join strips the `#` of a channel, a leave compares the
channel as it is spelled.

A command whose answer is an error, or that leaves defined behaviour, ends a history: a `join_room` of
a user who is online reads six arguments where there are four.
-/

namespace Spectrum.Slack

open Lib Storage

/-- `AdminInterfaceCommand::handleExecuteRequest` for a command in user context with `count`
arguments. -/
def handleExecuteRequest (count : Nat) (id : Int) (online : Bool) (args : List String) :
    Option String :=
  if ¬ online ∧ id = -1 then some "Error: This command can be executed only in user context."
  else if args.length < count then some "Error: Argument is missing."
  else if count < args.length then some "Error: Too many arguments."
  else if id = -1 then some "Error: Unknown user"
  else none

/-- A command that was carried out, with its answer. -/
structure Answer where
  db : Db
  text : String

variable (b : Storage.Backend) (id : Int)

/-- `JoinRoomCommand::handleExecuteRequest`. -/
def joinRoom (online : Bool) (args : List String) (db : Db) : Option Answer :=
  match handleExecuteRequest 4 id online args with
  | some error => some ⟨db, error⟩
  | none =>
    match args with
    | [nickname, room, server, channel] =>
      let (db, _, rooms) := b.getUserSetting id "rooms" (typeString, "") db
      let rooms := rooms ++ ("connected room " ++ nickname ++ " " ++ room ++ " " ++ server ++ " " ++
        channel ++ "\n")
      let db := b.updateUserSetting id "rooms" rooms db
      -- `handleJoinMessage` needs six arguments
      if online then none else some ⟨db, "Joined the room"⟩
    | _ => none

/-- The line of a command stays. -/
def staysAfter (channel command : String) : Bool :=
  decide (5 < command.utf8ByteSize) &&
    match split ' ' command with
    | [_, _, _, _, _, other] => channel != other
    | _ => false

/-- `LeaveRoomCommand::handleExecuteRequest`. What the session of the user does is `leaveRoom`. -/
def leaveRoom (online : Bool) (args : List String) (db : Db) : Option Answer :=
  match handleExecuteRequest 1 id online args with
  | some error => some ⟨db, error⟩
  | none =>
    match args with
    | [channel] =>
      let (db, _, rooms) := b.getUserSetting id "rooms" (typeString, "") db
      let rooms := (split '\n' rooms).foldl (fun rooms command =>
        if staysAfter channel command then rooms ++ command ++ "\n" else rooms) ""
      some ⟨b.updateUserSetting id "rooms" rooms db, "Left the room"⟩
    | _ => none

/-- A request of a channel, with the arguments that the answer is handled with. -/
structure ChannelRequest where
  channel : String
  args : List String
  deriving DecidableEq, Repr

/-- `handleJoinMessage`. `lower` is `boost::algorithm::to_lower`. -/
def handleJoinMessage (lower : String → String) : List String → Option ChannelRequest
  | a :: b :: name :: room :: server :: channel :: rest =>
    some ⟨channelName channel,
      a :: b :: name :: lower room :: lower server :: channelName channel :: rest⟩
  | _ => none

/-- The storage after `handleRTMStarted`, the main channel, the arguments of the calls of
`handleJoinMessage` and what these request. -/
structure Started where
  db : Db
  slackChannel : String
  calls : List (List String)
  joins : List ChannelRequest

def handleRTMStarted (lower : String → String) (slackChannel : String) (db : Db) : Option Started :=
  let (db, type, rooms) := b.getUserSetting id "rooms" (typeString, "") db
  let (db, _, slackChannel) := b.getUserSetting id "slack_channel" (type, slackChannel) db
  if rooms = "" then some ⟨db, slackChannel, [], []⟩
  else do
    let calls := ((split '\n' rooms).filter fun command => decide (5 < command.utf8ByteSize)).map
      (split ' ')
    let joins ← calls.mapM (handleJoinMessage lower)
    return ⟨db, slackChannel, calls, joins⟩

/-- The joins that `handleRTMStarted` asks for, with what is requested of Slack. -/
def Started.requested (s : Started) : List (List String) × List ChannelRequest := (s.calls, s.joins)

/-! ## Histories of commands -/

/-- A text without spaces and newlines. -/
structure Word where
  text : String
  noSpace : ' ' ∉ text.toList
  noNewline : '\n' ∉ text.toList

/-- The arguments of a `join_room`. -/
structure Join where
  nickname : Word
  room : Word
  server : Word
  channel : Word

/-- The commands of the user, with whether he is online. -/
inductive Command
  | join (j : Join) (online : Bool)
  | leave (channel : Word) (online : Bool)

/-- A command that succeeds. -/
def Command.exec (db : Db) : Command → Option Db
  | .join j online =>
    (joinRoom b id online [j.nickname.text, j.room.text, j.server.text, j.channel.text] db).bind
      fun answer => if answer.text = "Joined the room" then some answer.db else none
  | .leave channel online =>
    (leaveRoom b id online [channel.text] db).bind
      fun answer => if answer.text = "Left the room" then some answer.db else none

/-- Commands that all succeed. -/
def execAll (db : Db) (commands : List Command) : Option Db :=
  commands.foldlM (Command.exec b id) db

/-- The join of a `join_room`, with the values that were given. -/
def Join.args (j : Join) : List String :=
  ["connected", "room", j.nickname.text, j.room.text, j.server.text, j.channel.text]

/-- What `handleJoinMessage` requests for a join. -/
def Join.request (lower : String → String) (j : Join) : ChannelRequest :=
  ⟨channelName j.channel.text,
    ["connected", "room", j.nickname.text, lower j.room.text, lower j.server.text,
      channelName j.channel.text]⟩

/-- The channel is left by one of the commands, `same` being how channels are compared. -/
def LeftBy (same : String → String → Bool) (channel : String) (commands : List Command) : Bool :=
  commands.any fun
    | .join _ _ => false
    | .leave left _ => same left.text channel

/-- The joins whose channel is not left by a later command. -/
def notLeft (same : String → String → Bool) : List Command → List Join
  | [] => []
  | .join j _ :: commands =>
    if LeftBy same j.channel.text commands then notLeft same commands
    else j :: notLeft same commands
  | .leave _ _ :: commands => notLeft same commands

/-- Channel names as they are spelled. -/
def sameSpelling (c d : String) : Bool := c == d

/-- Channel names modulo one `#` at their start. -/
def sameChannel (c d : String) : Bool := channelName c == channelName d

/-- Where a channel is left later, it is left as it was spelled in the join. -/
def LeavesAlike : List Command → Prop
  | [] => True
  | .join j _ :: commands =>
    (LeftBy sameChannel j.channel.text commands → LeftBy sameSpelling j.channel.text commands) ∧
      LeavesAlike commands
  | .leave _ _ :: commands => LeavesAlike commands

/-! ## The setting -/

/-- The value of the setting `rooms`. -/
def roomsOf (db : Db) : String := ((db.userSetting id "rooms").map UserSettingRow.value).getD ""

namespace Join

variable (j : Join)

/-- The line of a join. -/
def line : String :=
  "connected room " ++ j.nickname.text ++ " " ++ j.room.text ++ " " ++ j.server.text ++ " " ++
    j.channel.text

theorem line_eq : j.line = "connected room " ++ j.nickname.text ++ " " ++ j.room.text ++ " " ++
    j.server.text ++ " " ++ j.channel.text := rfl

theorem split_line : split ' ' j.line = j.args := by
  have hline : j.line = "connected" ++ String.singleton ' ' ++ ("room" ++ String.singleton ' ' ++
      (j.nickname.text ++ String.singleton ' ' ++ (j.room.text ++ String.singleton ' ' ++
        (j.server.text ++ String.singleton ' ' ++ j.channel.text)))) := by
    have hstart : "connected room " =
        "connected" ++ String.singleton ' ' ++ ("room" ++ String.singleton ' ') := rfl
    have hblank : " " = String.singleton ' ' := rfl
    rw [line_eq, hstart, hblank]
    simp only [String.append_assoc]
  have hconnected : ' ' ∉ "connected".toList := by simp
  have hroom : ' ' ∉ "room".toList := by simp
  rw [hline, split_append hconnected, split_append hroom, split_append j.nickname.noSpace,
    split_append j.room.noSpace, split_append j.server.noSpace, split_of_not_mem j.channel.noSpace]
  rfl

theorem newline_not_mem_line : '\n' ∉ j.line.toList := by
  have hstart : '\n' ∉ "connected room ".toList := by simp
  have hblank : '\n' ∉ " ".toList := by simp
  rw [line_eq]
  simp only [String.toList_append, List.mem_append, not_or]
  exact ⟨⟨⟨⟨⟨⟨⟨hstart, j.nickname.noNewline⟩, hblank⟩, j.room.noNewline⟩, hblank⟩,
    j.server.noNewline⟩, hblank⟩, j.channel.noNewline⟩

theorem lt_size_line : 5 < j.line.utf8ByteSize := by
  have hstart : "connected room ".utf8ByteSize = 15 := rfl
  rw [line_eq]
  simp only [String.utf8ByteSize_append]
  rw [hstart]
  omega

theorem staysAfter_line (channel : String) :
    staysAfter channel j.line = (channel != j.channel.text) := by
  rw [staysAfter, decide_eq_true j.lt_size_line, Bool.true_and, j.split_line]
  rfl

theorem handleJoinMessage_args (lower : String → String) :
    handleJoinMessage lower j.args = some (j.request lower) := rfl

end Join

/-- The text of the setting. -/
def textOf (joins : List Join) : String := unlines '\n' (joins.map Join.line)

/-- The list after a command. -/
def listAfter (joins : List Join) : Command → List Join
  | .join j _ => joins ++ [j]
  | .leave channel _ => joins.filter fun j => channel.text != j.channel.text

/-- After each command the list fits its column. -/
def ListsFit (k : Columns) (joins : List Join) : List Command → Prop
  | [] => True
  | command :: commands => (k.varchar 255).Takes (textOf (listAfter joins command)) ∧
      ListsFit k (listAfter joins command) commands

theorem split_textOf (joins : List Join) :
    split '\n' (textOf joins) = joins.map Join.line ++ [""] := by
  refine split_unlines ?_
  rw [List.forall_mem_map]
  exact fun j _ => j.newline_not_mem_line

theorem textOf_append (joins : List Join) (j : Join) :
    textOf (joins ++ [j]) = textOf joins ++ (j.line ++ "\n") := by
  rw [textOf, List.map_append, List.map_singleton, unlines_append, String.append_assoc]
  rfl

theorem filter_cons_other (channel : String) (j : Join) (joins : List Join) :
    (j :: joins).filter (fun j => channel != j.channel.text) =
      if channel != j.channel.text then j :: joins.filter (fun j => channel != j.channel.text)
      else joins.filter (fun j => channel != j.channel.text) :=
  List.filter_cons

/-- The loop of a leave keeps the lines of the other channels. -/
theorem foldl_textOf (channel : String) (joins kept : List Join) :
    (joins.map Join.line).foldl (fun rooms command =>
        if staysAfter channel command then rooms ++ command ++ "\n" else rooms) (textOf kept) =
      textOf (kept ++ joins.filter fun j => channel != j.channel.text) := by
  induction joins generalizing kept with
  | nil => simp
  | cons j joins ih =>
    rw [List.map_cons, List.foldl_cons, j.staysAfter_line, filter_cons_other]
    split
    · rw [String.append_assoc, ← textOf_append, ih, List.append_assoc, List.singleton_append]
    · rw [ih]

/-- What is refused is not answered like a success. -/
theorem error_ne_answer {count : Nat} {id : Int} {online : Bool} {args : List String}
    {error : String} (h : handleExecuteRequest count id online args = some error) :
    error ≠ "Joined the room" ∧ error ≠ "Left the room" := by
  unfold handleExecuteRequest at h
  split at h
  · cases h
    decide
  · split at h
    · cases h
      decide
    · split at h
      · cases h
        decide
      · split at h
        · cases h
          decide
        · cases h

section Backends

variable (c : Storage.Config) (open_ : MySQL.Undefined) (kind : Kind) {id} {db db' : Db}

theorem getUserSetting_rooms (type : Int) :
    ((createBackend c open_ kind).getUserSetting id "rooms" (type, "") db).2.2 = roomsOf id db := by
  rw [createBackend_getUserSetting, roomsOf]
  cases db.userSetting id "rooms" <;> rfl

/-- The setting can be inserted where there is none. -/
theorem userSetting_rooms (id : Int) : (kind.columns open_).userSetting
    { userId := id, var := "rooms", type := typeString, value := "" } =
      some { userId := id, var := "rooms", type := typeString, value := "" } := by
  have hname : ((kind.columns open_).varchar 50).Takes "rooms" := by
    cases kind with
    | sqlite3 => exact (show '\x00' ∉ "rooms".toList by decide)
    | mysql => exact (show MySQL.Fits 50 "rooms" by decide +kernel)
    | pqxx => exact (show '\x00' ∉ "rooms".toList ∧ "rooms".length ≤ 50 by decide +kernel)
  have htype : (kind.columns open_).type.Takes typeString := by
    cases kind with
    | sqlite3 => trivial
    | mysql => exact (show UnsignedSmallint typeString by decide)
    | pqxx => exact (show Smallint typeString by decide)
  have hvalue : ((kind.columns open_).varchar 255).Takes "" := by
    cases kind with
    | sqlite3 => exact (show '\x00' ∉ "".toList by decide)
    | mysql => exact (show MySQL.Fits 255 "" by decide +kernel)
    | pqxx => exact (show '\x00' ∉ "".toList ∧ "".length ≤ 255 by decide +kernel)
  simp [Columns.userSetting, Column.store_of_takes, hname, htype, hvalue]

/-- What is written after the setting was read is read back if its column takes it. -/
theorem roomsOf_updateUserSetting {rooms : String}
    (h : ((kind.columns open_).varchar 255).Takes rooms) :
    roomsOf id ((createBackend c open_ kind).updateUserSetting id "rooms" rooms
      ((createBackend c open_ kind).getUserSetting id "rooms" (typeString, "") db).1) = rooms := by
  rw [createBackend_updateUserSetting, createBackend_getUserSetting, roomsOf,
    Db.userSetting_writeUserSetting, Column.store_of_takes h]
  cases hrow : db.userSetting id "rooms" with
  | none =>
    have hself := @Db.userSetting_insertUserSetting_self _ db _ _ (userSetting_rooms open_ kind id)
    simp only at hself ⊢
    rw [hself, hrow]
    simp
  | some r =>
    have hown := (Db.userSetting_eq_some_iff.mp hrow).2
    simp [hrow, hown]

/-- A successful join appends its line. -/
theorem roomsOf_join {j : Join} {online : Bool}
    (hfits : ((kind.columns open_).varchar 255).Takes (roomsOf id db ++ (j.line ++ "\n")))
    (h : Command.exec (createBackend c open_ kind) id db (.join j online) = some db') :
    roomsOf id db' = roomsOf id db ++ (j.line ++ "\n") := by
  obtain ⟨answer, hanswer, h⟩ := Option.bind_eq_some_iff.mp h
  unfold joinRoom at hanswer
  split at hanswer
  · rename_i error herror
    cases hanswer
    rw [if_neg (error_ne_answer herror).1] at h
    cases h
  · simp only at hanswer
    split at hanswer
    · cases hanswer
    · cases hanswer
      cases h
      rw [getUserSetting_rooms]
      exact roomsOf_updateUserSetting c open_ kind hfits

/-- A successful leave keeps the lines of the other channels. -/
theorem roomsOf_leave {channel : Word} {online : Bool} {joins : List Join}
    (hrooms : roomsOf id db = textOf joins)
    (hfits : ((kind.columns open_).varchar 255).Takes
      (textOf (joins.filter fun j => channel.text != j.channel.text)))
    (h : Command.exec (createBackend c open_ kind) id db (.leave channel online) = some db') :
    roomsOf id db' = textOf (joins.filter fun j => channel.text != j.channel.text) := by
  obtain ⟨answer, hanswer, h⟩ := Option.bind_eq_some_iff.mp h
  unfold leaveRoom at hanswer
  split at hanswer
  · rename_i error herror
    cases hanswer
    rw [if_neg (error_ne_answer herror).2] at h
    cases h
  · have hempty : staysAfter channel.text "" = false := by
      have hsize : decide (5 < "".utf8ByteSize) = false := rfl
      rw [staysAfter, hsize, Bool.false_and]
    have hkept : (split '\n' (roomsOf id db)).foldl (fun rooms command =>
        if staysAfter channel.text command then rooms ++ command ++ "\n" else rooms) "" =
        textOf (joins.filter fun j => channel.text != j.channel.text) := by
      rw [hrooms, split_textOf, List.foldl_append]
      refine Eq.trans ?_ (foldl_textOf channel.text joins [])
      rw [List.foldl_cons, List.foldl_nil, hempty]
      rfl
    cases hanswer
    cases h
    rw [getUserSetting_rooms, hkept]
    exact roomsOf_updateUserSetting c open_ kind hfits

/-! ## The joins that are requested -/

theorem textOf_eq_empty_iff {joins : List Join} : textOf joins = "" ↔ joins = [] := by
  constructor
  · intro h
    have hsplit := split_textOf joins
    rw [h] at hsplit
    have hlength := congrArg List.length hsplit
    rw [List.length_append, List.length_map] at hlength
    have hone : (split '\n' "").length = 1 := rfl
    rw [hone] at hlength
    exact List.eq_nil_of_length_eq_zero (by simpa using hlength)
  · rintro rfl
    rfl

/-- The lines of the setting are the joins that were given. -/
theorem map_split_textOf (joins : List Join) :
    ((split '\n' (textOf joins)).filter fun command => decide (5 < command.utf8ByteSize)).map
      (split ' ') = joins.map Join.args := by
  have hempty : [""].filter (fun command => decide (5 < command.utf8ByteSize)) = [] := rfl
  have hlines : (joins.map Join.line).filter (fun command => decide (5 < command.utf8ByteSize)) =
      joins.map Join.line := by
    rw [List.filter_eq_self, List.forall_mem_map]
    exact fun j _ => decide_eq_true j.lt_size_line
  rw [split_textOf, List.filter_append, hempty, List.append_nil, hlines, List.map_map]
  refine List.map_congr_left fun j _ => ?_
  rw [Function.comp_apply, j.split_line]

theorem mapM_args (lower : String → String) (joins : List Join) :
    (joins.map Join.args).mapM (handleJoinMessage lower) = some (joins.map (Join.request lower)) := by
  induction joins with
  | nil => rfl
  | cons j joins ih =>
    rw [List.map_cons, List.mapM_cons, j.handleJoinMessage_args, ih]
    rfl

/-- `handleRTMStarted` joins what is in the setting. -/
theorem handleRTMStarted_requested {joins : List Join} (hrooms : roomsOf id db = textOf joins)
    (lower : String → String) (slackChannel : String) :
    (handleRTMStarted (createBackend c open_ kind) id lower slackChannel db).map Started.requested =
      some (joins.map Join.args, joins.map (Join.request lower)) := by
  unfold handleRTMStarted
  simp only [getUserSetting_rooms, hrooms, map_split_textOf, mapM_args]
  split
  · rename_i hempty
    rw [textOf_eq_empty_iff.mp hempty]
    rfl
  · rfl

end Backends

/-! ## Histories -/

section Histories

variable {same same' : String → String → Bool} {commands : List Command}

theorem leftBy_leave (channel : String) (left : Word) (online : Bool) :
    LeftBy same channel (.leave left online :: commands) =
      (same left.text channel || LeftBy same channel commands) := rfl

/-- Who leaves a channel in one way of comparing leaves it in a coarser one. -/
theorem LeftBy.mono (h : ∀ c d, same c d → same' c d) {channel : String}
    (hleft : LeftBy same channel commands) : LeftBy same' channel commands := by
  induction commands with
  | nil => exact hleft
  | cons command commands ih =>
    cases command with
    | join j online => exact ih hleft
    | leave left online =>
      rw [leftBy_leave, Bool.or_eq_true] at hleft ⊢
      exact hleft.imp (h _ _) ih

theorem notLeft_sublist (h : ∀ c d, same c d → same' c d) :
    (notLeft same' commands).Sublist (notLeft same commands) := by
  induction commands with
  | nil => exact List.Sublist.slnil
  | cons command commands ih =>
    cases command with
    | leave left online => exact ih
    | join j online =>
      rw [notLeft, notLeft]
      split
      · split
        · exact ih
        · exact ih.cons j
      · rename_i hstays
        rw [if_neg fun hleft => hstays (LeftBy.mono h hleft)]
        exact ih.cons_cons j

theorem sameChannel_of_sameSpelling (c d : String) (h : sameSpelling c d) : sameChannel c d := by
  rw [eq_of_beq h]
  exact beq_self_eq_true _

/-- The same number of joins is left over exactly when all channels are left as they were spelled. -/
theorem length_notLeft_eq_iff :
    (notLeft sameSpelling commands).length = (notLeft sameChannel commands).length ↔
      LeavesAlike commands := by
  induction commands with
  | nil => exact iff_of_true rfl trivial
  | cons command commands ih =>
    cases command with
    | leave left online => exact ih
    | join j online =>
      have hle := (@notLeft_sublist _ _ commands sameChannel_of_sameSpelling).length_le
      have halike : LeavesAlike (.join j online :: commands) ↔
          (LeftBy sameChannel j.channel.text commands → LeftBy sameSpelling j.channel.text commands) ∧
            (notLeft sameSpelling commands).length = (notLeft sameChannel commands).length :=
        and_congr_right fun _ => ih.symm
      rw [halike, notLeft, notLeft]
      by_cases hsame : LeftBy sameChannel j.channel.text commands
      · rw [if_pos hsame]
        by_cases hspelled : LeftBy sameSpelling j.channel.text commands
        · rw [if_pos hspelled]
          exact (and_iff_right fun _ => hspelled).symm
        · rw [if_neg hspelled, List.length_cons]
          exact iff_of_false (by omega) fun hand => hspelled (hand.1 hsame)
      · have hspelled : ¬ LeftBy sameSpelling j.channel.text commands :=
          fun hleft => hsame (LeftBy.mono sameChannel_of_sameSpelling hleft)
        rw [if_neg hsame, if_neg hspelled, List.length_cons, List.length_cons, Nat.succ_inj]
        exact (and_iff_right fun hleft => absurd hleft hsame).symm

theorem notLeft_eq_of_leavesAlike (h : LeavesAlike commands) :
    notLeft sameSpelling commands = notLeft sameChannel commands :=
  ((notLeft_sublist sameChannel_of_sameSpelling).eq_of_length (length_notLeft_eq_iff.mpr h).symm).symm

variable (c : Storage.Config) (open_ : MySQL.Undefined) (kind : Kind) {id : Int} {db db' : Db}

/-- As long as it fits, the setting holds the joins that were not left as they were spelled. -/
theorem roomsOf_execAll {joins : List Join} (hrooms : roomsOf id db = textOf joins)
    (hfits : ListsFit (kind.columns open_) joins commands)
    (h : execAll (createBackend c open_ kind) id db commands = some db') :
    roomsOf id db' = textOf ((joins.filter fun j => !LeftBy sameSpelling j.channel.text commands) ++
      notLeft sameSpelling commands) := by
  induction commands generalizing db joins with
  | nil =>
    cases h
    rw [hrooms, notLeft, List.append_nil]
    exact congrArg textOf (List.filter_eq_self.mpr fun _ _ => rfl).symm
  | cons command commands ih =>
    obtain ⟨db₁, hfirst, hrest⟩ := Option.bind_eq_some_iff.mp h
    obtain ⟨hfit, hfits⟩ := hfits
    cases command with
    | join j online =>
      have htext : roomsOf id db ++ (j.line ++ "\n") = textOf (joins ++ [j]) := by
        rw [hrooms, textOf_append]
      have hjoin : roomsOf id db₁ = textOf (joins ++ [j]) := by
        rw [roomsOf_join c open_ kind (htext ▸ hfit) hfirst, htext]
      rw [ih hjoin hfits hrest, List.filter_append, List.append_assoc, notLeft]
      refine congrArg textOf (congrArg _ ?_)
      rw [List.filter_singleton]
      cases LeftBy sameSpelling j.channel.text commands <;> rfl
    | leave channel online =>
      rw [ih (roomsOf_leave c open_ kind hrooms hfit hfirst) hfits hrest, List.filter_filter,
        notLeft]
      refine congrArg (fun l => textOf (l ++ _)) (List.filter_congr fun j _ => ?_)
      rw [leftBy_leave, Bool.not_or, Bool.and_comm]
      rfl

end Histories

/-- A later start asks for the joins whose channel was not left since, in their order and as they
were given. -/
def RequestsJoins (b : Storage.Backend) (id : Int) (lower : String → String) (slackChannel : String)
    (commands : List Command) (db : Db) : Prop :=
  (handleRTMStarted b id lower slackChannel db).map Started.requested =
    some ((notLeft sameChannel commands).map Join.args,
      (notLeft sameChannel commands).map (Join.request lower))

/-- As long as the list fits its column, the joins are requested exactly when no channel is left under
another spelling only. -/
theorem requestsJoins_iff_leavesAlike (kind : Kind) (c : Storage.Config) (open_ : MySQL.Undefined)
    (id : Int) (lower : String → String) (slackChannel : String) (db db' : Db)
    (commands : List Command) (hempty : roomsOf id db = "")
    (h : execAll (createBackend c open_ kind) id db commands = some db')
    (hfits : ListsFit (kind.columns open_) [] commands) :
    RequestsJoins (createBackend c open_ kind) id lower slackChannel commands db' ↔
      LeavesAlike commands := by
  have hlist : roomsOf id db' = textOf (notLeft sameSpelling commands) :=
    roomsOf_execAll c open_ kind (show roomsOf id db = textOf [] from hempty) hfits h
  rw [RequestsJoins, handleRTMStarted_requested c open_ kind hlist, Option.some_inj, Prod.mk.injEq]
  constructor
  · intro heq
    have hlength := congrArg List.length heq.1
    rw [List.length_map, List.length_map] at hlength
    exact length_notLeft_eq_iff.mp hlength
  · intro halike
    rw [notLeft_eq_of_leavesAlike halike]
    exact ⟨rfl, rfl⟩

namespace Sample

def word (text : String) (h : ' ' ∉ text.toList ∧ '\n' ∉ text.toList) : Word := ⟨text, h.1, h.2⟩

/-- For names in lower case. -/
def lower (s : String) : String := s

/-- The room `#a` of a server, on a channel. -/
def joinOf (channel : Word) : Join :=
  ⟨word "bot" (by decide), word "#a" (by decide), word "irc.net" (by decide), channel⟩

def hash : Word := word "#spectrum" (by decide)

def plain : Word := word "spectrum" (by decide)

/-- A channel that is left as it was joined. -/
def alike : List Command := [.join (joinOf hash) false, .join (joinOf plain) false, .leave hash false,
  .leave plain false, .join (joinOf hash) false]

/-- A channel that is left without its `#`. -/
def apart : List Command := [.join (joinOf hash) false, .leave plain false]

end Sample

theorem requestsJoins_iff_leavesAlike_alike : ∃ db,
    execAll sqlite3 1 .empty Sample.alike = some db ∧
      RequestsJoins sqlite3 1 Sample.lower "" Sample.alike db := by
  have hexec : (execAll sqlite3 1 .empty Sample.alike).isSome = true := by decide +kernel
  obtain ⟨db, hdb⟩ := Option.isSome_iff_exists.mp hexec
  have hfits : ListsFit SQLite3.columns [] Sample.alike := by
    simp only [ListsFit, Sample.alike]
    decide +kernel
  refine ⟨db, hdb, (requestsJoins_iff_leavesAlike .sqlite3 {} {} 1 Sample.lower "" .empty db Sample.alike
    (by decide +kernel) hdb hfits).mpr ?_⟩
  simp only [LeavesAlike, Sample.alike]
  decide +kernel

/-- The room is joined again though its channel was left. -/
theorem not_requestsJoins_of_apart : ∃ db, execAll sqlite3 1 .empty Sample.apart = some db ∧
    notLeft sameChannel Sample.apart = [] ∧
      (handleRTMStarted sqlite3 1 Sample.lower "" db).map Started.requested =
        some ([["connected", "room", "bot", "#a", "irc.net", "#spectrum"]],
          [⟨"spectrum", ["connected", "room", "bot", "#a", "irc.net", "spectrum"]⟩]) := by
  have hexec : (execAll sqlite3 1 .empty Sample.apart).isSome = true := by decide +kernel
  obtain ⟨db, hdb⟩ := Option.isSome_iff_exists.mp hexec
  have hjoins : ((execAll sqlite3 1 .empty Sample.apart).bind fun db =>
      (handleRTMStarted sqlite3 1 Sample.lower "" db).map Started.requested) =
        some ([["connected", "room", "bot", "#a", "irc.net", "#spectrum"]],
          [⟨"spectrum", ["connected", "room", "bot", "#a", "irc.net", "spectrum"]⟩]) := by
    decide +kernel
  rw [hdb, Option.bind_some] at hjoins
  have hnone : (notLeft sameChannel Sample.apart).length = 0 := by decide +kernel
  exact ⟨db, hdb, List.eq_nil_of_length_eq_zero hnone, hjoins⟩

end Spectrum.Slack
