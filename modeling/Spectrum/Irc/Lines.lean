import Spectrum.Irc.Isolation
import Spectrum.Lib.Scan

/-!
# Messages and their lines

IRC has no newlines in messages, so `handleMessageSendRequest` cuts a message at them. A message that
starts like a command is not cut, and the command is taken off without a look at the length.

* `sendRequest_eq`: the loop of the source ends and yields the lines of the message.
* `deliversLines_iff`: when a message is sent as the lines that it has.
-/

namespace Spectrum.Irc

open Lib

/-! ## The request -/

/-- The texts of the loop in `handleMessageSendRequest`, from the position 0 on. -/
def messageLines (message : String) : Option (List String) :=
  (Scan.scan '\n' message.toList (message.toList.length + 1) (some 0)).map
    (List.map String.ofList)

/-- `IRCNetworkPlugin::handleMessageSendRequest` with its loop. -/
def State.sendRequest (s : State) (env : Env) (user legacyName message : String) : Option State :=
  let name := env.getSessionName user legacyName
  match s.sessions.get name with
  | none => some s
  | some session =>
    let target := getTargetName legacyName
    let session :=
      if '/' ∈ legacyName.toList then session.addPM target (before '@' legacyName) else session
    if State.startsWith message "/me" then do
      let text ← substr message 4
      let session := session.sendCommand (.ctcpAction target text)
      return (s.setSession name session).echo user legacyName message target session
    else if State.startsWith message "/whois" || State.startsWith message ".whois" then do
      let «to» ← substr message 7
      return s.setSession name (session.sendWhoisCommand target «to»)
    else do
      let texts ← messageLines message
      let session := texts.foldl (fun session text =>
        session.sendCommand (.message target text)) session
      return (s.setSession name session).echo user legacyName message target session

theorem lines_eq (message : String) : State.lines message =
    ((Scan.skipSep '\n' message.toList).splitOn '\n').map String.ofList := by
  unfold State.lines
  cases message.toList with
  | nil => rfl
  | cons c text =>
    rw [Scan.skipSep]
    split
    · rename_i heq
      cases heq
      rw [if_pos rfl]
    · rename_i hne
      rw [if_neg fun heq => hne text (by rw [heq])]

theorem messageLines_eq (message : String) : messageLines message = some (State.lines message) := by
  rw [messageLines, Scan.scan_eq (Nat.zero_le _) (Nat.lt_succ_of_le (Nat.sub_le _ _)), lines_eq,
    List.drop_zero, Option.map_some]

/-- The loop does what the machine of the plugin takes it for. -/
theorem sendRequest_eq (env : Env) (s : State) (user legacyName message : String) :
    s.sendRequest env user legacyName message =
      s.handleMessageSendRequest env user legacyName message := by
  unfold State.sendRequest State.handleMessageSendRequest
  rw [messageLines_eq]
  rfl

/-! ## Commands on one line -/

/-- The texts that go into the line of a command. -/
def IrcCommand.arguments : IrcCommand → List String
  | .join channel key => [channel, key]
  | .part channel => [channel]
  | .message target text | .ctcpAction target text => [target, text]
  | .topic channel subject => [channel, subject]
  | .whois user => [user]
  | .away reason => [reason]

def IrcCommand.OneLine (c : IrcCommand) : Prop := ∀ text ∈ c.arguments, '\n' ∉ text.toList

/-- The message starts like a command of the plugin. -/
def IsCommand (message : String) : Prop :=
  State.startsWith message "/me" ∨ State.startsWith message "/whois" ∨
    State.startsWith message ".whois"

/-- The texts are the lines of the message; an empty first line may be left out. -/
def LinesOf (texts : List String) (message : String) : Prop :=
  texts = split '\n' message ∨ "" :: texts = split '\n' message

/-- The request ends without an exception. What it sends are commands on one line, and for a message
that is not a command these are its lines. -/
def DeliversLines (env : Env) (s : State) (user legacyName message : String) : Prop :=
  ∃ s', s.sendRequest env user legacyName message = some s' ∧
    ∀ session, s.sessions.get (env.getSessionName user legacyName) = some session →
      ∃ session' sent, s'.sessions.get (env.getSessionName user legacyName) = some session' ∧
        session'.commands = session.commands ++ sent ∧ (∀ c ∈ sent, c.OneLine) ∧
        (¬ IsCommand message → ∃ texts, LinesOf texts message ∧
          sent = texts.map (.message (getTargetName legacyName)))

/-- The name of the target has no newline. A command has at least one character behind its name, and
no newline behind that. -/
def Sendable (target message : String) : Prop :=
  if State.startsWith message "/me" then
    message.toList.length ≠ 3 ∧ '\n' ∉ message.toList.drop 4 ∧ '\n' ∉ target.toList
  else if State.startsWith message "/whois" || State.startsWith message ".whois" then
    message.toList.length ≠ 6 ∧ '\n' ∉ message.toList.drop 7
  else '\n' ∉ target.toList

section Lines

variable {message target : String}

theorem startsWith_length {start : String} (h : State.startsWith message start) :
    start.toList.length ≤ message.toList.length :=
  (List.isPrefixOf_iff_prefix.mp h).length_le

/-- Cutting off a command, which is one character shorter than what is cut. -/
theorem substr_succ {n : Nat} (h : n ≤ message.toList.length) :
    substr message (n + 1) =
      if message.toList.length = n then none
      else some (String.ofList (message.toList.drop (n + 1))) := by
  rw [substr]
  by_cases heq : message.toList.length = n
  · rw [if_pos heq, if_neg (by omega)]
  · rw [if_neg heq, if_pos (by omega)]

theorem linesOf_lines (message : String) : LinesOf (State.lines message) message := by
  rw [LinesOf, lines_eq, split]
  cases message.toList with
  | nil => exact .inl rfl
  | cons c text =>
    rw [Scan.skipSep]
    by_cases hc : c = '\n'
    · right
      rw [if_pos hc, hc, ← List.nil_append ('\n' :: text),
        List.splitOn_append_cons_self_of_not_mem List.not_mem_nil]
      rfl
    · left
      rw [if_neg hc]

theorem foldl_sendCommand (texts : List String) (session : Session) :
    (texts.foldl (fun session text => session.sendCommand (.message target text))
      session).commands = session.commands ++ texts.map (.message target) := by
  induction texts generalizing session with
  | nil => simp
  | cons text texts ih =>
    rw [List.foldl_cons, ih, Session.sendCommand, List.map_cons, List.append_assoc]
    rfl

theorem not_mem_of_mem_lines {text : String} (h : text ∈ State.lines message) :
    '\n' ∉ text.toList := by
  rw [lines_eq] at h
  obtain ⟨part, hpart, rfl⟩ := List.mem_map.mp h
  rw [String.toList_ofList]
  exact not_mem_of_mem_splitOn hpart

theorem lines_ne_nil (message : String) : State.lines message ≠ [] := by
  rw [lines_eq, ne_eq, List.map_eq_nil_iff]
  exact List.splitOn_ne_nil _ _

/-- What is sent for a message: `none` if there is an exception. -/
def sentFor (target message : String) : Option (List IrcCommand) :=
  if State.startsWith message "/me" then
    (substr message 4).map fun text => [.ctcpAction target text]
  else if State.startsWith message "/whois" || State.startsWith message ".whois" then
    (substr message 7).map fun «to» => [.whois «to»]
  else some ((State.lines message).map (.message target))

theorem sendRequest_cases {env : Env} {s : State} {user legacyName : String} {session : Session}
    (message : String)
    (hget : s.sessions.get (env.getSessionName user legacyName) = some session) :
    (sentFor (getTargetName legacyName) message = none ∧
      s.sendRequest env user legacyName message = none) ∨
    ∃ sent s' session', sentFor (getTargetName legacyName) message = some sent ∧
      s.sendRequest env user legacyName message = some s' ∧
      s'.sessions.get (env.getSessionName user legacyName) = some session' ∧
      session'.commands = session.commands ++ sent := by
  have hpm : ∀ target room, (if '/' ∈ legacyName.toList then session.addPM target room
      else session).commands = session.commands := by
    intro target room
    split <;> rfl
  have hset : ∀ session', (s.setSession (env.getSessionName user legacyName) session').sessions.get
      (env.getSessionName user legacyName) = some session' :=
    fun session' => SortedMap.get_set_self _ _ _
  have hecho : ∀ target session', ((s.setSession (env.getSessionName user legacyName)
      session').echo user legacyName message target session').sessions.get
        (env.getSessionName user legacyName) = some session' := by
    intro target session'
    rw [sessions_echo]
    exact hset session'
  unfold sentFor
  rw [sendRequest_eq, State.handleMessageSendRequest]
  simp only [hget]
  split
  · cases htext : substr message 4 with
    | none => exact .inl ⟨rfl, rfl⟩
    | some text =>
      refine .inr ⟨_, _, _, rfl, rfl, hecho _ _, ?_⟩
      rw [Session.sendCommand, hpm]
  · split
    · cases htext : substr message 7 with
      | none => exact .inl ⟨rfl, rfl⟩
      | some text =>
        refine .inr ⟨_, _, _, rfl, rfl, hset _, ?_⟩
        rw [Session.sendWhoisCommand, Session.sendCommand]
        simp only [hpm]
    · refine .inr ⟨_, _, _, rfl, rfl, hecho _ _, ?_⟩
      rw [foldl_sendCommand, hpm]

/-- The message is cut off behind the command, or cut into its lines. -/
theorem sentFor_iff (target message : String) :
    (∃ sent, sentFor target message = some sent ∧ (∀ c ∈ sent, c.OneLine) ∧
      (¬ IsCommand message → ∃ texts, LinesOf texts message ∧
        sent = texts.map (.message target))) ↔ Sendable target message := by
  unfold sentFor Sendable
  by_cases hme : State.startsWith message "/me" = true
  · have hlength : 3 ≤ message.toList.length := startsWith_length hme
    have hcommand : IsCommand message := .inl hme
    rw [if_pos hme, if_pos hme, substr_succ hlength]
    by_cases hshort : message.toList.length = 3
    · simp [hshort]
    · simp [hshort, IrcCommand.OneLine, IrcCommand.arguments, hcommand, and_comm]
  · rw [if_neg hme, if_neg hme]
    by_cases hwhois : (State.startsWith message "/whois" || State.startsWith message ".whois") = true
    · have hlength : 6 ≤ message.toList.length := by
        rcases Bool.or_eq_true_iff.mp hwhois with h | h
        · exact startsWith_length h
        · exact startsWith_length h
      have hcommand : IsCommand message := .inr (Bool.or_eq_true_iff.mp hwhois)
      rw [if_pos hwhois, if_pos hwhois, substr_succ hlength]
      by_cases hshort : message.toList.length = 6
      · simp [hshort]
      · simp [hshort, IrcCommand.OneLine, IrcCommand.arguments, hcommand]
    · rw [if_neg hwhois, if_neg hwhois]
      constructor
      · rintro ⟨sent, hsent, hclean, -⟩
        obtain rfl := Option.some.inj hsent
        obtain ⟨text, htext⟩ := List.exists_mem_of_ne_nil _ (lines_ne_nil message)
        exact hclean (.message target text) (List.mem_map_of_mem htext) target List.mem_cons_self
      · intro htarget
        refine ⟨_, rfl, fun c hc => ?_, fun _ => ⟨_, linesOf_lines message, rfl⟩⟩
        obtain ⟨text, htext, rfl⟩ := List.mem_map.mp hc
        simp [IrcCommand.OneLine, IrcCommand.arguments, htarget, not_mem_of_mem_lines htext]

end Lines

/-- Exactly the messages that can be sent are delivered as their lines, if the user has a session. -/
theorem deliversLines_iff (env : Env) (s : State) (user legacyName message : String) :
    DeliversLines env s user legacyName message ↔
      (s.sessions.get (env.getSessionName user legacyName) ≠ none →
        Sendable (getTargetName legacyName) message) := by
  cases hget : s.sessions.get (env.getSessionName user legacyName) with
  | none =>
    refine iff_of_true ⟨s, ?_, ?_⟩ fun h => absurd rfl h
    · simp only [State.sendRequest, hget]
    · intro session hsession
      rw [hget] at hsession
      cases hsession
  | some session =>
    simp only [ne_eq, reduceCtorEq, not_false_iff, forall_const]
    rw [← sentFor_iff]
    rcases sendRequest_cases message hget with ⟨hnone, hfails⟩ |
      ⟨sent, s', session', hsent, hrequest, hget', hcommands⟩
    · refine iff_of_false ?_ ?_
      · rintro ⟨s', hs', -⟩
        rw [hfails] at hs'
        cases hs'
      · rintro ⟨sent, hsent, -⟩
        rw [hnone] at hsent
        cases hsent
    · constructor
      · rintro ⟨s'', hs'', hdelivers⟩
        rw [hrequest] at hs''
        cases hs''
        obtain ⟨session'', sent', hget'', hcommands', hclean, hlines⟩ := hdelivers session hget
        rw [hget'] at hget''
        cases hget''
        rw [hcommands, List.append_cancel_left_eq] at hcommands'
        rw [← hcommands'] at hclean hlines
        exact ⟨sent, hsent, hclean, hlines⟩
      · rintro ⟨sent', hsent', hclean, hlines⟩
        rw [hsent] at hsent'
        cases hsent'
        refine ⟨s', hrequest, fun session₀ hsession => ?_⟩
        rw [hget] at hsession
        cases hsession
        exact ⟨session', sent, hget', hcommands, hclean, hlines⟩

namespace Sample

/-- A user who is connected to the server of the plugin. -/
def online : State where
  sessions := SortedMap.set {} "alice@localhost"
    { user := "alice@localhost", suffix := "", hostname := "", host := "", port := 6667,
      secure := false, nickName := "alice" }

end Sample

/-- The message `/me` alone: the text behind the position 4 does not exist. -/
theorem not_deliversLines_me :
    ¬ ∀ env s user legacyName message, '\n' ∉ legacyName.toList →
      DeliversLines env s user legacyName message := by
  intro h
  obtain ⟨s', hs', -⟩ := h { servers := ["irc.example.org"] } Sample.online "alice@localhost" "#room"
    "/me" (by decide)
  have hnone : Sample.online.sendRequest { servers := ["irc.example.org"] } "alice@localhost" "#room"
      "/me" = none := by decide
  rw [hnone] at hs'
  cases hs'

end Spectrum.Irc
