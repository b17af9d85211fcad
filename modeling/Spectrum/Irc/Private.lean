import Spectrum.Irc.Isolation

/-!
# Private messages

What an IRC connection tells a `MyIrcSession`. A private message comes without the room that the user
and the other one are in, and the session remembers for every nickname the room through which they talk:
the room through which the user wrote last, or else the first room with the nickname when it wrote.

libcommuni keeps the buffers and their users. What it finds and contains is a parameter, and may change
between any two events.

* `conversation_of_run`: a conversation stays in its room, in every run.
-/

namespace Spectrum.Irc

open Lib

/-! ## The session -/

/-- An `IrcBuffer`, with the `contains` of its `IrcUserModel` in `m_userModels`. -/
structure Buffer where
  name : String
  userModel : Option (String → Bool)

/-- An `IrcBufferModel` at one moment. -/
structure BufferModel where
  buffers : List Buffer := []
  find : String → Option Buffer := fun _ => none

/-- `handleMessage`, with the flag for a private message in a room. -/
structure Shown where
  legacyName : String
  text : String
  nickname : String
  pm : Bool
  deriving DecidableEq, Repr

structure Connection where
  session : Session
  bufferModel : BufferModel := {}
  shown : List Shown := []

/-- `QString::toLower` and `QString::toUpper`. -/
structure Folding where
  toLower : String → String
  toUpper : String → String

/-- `correctNickname`. -/
def correctNickname (nick : String) : String :=
  match nick.toList with
  | c :: cs => if c ∈ ['@', '+', '~', '&', '%'] then String.ofList cs else nick
  | [] => nick

/-- A buffer without a user model contains nobody. -/
def Buffer.contains (b : Buffer) (name : String) : Bool := b.userModel.any (· name)

/-- The user is in the buffer of a channel. -/
def hasIrcUser (model : BufferModel) (channel name : String) : Bool :=
  let channel := if State.startsWith channel "#" then channel else "#" ++ channel
  (model.find channel).any (·.contains name)

/-- The room of an entry of `m_pms`. -/
def roomOf (entry : String) : String := before '@' (before '/' entry)

namespace Connection

variable (c : Connection)

def handleMessage (x : Shown) : Connection := { c with shown := c.shown ++ [x] }

/-- `sendMessageToFrontend`. -/
def sendMessageToFrontend (channel nick msg : String) : Connection :=
  let nickname := correctNickname nick
  let suffix := c.session.suffix
  if State.startsWith channel "#" then c.handleMessage ⟨channel ++ suffix, msg, nickname, false⟩
  else
    match c.session.pms.get nickname with
    | some entry =>
      if hasIrcUser c.bufferModel (roomOf entry) nickname then
        c.handleMessage ⟨roomOf entry ++ suffix, msg, nickname, true⟩
      else c.handleMessage ⟨nickname ++ suffix, msg, "", false⟩
    | none =>
      match c.bufferModel.buffers.find? (·.contains nickname) with
      | some b =>
        let room := "#" ++ b.name
        ({ c with session := c.session.addPM nickname (room ++ "/" ++ nickname) } :
          Connection).handleMessage ⟨room ++ suffix, msg, nickname, true⟩
      | none => c.handleMessage ⟨nickname ++ suffix, msg, "", false⟩

end Connection

/-- An `IrcPrivateMessage`. -/
structure PrivateMessage where
  isRequest : Bool := false
  isAction : Bool := false
  target : String
  nick : String
  content : String
  deriving DecidableEq, Repr

/-- A request that libcommuni answers. -/
def PrivateMessage.isAnswered (fold : Folding) (m : PrivateMessage) : Bool :=
  m.isRequest && ["PING", "TIME", "VERSION"].contains
    (fold.toUpper (((split ' ' m.content).filter (· ≠ "")).headD ""))

def PrivateMessage.text (m : PrivateMessage) : String :=
  if m.isAction then "/me " ++ m.content else m.content

/-- The answer of `on_whoisMessageReceived`. -/
def whoisText (nick server realName channels : String) : String :=
  nick ++ " is connected to " ++ server ++ " (" ++ realName ++ ")\n" ++
    nick ++ " is a user on channels: " ++ channels

/-- What `handleMessageSendRequest` does with the session. -/
def Session.sendRequest (session : Session) (legacyName message : String) : Option Session :=
  let target := getTargetName legacyName
  let session :=
    if '/' ∈ legacyName.toList then session.addPM target (before '@' legacyName) else session
  if State.startsWith message "/me" then
    (substr message 4).map fun text => session.sendCommand (.ctcpAction target text)
  else if State.startsWith message "/whois" || State.startsWith message ".whois" then
    (substr message 7).map fun name => session.sendWhoisCommand target name
  else some ((State.lines message).foldl (fun session line =>
    session.sendCommand (.message target line)) session)

/-- The requests of the user, and what the connection reports. The channels of a whois are one text. -/
inductive Report
  | send (legacyName message : String)
  | command (command : IrcCommand)
  | buffers (model : BufferModel)
  | message (m : PrivateMessage)
  | notice (target nick content : String)
  | whois (nick server realName channels : String)
  | noSuchNick (nick : String)

/-- The answer to a whois goes where it was asked for. -/
def Connection.answerWhois (c : Connection) (nick text : String) : Connection :=
  (c.session.whois.get nick).elim c fun channel =>
    let c := c.sendMessageToFrontend channel "whois" text
    { c with session := { c.session with whois := c.session.whois.erase nick } }

def Connection.step (fold : Folding) (c : Connection) : Report → Option Connection
  | .send legacyName message =>
    (c.session.sendRequest legacyName message).map fun session => { c with session := session }
  | .command command => some { c with session := c.session.sendCommand command }
  | .buffers model => some { c with bufferModel := model }
  | .message m =>
    some (if m.isAnswered fold then c
      else c.sendMessageToFrontend (fold.toLower m.target) m.nick m.text)
  | .notice target nick content =>
    some (c.sendMessageToFrontend (fold.toLower target) nick content)
  | .whois nick server realName channels =>
    some (c.answerWhois nick (whoisText nick server realName channels))
  | .noSuchNick nick => some (c.answerWhois nick (nick ++ ": No such client"))

/-- A session that was just created. -/
def connection (fold : Folding) : Machine Connection Report where
  init c := c.session.pms = {} ∧ c.session.whois = {} ∧ c.shown = []
  step := Connection.step fold

/-- The session of the plugin does what a request does with it. -/
theorem handleMessageSendRequest_session {env : Env} {s s' : State} {user legacyName message : String}
    {session : Session} (hget : s.sessions.get (env.getSessionName user legacyName) = some session)
    (h : s.handleMessageSendRequest env user legacyName message = some s') :
    ∃ session', session.sendRequest legacyName message = some session' ∧
      s'.sessions.get (env.getSessionName user legacyName) = some session' := by
  unfold State.handleMessageSendRequest at h
  simp only [hget] at h
  unfold Session.sendRequest
  generalize env.getSessionName user legacyName = name at h ⊢
  generalize getTargetName legacyName = target at h ⊢
  dsimp only
  generalize (if '/' ∈ legacyName.toList then session.addPM target (before '@' legacyName)
    else session) = session at h ⊢
  split at h
  · rename_i hme
    rw [if_pos hme]
    obtain ⟨text, htext, h⟩ := Option.bind_eq_some_iff.mp h
    cases h
    exact ⟨_, by rw [htext]; rfl, by rw [sessions_echo]; exact SortedMap.get_set_self _ _ _⟩
  · rename_i hme
    rw [if_neg hme]
    split at h
    · rename_i hwhois
      rw [if_pos hwhois]
      obtain ⟨nick, hnick, h⟩ := Option.bind_eq_some_iff.mp h
      cases h
      exact ⟨_, by rw [hnick]; rfl, SortedMap.get_set_self _ _ _⟩
    · rename_i hwhois
      rw [if_neg hwhois]
      cases h
      exact ⟨_, rfl, by rw [sessions_echo]; exact SortedMap.get_set_self _ _ _⟩

/-! ## The room of a conversation -/

/-- The name under which the frontend sends to someone in a room. -/
def replyName (room suffix nick : String) : String := room ++ suffix ++ "/" ++ nick

/-- The session remembers a room for the nickname. -/
def Connection.Talks (c : Connection) (nick room : String) : Prop :=
  ∃ entry, c.session.pms.get nick = some entry ∧ roomOf entry = room

/-- The name of a room, and the suffix that the session puts behind it. -/
structure IsRoom (room suffix : String) : Prop where
  noSlash : '/' ∉ room.toList
  noAt : '@' ∉ room.toList
  suffixSlash : '/' ∉ suffix.toList
  suffix : suffix = "" ∨ ∃ server, suffix = "@" ++ server

section

variable {fold : Folding} {c c₁ c₂ : Connection} {r suffix nick n msg channel text entry : String}

theorem roomOf_room (h : IsRoom r suffix) : roomOf r = r := by
  rw [roomOf, before_of_not_mem h.noSlash, before_of_not_mem h.noAt]

theorem roomOf_slash (h : IsRoom r suffix) (t : String) : roomOf (r ++ "/" ++ t) = r := by
  have hslash : before '/' ("/" ++ t) = "" := by
    rw [before, String.toList_append]
    rfl
  rw [roomOf, String.append_assoc, before_append h.noSlash, hslash, String.append_empty,
    before_of_not_mem h.noAt]

/-- A reply goes to who wrote. -/
theorem getTargetName_replyName (h : IsRoom r suffix) (n : String) :
    '/' ∈ (replyName r suffix n).toList ∧ getTargetName (replyName r suffix n) = n := by
  have hmem : '/' ∈ (replyName r suffix n).toList := by
    simp [replyName]
  have hno : '/' ∉ (r ++ suffix).toList := by
    rw [String.toList_append, List.mem_append, not_or]
    exact ⟨h.noSlash, h.suffixSlash⟩
  refine ⟨hmem, ?_⟩
  rw [getTargetName, if_pos hmem]
  exact after_append hno

/-- A reply goes through the room. -/
theorem roomOf_replyName (h : IsRoom r suffix) (n : String) :
    roomOf (before '@' (replyName r suffix n)) = r := by
  rcases h.suffix with rfl | ⟨server, rfl⟩
  · rw [replyName, String.append_empty, String.append_assoc, before_append h.noAt,
      before_append (by decide), ← String.append_assoc]
    exact roomOf_slash h _
  · have hat : before '@' ("@" ++ (server ++ ("/" ++ n))) = "" := by
      rw [before, String.toList_append]
      rfl
    rw [replyName, String.append_assoc, String.append_assoc, String.append_assoc,
      before_append h.noAt, hat, String.append_empty, roomOf_room h]

/-! ## What is remembered -/

/-- A message changes what is remembered for its nickname only if nothing was. -/
theorem pms_sendMessageToFrontend (h : c.session.pms.get n = some entry) (channel nick msg : String) :
    (c.sendMessageToFrontend channel nick msg).session.pms.get n = some entry := by
  unfold Connection.sendMessageToFrontend
  dsimp only
  split
  · exact h
  · split
    · split <;> exact h
    · rename_i hnone
      split
      · refine (SortedMap.get_set_of_ne fun heq => ?_).trans h
        rw [← heq, h] at hnone
        cases hnone
      · exact h

theorem suffix_sendMessageToFrontend (channel nick msg : String) :
    (c.sendMessageToFrontend channel nick msg).session.suffix = c.session.suffix := by
  unfold Connection.sendMessageToFrontend
  dsimp only
  split_ifs
  · rfl
  · split
    · split <;> rfl
    · split <;> rfl

/-- A private message that is shown in a room is remembered. -/
theorem talks_sendMessageToFrontend (hr : IsRoom r c.session.suffix)
    (h : (c.sendMessageToFrontend channel nick msg).shown =
      c.shown ++ [⟨r ++ c.session.suffix, text, n, true⟩]) :
    (c.sendMessageToFrontend channel nick msg).Talks n r := by
  unfold Connection.sendMessageToFrontend at h ⊢
  dsimp only at h ⊢
  split at h
  · simp [Connection.handleMessage] at h
  · rename_i hchannel
    rw [if_neg hchannel]
    split at h
    · rename_i entry hget
      split at h
      · rename_i hin
        obtain ⟨hroom, -, rfl⟩ : roomOf entry = r ∧ msg = text ∧ correctNickname nick = n := by
          simpa [Connection.handleMessage] using h
        rw [if_pos hin]
        exact ⟨entry, hget, hroom⟩
      · simp [Connection.handleMessage] at h
    · rename_i hget
      split at h
      · rename_i b hb
        obtain ⟨hroom, -, rfl⟩ : "#" ++ b.name = r ∧ msg = text ∧ correctNickname nick = n := by
          simpa [Connection.handleMessage] using h
        exact ⟨_, SortedMap.get_set_self _ _ _, by rw [hroom]; exact roomOf_slash hr _⟩
      · simp [Connection.handleMessage] at h

theorem sendRequest_eq_some {session session' : Session} {legacyName message : String}
    (h : session.sendRequest legacyName message = some session') :
    session'.suffix = session.suffix ∧ session'.pms = (if '/' ∈ legacyName.toList then
      session.pms.set (getTargetName legacyName) (before '@' legacyName) else session.pms) := by
  have hlines : ∀ (lines : List String) (x : Session), (lines.foldl (fun session line =>
      session.sendCommand (.message (getTargetName legacyName) line)) x).suffix = x.suffix ∧
      (lines.foldl (fun session line =>
        session.sendCommand (.message (getTargetName legacyName) line)) x).pms = x.pms := by
    intro lines
    induction lines with
    | nil => exact fun x => ⟨rfl, rfl⟩
    | cons line lines ih => exact fun x => ih _
  unfold Session.sendRequest at h
  dsimp only at h
  generalize hx : (if '/' ∈ legacyName.toList then
    session.addPM (getTargetName legacyName) (before '@' legacyName) else session) = x at h
  have hpms : x.suffix = session.suffix ∧ x.pms = (if '/' ∈ legacyName.toList then
      session.pms.set (getTargetName legacyName) (before '@' legacyName) else session.pms) := by
    rw [← hx]
    split <;> exact ⟨rfl, rfl⟩
  split at h
  · obtain ⟨text, -, rfl⟩ := Option.map_eq_some_iff.mp h
    exact hpms
  · split at h
    · obtain ⟨name, -, rfl⟩ := Option.map_eq_some_iff.mp h
      exact hpms
    · cases h
      exact ⟨(hlines _ x).1.trans hpms.1, (hlines _ x).2.trans hpms.2⟩

/-- The session shows at most a message that `sendMessageToFrontend` shows. -/
def Connection.Tells (c c₁ : Connection) : Prop :=
  c₁.session.suffix = c.session.suffix ∧
    (c₁.session.pms = c.session.pms ∧ c₁.shown = c.shown ∨ ∃ channel nick msg,
      c₁.session.pms = (c.sendMessageToFrontend channel nick msg).session.pms ∧
      c₁.shown = (c.sendMessageToFrontend channel nick msg).shown)

theorem tells_sendMessageToFrontend (channel nick msg : String) :
    c.Tells (c.sendMessageToFrontend channel nick msg) :=
  ⟨suffix_sendMessageToFrontend channel nick msg, .inr ⟨channel, nick, msg, rfl, rfl⟩⟩

theorem tells_answerWhois (nick text : String) : c.Tells (c.answerWhois nick text) := by
  unfold Connection.answerWhois
  cases c.session.whois.get nick with
  | none => exact ⟨rfl, .inl ⟨rfl, rfl⟩⟩
  | some channel => exact tells_sendMessageToFrontend channel "whois" text

/-- A request may remember another room for a nickname. -/
theorem step_cases {e : Report} (hs : c.step fold e = some c₁) :
    (∃ legacyName message, e = .send legacyName message ∧ c₁.session.suffix = c.session.suffix ∧
      c₁.shown = c.shown ∧ c₁.session.pms = if '/' ∈ legacyName.toList then
        c.session.pms.set (getTargetName legacyName) (before '@' legacyName) else c.session.pms) ∨
    (∀ legacyName message, e ≠ .send legacyName message) ∧ c.Tells c₁ := by
  cases e with
  | send legacyName message =>
    obtain ⟨session, hsession, rfl⟩ := Option.map_eq_some_iff.mp hs
    obtain ⟨hsuffix, hpms⟩ := sendRequest_eq_some hsession
    exact .inl ⟨legacyName, message, rfl, hsuffix, rfl, hpms⟩
  | command command =>
    cases hs
    exact .inr ⟨fun _ _ => Report.noConfusion, rfl, .inl ⟨rfl, rfl⟩⟩
  | buffers model =>
    cases hs
    exact .inr ⟨fun _ _ => Report.noConfusion, rfl, .inl ⟨rfl, rfl⟩⟩
  | message m =>
    cases hs
    split
    · exact .inr ⟨fun _ _ => Report.noConfusion, rfl, .inl ⟨rfl, rfl⟩⟩
    · exact .inr ⟨fun _ _ => Report.noConfusion, tells_sendMessageToFrontend _ _ _⟩
  | notice target nick content =>
    cases hs
    exact .inr ⟨fun _ _ => Report.noConfusion, tells_sendMessageToFrontend _ _ _⟩
  | whois nick server realName channels =>
    cases hs
    exact .inr ⟨fun _ _ => Report.noConfusion, tells_answerWhois _ _⟩
  | noSuchNick nick =>
    cases hs
    exact .inr ⟨fun _ _ => Report.noConfusion, tells_answerWhois _ _⟩

/-! ## Every run -/

/-- The event is the start of a conversation in a room: the user writes through it, or a private message
is shown in it. -/
def Starts (c c₁ : Connection) (r n : String) (e : Report) : Prop :=
  (∃ message, e = .send (replyName r c.session.suffix n) message) ∨
    ∃ text, c₁.shown = c.shown ++ [⟨r ++ c.session.suffix, text, n, true⟩]

theorem talks_of_starts {e : Report} (hr : IsRoom r c.session.suffix) (hs : c.step fold e = some c₁)
    (he : Starts c c₁ r n e) : c₁.Talks n r ∧ c₁.session.suffix = c.session.suffix := by
  rcases step_cases hs with ⟨legacyName, message, rfl, hsuffix, hshown, hpms⟩ |
      ⟨hother, hsuffix, hcases⟩
  · refine ⟨?_, hsuffix⟩
    rcases he with ⟨message', heq⟩ | ⟨text, htext⟩
    · obtain ⟨rfl, -⟩ := Report.send.inj heq
      obtain ⟨hslash, htarget⟩ := getTargetName_replyName hr n
      refine ⟨_, ?_, roomOf_replyName hr n⟩
      rw [hpms, if_pos hslash, htarget, SortedMap.get_set_self]
    · rw [hshown] at htext
      simp at htext
  · refine ⟨?_, hsuffix⟩
    rcases he with ⟨message, heq⟩ | ⟨text, htext⟩
    · exact absurd heq (hother _ _)
    · rcases hcases with ⟨-, hshown⟩ | ⟨channel, nick, msg, hpms, hshown⟩
      · rw [hshown] at htext
        simp at htext
      · obtain ⟨entry, hget, hroom⟩ := talks_sendMessageToFrontend hr (hshown.symm.trans htext)
        exact ⟨entry, hpms ▸ hget, hroom⟩

/-- The user writes to the nickname through another room only if he breaks the conversation off. -/
def Keeps (r suffix n : String) : Report → Prop
  | .send legacyName _ => '/' ∈ legacyName.toList → getTargetName legacyName = n →
    legacyName = replyName r suffix n
  | _ => True

theorem talks_step {e : Report} (hr : IsRoom r c.session.suffix) (h : c.Talks n r)
    (hs : c.step fold e = some c₁) (he : Keeps r c.session.suffix n e) :
    c₁.Talks n r ∧ c₁.session.suffix = c.session.suffix := by
  obtain ⟨entry, hget, hroom⟩ := h
  rcases step_cases hs with ⟨legacyName, message, rfl, hsuffix, -, hpms⟩ | ⟨-, hsuffix, hcases⟩
  · refine ⟨?_, hsuffix⟩
    unfold Connection.Talks
    rw [hpms]
    split
    · rename_i hslash
      by_cases htarget : getTargetName legacyName = n
      · refine ⟨_, by rw [htarget, SortedMap.get_set_self], ?_⟩
        rw [he hslash htarget, roomOf_replyName hr]
      · exact ⟨entry, (SortedMap.get_set_of_ne (Ne.symm htarget)).trans hget, hroom⟩
    · exact ⟨entry, hget, hroom⟩
  · refine ⟨⟨entry, ?_, hroom⟩, hsuffix⟩
    rcases hcases with ⟨hpms, -⟩ | ⟨channel, nick, msg, hpms, -⟩
    · rw [hpms, hget]
    · rw [hpms]
      exact pms_sendMessageToFrontend hget channel nick msg

theorem talks_exec {es : List Report} (hr : IsRoom r c.session.suffix) (h : c.Talks n r)
    (hrun : (connection fold).exec c es = some c₁) (hes : ∀ e ∈ es, Keeps r c.session.suffix n e) :
    c₁.Talks n r ∧ c₁.session.suffix = c.session.suffix := by
  induction es generalizing c with
  | nil =>
    cases hrun
    exact ⟨h, rfl⟩
  | cons e es ih =>
    obtain ⟨c', hs, hrest⟩ := Option.bind_eq_some_iff.mp hrun
    obtain ⟨he, hall⟩ := List.forall_mem_cons.mp hes
    obtain ⟨htalks, hsuffix⟩ := talks_step hr h hs he
    obtain ⟨hlast, hsame⟩ := ih (hsuffix ▸ hr) htalks hrest (hsuffix ▸ hall)
    exact ⟨hlast, hsame.trans hsuffix⟩

theorem shown_of_talks (h : c.Talks n r) (hchannel : State.startsWith channel "#" = false)
    (hnick : correctNickname nick = n) : (c.sendMessageToFrontend channel nick msg).shown =
      c.shown ++ [if hasIrcUser c.bufferModel r n then ⟨r ++ c.session.suffix, msg, n, true⟩
        else ⟨n ++ c.session.suffix, msg, "", false⟩] := by
  obtain ⟨entry, hget, rfl⟩ := h
  unfold Connection.sendMessageToFrontend
  dsimp only
  rw [hchannel, if_neg Bool.false_ne_true, hnick, hget]
  dsimp only
  split <;> rfl

/-- Once the user has written to someone through a room, or a private message was shown in it, replies go
to who wrote it, and whatever happens then, private messages are shown in this room while he is in it,
and as those of a contact while he is not, until the user writes to him through another room. -/
theorem conversation_of_run {e : Report} {es : List Report} (hr : IsRoom r c.session.suffix)
    (hs : c.step fold e = some c₁) (he : Starts c c₁ r n e)
    (hrun : (connection fold).exec c₁ es = some c₂) (hes : ∀ e ∈ es, Keeps r c.session.suffix n e)
    {m : PrivateMessage} (hm : m.isAnswered fold = false)
    (hprivate : State.startsWith (fold.toLower m.target) "#" = false)
    (hnick : correctNickname m.nick = n) :
    getTargetName (replyName r c.session.suffix n) = n ∧
    ∃ c₃, c₂.step fold (.message m) = some c₃ ∧ c₃.shown = c₂.shown ++
      [if hasIrcUser c₂.bufferModel r n then ⟨r ++ c.session.suffix, m.text, n, true⟩
        else ⟨n ++ c.session.suffix, m.text, "", false⟩] := by
  obtain ⟨htalks, hsuffix⟩ := talks_of_starts hr hs he
  rw [← hsuffix] at hr hes ⊢
  obtain ⟨hlast, hsame⟩ := talks_exec hr htalks hrun hes
  refine ⟨(getTargetName_replyName hr n).2, _, congrArg some (if_neg ?_), ?_⟩
  · rw [hm]
    exact Bool.false_ne_true
  · rw [← hsame]
    exact shown_of_talks hlast hprivate hnick

namespace Sample

def asIs : Folding := ⟨id, id⟩

def gateway : Env := {}

/-- A session in gateway mode. -/
def started : Connection where
  session := gateway.createSession "juliet@capulet.lit" "irc.capulet.lit" "juliet" "" "@irc.capulet.lit"

def garden : Buffer where
  name := "garden"
  userModel := some (["nurse", "juliet"].contains ·)

/-- Then the nurse is in the garden, and someone else writes. -/
def afterwards : List Report := [
  .buffers { buffers := [garden], find := fun title => if title = "#garden" then some garden else none },
  .message { target := "juliet", nick := "romeo", content := "Hello" }]

def answer : PrivateMessage where
  target := "juliet"
  nick := "@nurse"
  content := "Hello"

end Sample

theorem conversation_of_run_garden : ∃ c₁ c₂ c₃,
    Sample.started.step Sample.asIs (.send "#garden@irc.capulet.lit/nurse" "Hello") = some c₁ ∧
    (connection Sample.asIs).exec c₁ Sample.afterwards = some c₂ ∧
    c₂.step Sample.asIs (.message Sample.answer) = some c₃ ∧
    c₃.shown = c₂.shown ++ [⟨"#garden@irc.capulet.lit", "Hello", "nurse", true⟩] := by
  obtain ⟨c₁, c₂, hc₁, hc₂, hin⟩ : ∃ c₁ c₂, Sample.started.step Sample.asIs
      (.send "#garden@irc.capulet.lit/nurse" "Hello") = some c₁ ∧
      (connection Sample.asIs).exec c₁ Sample.afterwards = some c₂ ∧
      hasIrcUser c₂.bufferModel "#garden" "nurse" = true :=
    ⟨_, _, rfl, rfl, by decide +kernel⟩
  have hroom : IsRoom "#garden" Sample.started.session.suffix :=
    ⟨by decide, by decide, by decide, .inr ⟨"irc.capulet.lit", rfl⟩⟩
  have hkeeps : ∀ e ∈ Sample.afterwards, Keeps "#garden" Sample.started.session.suffix "nurse" e := by
    simp [Sample.afterwards, Keeps]
  obtain ⟨-, c₃, hc₃, hshown⟩ := conversation_of_run hroom hc₁
    (.inl ⟨"Hello", congrArg (Report.send · "Hello") (by decide +kernel)⟩) hc₂ hkeeps
    (m := Sample.answer) rfl (by decide +kernel) (by decide +kernel)
  rw [if_pos hin] at hshown
  exact ⟨c₁, c₂, c₃, hc₁, hc₂, hc₃, hshown⟩

end

end Spectrum.Irc
