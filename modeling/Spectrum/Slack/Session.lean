import Spectrum.Lib.InverseMaps
import Spectrum.Lib.Machine
import Spectrum.Model.Users

/-!
# The channels of a SlackSession

Rooms of the legacy network are transported to Slack channels. The two maps between them are written
together when the channel of a room is ready and read with `operator[]`; `leaveRoom` leaves them as
they are. The pairs that were left and not joined again are recorded next to them, with the messages
that are forwarded to such a room.
-/

namespace Spectrum.Slack

open Lib

/-- `SlackIdManager`: the names of the users, the ids of the channels and the name of the bot. -/
structure IdManager where
  users : SortedMap String String := {}
  channels : SortedMap String String := {}
  selfName : String := ""

def IdManager.getName (m : IdManager) (id : String) : String := (m.users.get id).getD id

def IdManager.getId (m : IdManager) (name : String) : String := (m.channels.get name).getD name

/-- A channel name without a `#` at its start. -/
def channelName (channel : String) : String :=
  match channel.toList with
  | '#' :: name => String.ofList name
  | _ => channel

/-- The JID of the component, and the JID and the name of the user of the session. -/
structure Env where
  jid : String
  userJid : String
  uin : String

/-- A message to the Slack user. `nicknames` are those of the conversations of the user, `sender` is
how the roster names who sent it. -/
structure Incoming where
  bare : String
  resource : String
  body : String
  nicknames : List String
  sender : String

/-- What the session sends to the transport and to Slack. -/
inductive Output
  | presence (available : Bool) (jid : String)
  | message (jid body : String)
  | slackMessage (sender channel body : String)
  | purpose (channel text : String)
  deriving DecidableEq, Repr

structure Session where
  jid2channel : SortedMap String String := {}
  channel2jid : SortedMap String String := {}
  slackChannel : String := ""
  onlineBuddies : SortedMap String String := {}
  ids : IdManager := {}
  outputs : List Output := []
  left : List (String × String) := []
  stray : List (String × String) := []

namespace Session

variable (s : Session)

def output (o : Output) : Session := { s with outputs := s.outputs ++ [o] }

def setPurpose (purpose channel : String) : Session :=
  let ch := if channel = "" then s.slackChannel else channel
  if ch = "" then s else s.output (.purpose ch purpose)

/-- The reading of `m_jid2channel[to]` and of `m_channel2jid[channel]`. -/
def touchJid (jid : String) : Session := { s with jid2channel := s.jid2channel.touch "" jid }

def touchChannel (channel : String) : Session :=
  { s with channel2jid := s.channel2jid.touch "" channel }

/-- The participants of one conversation. -/
def sendOnlineBuddiesOf (env : Env) (name participants : String) : Session :=
  let text := "Online users: " ++ participants
  let s := { s with onlineBuddies := s.onlineBuddies.touch "" name }
  if s.onlineBuddies.get name ≠ some text then
    let s := { s with onlineBuddies := s.onlineBuddies.set name text }
    let jid := replaceLast '@' '%' name ++ "@" ++ env.jid
    (s.touchJid jid).setPurpose text (s.jid2channel.read "" jid)
  else s

/-- The conversations of the user with their participants. -/
def sendOnlineBuddies (env : Env) (conversations : List (String × String)) : Session :=
  conversations.foldl (fun s c => s.sendOnlineBuddiesOf env c.1 c.2) s

def sendMessage (message : Incoming) : Session :=
  if message.resource ∈ message.nicknames then s
  else
    let channel := s.jid2channel.read "" message.bare
    let s := s.touchJid message.bare
    if channel = "" then
      if s.slackChannel = "" then s
      else s.output (.slackMessage message.sender s.slackChannel message.body)
    else s.output (.slackMessage message.resource channel message.body)

/-- The bare JID of a room on the legacy network. -/
def roomJid (env : Env) (legacyRoom legacyServer : String) : String :=
  legacyRoom ++ "%" ++ legacyServer ++ "@" ++ env.jid

/-- With fewer arguments than six the vector is read behind its end. -/
def handleJoinRoomCreated (env : Env) (channelId : String) (args : List String) : Option Session :=
  match args with
  | _ :: _ :: name :: legacyRoom :: legacyServer :: _ :: _ =>
    let jid := roomJid env legacyRoom legacyServer
    let s := { s with
      jid2channel := s.jid2channel.set jid channelId
      channel2jid := s.channel2jid.set channelId jid
      left := s.left.filter (· ≠ (channelId, jid)) }
    some (s.output (.presence true (jid ++ "/" ++ name)))
  | _ => none

def handleSlackChannelCreated (env : Env) (channelId : String) : Session :=
  ({ s with slackChannel := channelId } : Session).output (.presence true env.jid)

def leaveRoom (env : Env) (channel : String) : Session :=
  let channelId := s.ids.getId (channelName channel)
  let jid := s.channel2jid.read "" channelId
  let s := s.touchChannel channelId
  if jid = "" then s
  else ({ s with left := (channelId, jid) :: s.left } : Session).output
    (.presence false (jid ++ "/" ++ env.uin))

/-- `contacts` are the JIDs of the buddies that are online. -/
def handleMessageReceived (channel user message : String) (contacts : List String) : Session :=
  let jid := s.channel2jid.read "" channel
  let s := s.touchChannel channel
  if s.ids.getName user = s.ids.selfName then s
  else
    let body := "<" ++ s.ids.getName user ++ "> " ++ message
    if jid ≠ "" then
      let stray := if (channel, jid) ∈ s.left then [(channel, jid)] else []
      ({ s with stray := s.stray ++ stray } : Session).output (.message jid body)
    else contacts.foldl (fun s contact => s.output (.message contact body)) s

end Session

/-- The calls, and what Slack tells about names and ids. -/
inductive Event
  | joinRoomCreated (channelId : String) (args : List String)
  | slackChannelCreated (channelId : String)
  | leaveRoom (channel : String)
  | sendMessage (message : Incoming)
  | sendOnlineBuddies (conversations : List (String × String))
  | messageReceived (channel user message : String) (contacts : List String)
  | ids (ids : IdManager)

def step (env : Env) (s : Session) : Event → Option Session
  | .joinRoomCreated channelId args => s.handleJoinRoomCreated env channelId args
  | .slackChannelCreated channelId => some (s.handleSlackChannelCreated env channelId)
  | .leaveRoom channel => some (s.leaveRoom env channel)
  | .sendMessage message => some (s.sendMessage message)
  | .sendOnlineBuddies conversations => some (s.sendOnlineBuddies env conversations)
  | .messageReceived channel user message contacts =>
    some (s.handleMessageReceived channel user message contacts)
  | .ids ids => some { s with ids }

def machine (env : Env) : Machine Session Event where
  init s := s = {}
  step := step env

/-- The maps are inverse to each other, and no message went to a room that was left. -/
structure Session.Sound (s : Session) : Prop where
  inverse : Inverse "" "" s.jid2channel s.channel2jid
  stray : s.stray = []

/-- The JID of the room that the arguments of a join name. -/
def roomOf (env : Env) : List String → Option String
  | _ :: _ :: _ :: legacyRoom :: legacyServer :: _ :: _ =>
    some (Session.roomJid env legacyRoom legacyServer)
  | _ => none

/-- A room is transported to a channel where neither is used with another one, and where somebody
writes on a channel its room has not been left. -/
def Fits (env : Env) (s : Session) : Event → Prop
  | .joinRoomCreated channelId args =>
    ∀ jid ∈ roomOf env args, Unused "" s.jid2channel s.channel2jid jid channelId
  | .messageReceived channel user _ _ =>
    s.ids.getName user ≠ s.ids.selfName → (channel, s.channel2jid.read "" channel) ∉ s.left
  | .slackChannelCreated _ | .leaveRoom _ | .sendMessage _ | .sendOnlineBuddies _ | .ids _ => True

instance (env : Env) (s : Session) (e : Event) : Decidable (Fits env s e) :=
  match e with
  | .joinRoomCreated channelId args => inferInstanceAs (Decidable
      (∀ jid ∈ roomOf env args, Unused "" s.jid2channel s.channel2jid jid channelId))
  | .messageReceived channel user _ _ => inferInstanceAs (Decidable
      (s.ids.getName user ≠ s.ids.selfName → (channel, s.channel2jid.read "" channel) ∉ s.left))
  | .slackChannelCreated _ | .leaveRoom _ | .sendMessage _ | .sendOnlineBuddies _ | .ids _ =>
    inferInstanceAs (Decidable True)

/-- The rooms that were left have a name. -/
structure Session.Inv (s : Session) : Prop extends s.Sound where
  named : ∀ p ∈ s.left, p.2 ≠ ""

section Steps

variable {env : Env} {s s' : Session} {e : Event}

/-- Neither the maps nor what was left changes. -/
structure Session.Same (s s' : Session) : Prop where
  jid2channel : s'.jid2channel = s.jid2channel
  channel2jid : s'.channel2jid = s.channel2jid
  left : s'.left = s.left
  stray : s'.stray = s.stray

theorem Session.Inv.same (h : s.Inv) (hsame : s.Same s') : s'.Inv := by
  constructor
  · constructor
    · rw [hsame.jid2channel, hsame.channel2jid]
      exact h.inverse
    · rw [hsame.stray]
      exact h.stray
  · rw [hsame.left]
    exact h.named

theorem Session.Inv.output (h : s.Inv) (o : Output) : (s.output o).Inv := h.same ⟨rfl, rfl, rfl, rfl⟩

theorem Session.Inv.outputs (h : s.Inv) (f : String → Output) (contacts : List String) :
    (contacts.foldl (fun s contact => s.output (f contact)) s).Inv := by
  induction contacts generalizing s with
  | nil => exact h
  | cons contact contacts ih => exact ih (h.output (f contact))

theorem Session.Inv.touchJid (h : s.Inv) (jid : String) : (s.touchJid jid).Inv :=
  ⟨⟨h.inverse.touch_left jid, h.stray⟩, h.named⟩

theorem Session.Inv.touchChannel (h : s.Inv) (channel : String) : (s.touchChannel channel).Inv :=
  ⟨⟨h.inverse.touch_right channel, h.stray⟩, h.named⟩

theorem Session.Inv.setPurpose (h : s.Inv) (purpose channel : String) :
    (s.setPurpose purpose channel).Inv := by
  unfold Session.setPurpose
  simp only
  split
  · split
    · exact h
    · exact h.output _
  · exact h.output _

theorem Session.Inv.sendOnlineBuddies (h : s.Inv) (conversations : List (String × String)) :
    (s.sendOnlineBuddies env conversations).Inv := by
  induction conversations generalizing s with
  | nil => exact h
  | cons c conversations ih =>
    refine ih (s := s.sendOnlineBuddiesOf env c.1 c.2) ?_
    unfold Session.sendOnlineBuddiesOf
    simp only
    split
    · refine Session.Inv.setPurpose (Session.Inv.touchJid ?_ _) _ _
      exact h.same ⟨rfl, rfl, rfl, rfl⟩
    · exact h.same ⟨rfl, rfl, rfl, rfl⟩

theorem Session.Inv.sendMessage (h : s.Inv) (message : Incoming) : (s.sendMessage message).Inv := by
  unfold Session.sendMessage
  simp only
  split
  · exact h
  · split
    · split
      · exact h.touchJid _
      · exact (h.touchJid _).output _
    · exact (h.touchJid _).output _

theorem Session.Inv.noteLeft (h : s.Inv) {channel jid : String} (hne : jid ≠ "") :
    ({ s with left := (channel, jid) :: s.left } : Session).Inv := by
  refine ⟨⟨h.inverse, h.stray⟩, ?_⟩
  rintro p (_ | ⟨_, hp⟩)
  · exact hne
  · exact h.named p hp

theorem Session.Inv.leaveRoom (h : s.Inv) (channel : String) : (s.leaveRoom env channel).Inv := by
  unfold Session.leaveRoom
  simp only
  split
  · exact h.touchChannel _
  · rename_i hne
    exact ((h.touchChannel _).noteLeft hne).output _

theorem roomJid_ne_empty (env : Env) (legacyRoom legacyServer : String) :
    Session.roomJid env legacyRoom legacyServer ≠ "" := by
  intro h
  have hlist := congrArg String.toList h
  rw [Session.roomJid] at hlist
  simp at hlist

/-- A join maps the room and the channel to each other, and the room counts as joined. -/
theorem joinRoomCreated_eq_some {channelId : String} {args : List String}
    (hs : s.handleJoinRoomCreated env channelId args = some s') : ∃ jid,
    roomOf env args = some jid ∧ jid ≠ "" ∧
      s'.jid2channel = s.jid2channel.set jid channelId ∧
      s'.channel2jid = s.channel2jid.set channelId jid ∧ s'.left ⊆ s.left ∧ s'.stray = s.stray := by
  unfold Session.handleJoinRoomCreated at hs
  split at hs
  · rename_i name legacyRoom legacyServer _ _
    cases hs
    exact ⟨_, rfl, roomJid_ne_empty env legacyRoom legacyServer, rfl, rfl, List.filter_subset_self _, rfl⟩
  · cases hs

/-- A new pair keeps the maps inverse exactly when neither side is in use with another one. -/
theorem inv_joinRoomCreated (h : s.Inv) {channelId : String} {args : List String}
    (hs : s.handleJoinRoomCreated env channelId args = some s') :
    (s'.Sound → Fits env s (.joinRoomCreated channelId args)) ∧
      (Fits env s (.joinRoomCreated channelId args) → s'.Inv) := by
  obtain ⟨jid, hroom, hne, hjid, hchannel, hleft, hstray⟩ := joinRoomCreated_eq_some hs
  have hset := h.inverse.set_iff (a := channelId) hne
  rw [← hjid, ← hchannel] at hset
  constructor
  · intro hsound jid' hjid'
    cases hroom.symm.trans hjid'
    exact hset.mp hsound.inverse
  · intro hfits
    refine ⟨⟨hset.mpr (hfits jid hroom), hstray.trans h.stray⟩, ?_⟩
    intro p hp
    exact h.named p (hleft hp)

/-- A message is forwarded to the room of its channel, whether the room was left or not. -/
theorem inv_messageReceived (h : s.Inv) (channel user message : String) (contacts : List String) :
    ((s.handleMessageReceived channel user message contacts).Sound →
        Fits env s (.messageReceived channel user message contacts)) ∧
      (Fits env s (.messageReceived channel user message contacts) →
        (s.handleMessageReceived channel user message contacts).Inv) := by
  have htouch := h.touchChannel channel
  unfold Session.handleMessageReceived
  simp only
  split
  · rename_i hself
    exact ⟨fun _ hother => absurd hself hother, fun _ => htouch⟩
  · rename_i hother
    split
    · constructor
      · intro hsound _ hmem
        have hstray : s.stray ++ (if (channel, s.channel2jid.read "" channel) ∈ s.left then
          [(channel, s.channel2jid.read "" channel)] else []) = [] := hsound.stray
        rw [if_pos hmem] at hstray
        exact List.append_ne_nil_of_right_ne_nil _ (List.cons_ne_nil _ _) hstray
      · intro hfits
        have hstray : s.stray ++ (if (channel, s.channel2jid.read "" channel) ∈ s.left then
            [(channel, s.channel2jid.read "" channel)] else []) = [] := by
          rw [if_neg (hfits hother), h.stray, List.append_nil]
        exact ⟨⟨htouch.inverse, hstray⟩, h.named⟩
    · rename_i hempty
      refine ⟨fun _ _ hmem => h.named _ hmem (not_not.mp hempty), fun _ => ?_⟩
      exact htouch.outputs _ contacts

theorem Session.Inv.step (h : s.Inv) (hs : step env s e = some s') :
    (s'.Sound → Fits env s e) ∧ (Fits env s e → s'.Inv) := by
  cases e with
  | joinRoomCreated channelId args => exact inv_joinRoomCreated h hs
  | messageReceived channel user message contacts =>
    cases hs
    exact inv_messageReceived h channel user message contacts
  | slackChannelCreated channelId =>
    cases hs
    exact ⟨fun _ => trivial, fun _ => h.same ⟨rfl, rfl, rfl, rfl⟩⟩
  | leaveRoom channel =>
    cases hs
    exact ⟨fun _ => trivial, fun _ => h.leaveRoom channel⟩
  | sendMessage message =>
    cases hs
    exact ⟨fun _ => trivial, fun _ => h.sendMessage message⟩
  | sendOnlineBuddies conversations =>
    cases hs
    exact ⟨fun _ => trivial, fun _ => h.sendOnlineBuddies conversations⟩
  | ids ids =>
    cases hs
    exact ⟨fun _ => trivial, fun _ => h.same ⟨rfl, rfl, rfl, rfl⟩⟩

end Steps

/-- The maps stay inverse to each other and no message goes to a room that was left, exactly in the
runs in which rooms and channels are used with one partner at a time and nobody writes on the channel
of a room that was left. -/
theorem channels_sound_iff_fits (env : Env) {tr : List (Session × Event)} {s : Session}
    (h : (machine env).Run tr s) :
    Machine.Always Session.Sound tr s ↔ Machine.Meets (Fits env) tr := by
  refine Machine.Run.always_iff (I := Session.Inv) (fun s hinit => ?_) (fun s hs => hs.toSound)
    (fun s e s' hs hinv hfits => (hinv.step hs).2 hfits)
    (fun s e s' hs hinv hsound => (hinv.step hs).1 hsound) h
  rw [hinit]
  refine ⟨⟨⟨fun k a hget => ?_, fun a k hget => ?_⟩, rfl⟩, fun p hp => absurd hp List.not_mem_nil⟩
  · cases hget
  · cases hget

namespace Sample

def env : Env where
  jid := "slack.example.com"
  userJid := "team"
  uin := "bot"

/-- The arguments of a join as they are stored. -/
def join (room channel : String) : List String :=
  ["connected", "room", "bot", room, "irc.net", channel]

/-- Two rooms on two channels, the first of which is left and joined again. -/
def rooms : List Event :=
  [.joinRoomCreated "C1" (join "#a" "a"), .joinRoomCreated "C2" (join "#b" "b"),
    .messageReceived "C1" "U1" "hi" [], .ids { channels := ({} : SortedMap String String).set "a" "C1" },
    .leaveRoom "#a", .messageReceived "C2" "U1" "hi" [], .joinRoomCreated "C1" (join "#a" "a"),
    .messageReceived "C1" "U1" "hi" []]

/-- The channel of a room that was left. -/
def left : List Event :=
  [.joinRoomCreated "C1" (join "#a" "a"), .ids { channels := ({} : SortedMap String String).set "a" "C1" },
    .leaveRoom "#a", .messageReceived "C1" "U1" "hi" []]

end Sample

theorem channels_sound_iff_fits_rooms : ∃ tr s, (machine Sample.env).Run tr s ∧
    s.outputs.length = 7 ∧ Machine.Always Session.Sound tr s := by
  have hexec : (((machine Sample.env).restrict (Fits Sample.env)).exec {} Sample.rooms).any
      (fun s => decide (s.outputs.length = 7)) = true := by
    decide +kernel
  obtain ⟨s, hs, hlength⟩ := (Option.any_eq_true _ _).mp hexec
  obtain ⟨tr, hrun, hmeets⟩ := Machine.exists_run_of_restrict rfl hs
  exact ⟨tr, s, hrun, of_decide_eq_true hlength, (channels_sound_iff_fits Sample.env hrun).mpr hmeets⟩

/-- The message goes to the room that was left. -/
theorem not_sound_of_left : ∃ tr s, (machine Sample.env).Run tr s ∧ ¬ s.Sound := by
  have hexec : ((machine Sample.env).exec {} Sample.left).any (fun s => decide (
      s.stray = [("C1", "#a%irc.net@slack.example.com")])) = true := by
    decide +kernel
  obtain ⟨s, hs, hstray⟩ := (Option.any_eq_true _ _).mp hexec
  obtain ⟨tr, hrun, -⟩ := Machine.exists_run_of_exec rfl hs
  refine ⟨tr, s, hrun, fun hsound => ?_⟩
  have hnil := hsound.stray
  rw [of_decide_eq_true hstray] at hnil
  cases hnil

end Spectrum.Slack
