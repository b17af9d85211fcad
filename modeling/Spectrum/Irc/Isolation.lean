import Spectrum.Irc.Model

/-!
# Whose session a request finds

In gateway mode the key of a session is the JID of the user with the server directly behind it. The
request of a user finds the session of somebody else when a text stands at the end of one JID in the
place where it stands at the start of the other server. A logout and a status change look the JID up
alone, which is the key of somebody else when it is his JID with his server.
-/

namespace Spectrum.Irc

open Lib

/-- A bare JID, which has no resource. -/
structure BareJid where
  text : String
  noSlash : '/' ∉ text.toList

/-- The IRC connection of a user to a server. -/
structure Address where
  user : BareJid
  server : String
  noSlash : '/' ∉ server.toList

def Address.key (a : Address) : String := a.user.text ++ a.server

/-- The key is the same text, cut at another place. -/
def Address.Overlap (a b : Address) : Prop :=
  ∃ t, b.user.text = a.user.text ++ t ∧ a.server = t ++ b.server ∨
    a.user.text = b.user.text ++ t ∧ b.server = t ++ a.server

/-- The session was created for the server of the user. -/
def Session.CreatedFor (session : Session) (user server : String) : Prop :=
  session.user = user ∧ before '/' session.hostname = server

instance (session : Session) (user server : String) : Decidable (session.CreatedFor user server) :=
  inferInstanceAs (Decidable (_ ∧ _))

namespace Event

/-- The user and the room, or the participant of a room, that a request names. -/
def request : Event → Option (String × String)
  | .message user legacyName _ => some (user, legacyName)
  | .subject user room _ | .join user room _ _ | .leave user room => some (user, room)
  | .login .. | .logout _ | .status .. | .nickChanged .. | .disconnected _ => none

/-- The user of a request. -/
def user : Event → Option String
  | .message user _ _ | .subject user _ _ | .join user _ _ _ | .leave user _ | .login user _ _
  | .logout user | .status user _ _ => some user
  | .nickChanged .. | .disconnected _ => none

/-- The key that an event looks up. In gateway mode a login looks up none. -/
def key (env : Env) : Event → Option String
  | .message user legacyName _ => some (env.getSessionName user legacyName)
  | .subject user room _ | .join user room _ _ | .leave user room =>
    some (env.getSessionName user room)
  | .logout user | .status user _ _ => some user
  | .nickChanged key _ => some key
  | .login .. | .disconnected _ => none

/-- The session that an event looks up. -/
def lookedUp (env : Env) (s : State) (e : Event) : Option Session :=
  (e.key env).bind fun key => s.sessions.get key

/-- A request of the user of `a` that names a room or a participant on the server of `a`. A name
without `@` is taken for the server. -/
def Of (e : Event) (a : Address) : Prop :=
  ∃ legacyName, e.request = some (a.user.text, legacyName) ∧
    before '/' (after '@' legacyName) = a.server

/-- A request of the user of `a`, for the server of `a` or for none. -/
def By (e : Event) (a : Address) : Prop :=
  e.Of a ∨ e.request = none ∧ e.user = some a.user.text

end Event

/-- The requests for `a` never find the session that was created for `b`, and if the users are two,
none of the requests of one for `a`, nor his logins, logouts and status changes, do anything to it. -/
structure Isolated (env : Env) (a b : Address) : Prop where
  apart : ∀ tr s, (machine env).Run tr s → ∀ e session, Event.Of e a →
    e.lookedUp env s = some session → ¬ session.CreatedFor b.user.text b.server
  untouched : a.user.text ≠ b.user.text → ∀ tr s, (machine env).Run tr s →
    ∀ e s', Event.By e a → step env s e = some s' → ∀ key session,
      s.sessions.get key = some session → session.CreatedFor b.user.text b.server →
        s'.sessions.get key = some session

/-- The condition. -/
def Address.Apart (a b : Address) : Prop :=
  ¬ a.Overlap b ∧ (a.user.text ≠ b.user.text → a.user.text ≠ b.key)

section Names

variable {env : Env} {a b : Address} {user legacyName server : String}

theorem getSessionName_of_gateway (henv : env.Gateway) (user legacyName : String) :
    env.getSessionName user legacyName = before '/' (user ++ after '@' legacyName) :=
  if_pos ⟨henv.serverMode, henv.servers⟩

theorem serverOf_eq_some_iff : serverOf legacyName = some server ↔
    '@' ∈ legacyName.toList ∧ before '/' (after '@' legacyName) = server := by
  unfold serverOf
  split
  · rename_i hmem
    rw [Option.some_inj]
    exact (and_iff_right hmem).symm
  · rename_i hmem
    exact ⟨fun h => absurd h.symm (Option.some_ne_none _), fun h => absurd h.1 hmem⟩

theorem getSessionName_bareJid (henv : env.Gateway) (user : BareJid) (legacyName : String) :
    env.getSessionName user.text legacyName = user.text ++ before '/' (after '@' legacyName) := by
  rw [getSessionName_of_gateway henv, before_append user.noSlash]

theorem getSessionName_of_server (henv : env.Gateway)
    (h : before '/' (after '@' legacyName) = a.server) :
    env.getSessionName a.user.text legacyName = a.key := by
  rw [getSessionName_bareJid henv, h]
  rfl

theorem getSessionName_of_serverOf (henv : env.Gateway) (h : serverOf legacyName = some a.server) :
    env.getSessionName a.user.text legacyName = a.key :=
  getSessionName_of_server henv (serverOf_eq_some_iff.mp h).2

theorem overlap_iff_key : a.Overlap b ↔ a.key = b.key := by
  rw [Address.key, Address.key, ← String.toList_inj, String.toList_append, String.toList_append,
    List.append_eq_append_iff]
  simp only [Address.Overlap, ← String.toList_inj, String.toList_append]
  constructor
  · rintro ⟨t, h | h⟩
    · exact Or.inl ⟨t.toList, h⟩
    · exact Or.inr ⟨t.toList, h⟩
  · rintro (⟨t, h⟩ | ⟨t, h⟩)
    · exact ⟨String.ofList t, Or.inl (by simpa only [String.toList_ofList] using h)⟩
    · exact ⟨String.ofList t, Or.inr (by simpa only [String.toList_ofList] using h)⟩

/-- A room on the server of an address. -/
theorem serverOf_room (a : Address) : serverOf ("#room@" ++ a.server) = some a.server := by
  have hafter : after '@' ("#room@" ++ a.server) = a.server :=
    after_append (c := '@') (s := "#room") (by decide)
  rw [serverOf_eq_some_iff, hafter]
  exact ⟨by simp, before_of_not_mem a.noSlash⟩

end Names

/-! ## The table -/

/-- What stays the same in a session. -/
structure Session.Kept (old session : Session) : Prop where
  user : session.user = old.user
  hostname : session.hostname = old.hostname
  opened : session.opened = old.opened

/-- What an event does to the table under the key that it looks up: a session is changed, a session of
a new user or server is created by a join, or a session is deleted. -/
inductive Change (env : Env) (s s' : State) : Option String → Prop
  | same {key : Option String} (htable : s'.sessions = s.sessions) : Change env s s' key
  | kept (key : String) (old session : Session) (hget : s.sessions.get key = some old)
      (hkept : old.Kept session) (htable : s'.sessions = s.sessions.set key session) :
      Change env s s' (some key)
  | created (user room : String) (session : Session) (huser : session.user = user)
      (hhost : session.hostname = after '@' room) (hopen : session.opened = true)
      (htable : s'.sessions = s.sessions.set (env.getSessionName user room) session) :
      Change env s s' (some (env.getSessionName user room))
  | deleted (key : String) (htable : s'.sessions = s.sessions.erase key) :
      Change env s s' (some key)

section Table

variable {env : Env} {s s' : State} {e : Event} {key : String} {session : Session}

theorem Session.Kept.refl (session : Session) : session.Kept session := ⟨rfl, rfl, rfl⟩

theorem Session.Kept.sendCommand {old : Session} (h : old.Kept session) (c : IrcCommand) :
    old.Kept (session.sendCommand c) :=
  ⟨h.user, h.hostname, h.opened⟩

theorem Session.Kept.sendWhoisCommand {old : Session} (h : old.Kept session)
    (channel user : String) : old.Kept (session.sendWhoisCommand channel user) :=
  ⟨h.user, h.hostname, h.opened⟩

theorem Session.Kept.messages {old : Session} (h : old.Kept session) (target : String)
    (lines : List String) :
    old.Kept (lines.foldl (fun session line => session.sendCommand (.message target line)) session) := by
  induction lines generalizing session with
  | nil => exact h
  | cons line lines ih => exact ih (h.sendCommand (.message target line))

@[simp]
theorem sessions_output (s : State) (o : Output) : (s.output o).sessions = s.sessions := rfl

@[simp]
theorem sessions_setSession (s : State) (key : String) (session : Session) :
    (s.setSession key session).sessions = s.sessions.set key session := rfl

@[simp]
theorem sessions_close (s : State) (key : String) :
    (s.close key).sessions = s.sessions.erase key := rfl

@[simp]
theorem sessions_echo (s : State) (user legacyName message target : String) (session : Session) :
    (s.echo user legacyName message target session).sessions = s.sessions := by
  unfold State.echo
  split <;> rfl

theorem sessions_login (henv : env.Gateway) (user legacyName password : String) :
    (s.handleLoginRequest env user legacyName password).sessions = s.sessions := by
  rw [State.handleLoginRequest, if_neg (not_not_intro henv.servers)]
  rfl

theorem change_message {user legacyName message : String}
    (h : s.handleMessageSendRequest env user legacyName message = some s') :
    Change env s s' (some (env.getSessionName user legacyName)) := by
  unfold State.handleMessageSendRequest at h
  simp only at h
  generalize hname : env.getSessionName user legacyName = name at h
  split at h
  · cases h
    exact .same rfl
  · rename_i old hget
    generalize htarget : getTargetName legacyName = target at h
    generalize hpm : (if '/' ∈ legacyName.toList then old.addPM target (before '@' legacyName)
      else old) = session at h
    have hkept : old.Kept session := by
      rw [← hpm]
      split <;> exact ⟨rfl, rfl, rfl⟩
    split at h
    · obtain ⟨text, -, h⟩ := Option.bind_eq_some_iff.mp h
      cases h
      exact .kept name old _ hget (hkept.sendCommand _) (sessions_echo ..)
    · split at h
      · obtain ⟨whois, -, h⟩ := Option.bind_eq_some_iff.mp h
        cases h
        exact .kept name old _ hget (hkept.sendWhoisCommand target whois) rfl
      · cases h
        exact .kept name old _ hget (hkept.messages target _) (sessions_echo ..)

theorem change_subject (user room message : String) :
    Change env s (s.handleRoomSubjectChangedRequest env user room message)
      (some (env.getSessionName user room)) := by
  unfold State.handleRoomSubjectChangedRequest
  simp only
  split
  · exact .same rfl
  · rename_i old hget
    exact .kept _ old _ hget ((Session.Kept.refl old).sendCommand _) rfl

/-- The session of a join was there or is created for the room. -/
theorem joinSession_cases {user room nickname : String}
    (h : s.joinSession env user room nickname = some session) :
    s.sessions.get (env.getSessionName user room) = some session ∨
      s.sessions.get (env.getSessionName user room) = none ∧ '@' ∈ room.toList ∧
        session = (env.createSession user (after '@' room) nickname ""
          ("@" ++ after '@' room)).open := by
  unfold State.joinSession at h
  split at h
  · rename_i old hget
    exact Or.inl (hget.trans h)
  · rename_i hget
    split at h
    · rename_i hroom
      exact Or.inr ⟨hget, hroom.2, (Option.some_inj.mp h).symm⟩
    · cases h

theorem joinSession_of_some {user room : String} (nickname : String)
    (h : s.sessions.get (env.getSessionName user room) = some session) :
    s.joinSession env user room nickname = some session := by
  unfold State.joinSession
  simp only [h]

/-- The session of a room after a join. -/
def Session.joined (session : Session) (room password : String) : Session :=
  { session.sendCommand (.join (getTargetName room) password) with rooms := session.rooms + 1 }

theorem Session.kept_joined (session : Session) (room password : String) :
    session.Kept (session.joined room password) := ⟨rfl, rfl, rfl⟩

theorem sessions_join (user room nickname password : String) :
    (s.handleJoinRoomRequest env user room nickname password).sessions =
      ((s.joinSession env user room nickname).elim s.sessions fun session =>
        s.sessions.set (env.getSessionName user room) (session.joined room password)) := by
  unfold State.handleJoinRoomRequest
  split
  · rename_i hnone
    rw [hnone]
    rfl
  · rename_i session hsome
    rw [hsome]
    simp only
    split <;> rfl

theorem change_join (user room nickname password : String) :
    Change env s (s.handleJoinRoomRequest env user room nickname password)
      (some (env.getSessionName user room)) := by
  have htable : (s.handleJoinRoomRequest env user room nickname password).sessions = _ :=
    sessions_join user room nickname password
  cases hsession : s.joinSession env user room nickname with
  | none => exact .same (htable.trans (by rw [hsession]; rfl))
  | some session =>
    rw [hsession] at htable
    rcases joinSession_cases hsession with hget | ⟨-, -, rfl⟩
    · exact .kept _ session _ hget (session.kept_joined room password) htable
    · exact .created user room _ rfl rfl rfl htable

/-- The session of a room after a leave. -/
def Session.left (session : Session) (room : String) : Session :=
  { session.sendCommand (.part (getTargetName room)) with rooms := session.rooms - 1 }

theorem Session.kept_left (session : Session) (room : String) :
    session.Kept (session.left room) := ⟨rfl, rfl, rfl⟩

theorem leave_of_none {user room : String}
    (h : s.sessions.get (env.getSessionName user room) = none) :
    s.handleLeaveRoomRequest env user room = s := by
  unfold State.handleLeaveRoomRequest
  simp only [h]

/-- The last room of a server closes the session. -/
theorem leave_of_some (henv : env.Gateway) {user room : String}
    (h : s.sessions.get (env.getSessionName user room) = some session) :
    s.handleLeaveRoomRequest env user room =
      if session.rooms ≤ 1 then s.close (env.getSessionName user room)
      else s.setSession (env.getSessionName user room) (session.left room) := by
  unfold State.handleLeaveRoomRequest
  simp only [h, henv.servers, and_true]
  have hrooms : session.rooms - 1 ≤ 0 ↔ session.rooms ≤ 1 := by omega
  exact if_congr hrooms rfl rfl

theorem change_leave (henv : env.Gateway) (user room : String) :
    Change env s (s.handleLeaveRoomRequest env user room)
      (some (env.getSessionName user room)) := by
  cases hget : s.sessions.get (env.getSessionName user room) with
  | none =>
    rw [leave_of_none hget]
    exact .same rfl
  | some session =>
    rw [leave_of_some henv hget]
    split
    · exact .deleted _ rfl
    · exact .kept _ session _ hget (session.kept_left room) rfl

theorem change_logout (user : String) :
    Change env s (s.handleLogoutRequest user) (some user) := by
  unfold State.handleLogoutRequest
  split
  · exact .same rfl
  · exact .deleted user rfl

theorem change_status (user : String) (away : Bool) (statusMessage : String) :
    Change env s (s.handleStatusChangeRequest user away statusMessage) (some user) := by
  unfold State.handleStatusChangeRequest
  split
  · exact .same rfl
  · rename_i old hget
    exact .kept user old _ hget ((Session.Kept.refl old).sendCommand _) rfl

theorem change_step (henv : env.Gateway) (hs : step env s e = some s') :
    Change env s s' (e.key env) := by
  cases e with
  | message user legacyName message => exact change_message hs
  | login user legacyName password =>
    cases hs
    exact .same (sessions_login henv user legacyName password)
  | logout user =>
    cases hs
    exact change_logout user
  | subject user room message =>
    cases hs
    exact change_subject user room message
  | join user room nickname password =>
    cases hs
    exact change_join user room nickname password
  | leave user room =>
    cases hs
    exact change_leave henv user room
  | status user away statusMessage =>
    cases hs
    exact change_status user away statusMessage
  | nickChanged key nickname =>
    obtain ⟨old, hget, rfl⟩ := Option.map_eq_some_iff.mp hs
    exact .kept key old { old with nickName := nickname } hget ⟨rfl, rfl, rfl⟩ rfl
  | disconnected key =>
    obtain ⟨old, -, rfl⟩ := Option.map_eq_some_iff.mp hs
    refine .same ?_
    unfold State.tryNextServer
    split
    · split <;> rfl
    · rfl

/-- Under every other key nothing changes. -/
theorem Change.get_of_ne {k : Option String} (h : Change env s s' k) (hne : k ≠ some key) :
    s'.sessions.get key = s.sessions.get key := by
  cases h with
  | same htable => rw [htable]
  | kept k old session hget hkept htable =>
    rw [htable, SortedMap.get_set_of_ne fun heq => hne (congrArg some heq.symm)]
  | created user room session huser hhost hopen htable =>
    rw [htable, SortedMap.get_set_of_ne fun heq => hne (congrArg some heq.symm)]
  | deleted k htable =>
    rw [htable, SortedMap.get_erase_of_ne fun heq => hne (congrArg some heq.symm)]

/-- Every session is stored under its user and its server. -/
def Keyed (s : State) : Prop :=
  ∀ key session, s.sessions.get key = some session →
    key = before '/' (session.user ++ session.hostname)

theorem Keyed.change (henv : env.Gateway) (h : Keyed s) {k : Option String}
    (hchange : Change env s s' k) : Keyed s' := by
  intro key session hget
  cases hchange with
  | same htable => exact h key session (htable ▸ hget)
  | kept k old new hold hkept htable =>
    rw [htable, SortedMap.get_set] at hget
    split at hget
    · rename_i heq
      cases hget
      rw [heq, hkept.user, hkept.hostname]
      exact h k old hold
    · exact h key session hget
  | created user room new huser hhost hopen htable =>
    rw [htable, SortedMap.get_set] at hget
    split at hget
    · rename_i heq
      cases hget
      rw [heq, huser, hhost, getSessionName_of_gateway henv]
    · exact h key session hget
  | deleted k htable =>
    rw [htable, SortedMap.get_erase] at hget
    split at hget
    · cases hget
    · exact h key session hget

theorem keyed_of_run (henv : env.Gateway) {tr : List (State × Event)}
    (h : (machine env).Run tr s) : Keyed s := by
  refine Machine.Run.invariant (I := Keyed) (fun s hinit => ?_)
    (fun s e s' hs hkeyed => hkeyed.change henv (change_step henv hs)) h
  rw [hinit]
  intro key session hget
  cases hget

/-- A session that was created for an address is stored under its key. -/
theorem Keyed.eq_key (h : Keyed s) {a : Address} (hget : s.sessions.get key = some session)
    (hfor : session.CreatedFor a.user.text a.server) : key = a.key := by
  rw [h key session hget, hfor.1, before_append a.user.noSlash, hfor.2]
  rfl

end Table

/-! ## Isolation -/

section Isolation

variable {env : Env} {s : State} {e : Event} {session : Session} {a b : Address}

/-- A request that names a room looks up the session of its name. -/
theorem key_of_request {user legacyName : String} (h : e.request = some (user, legacyName)) :
    e.key env = some (env.getSessionName user legacyName) := by
  cases e <;> first | (cases h; rfl) | cases h

/-- A request that names no room looks up the JID, if anything. -/
theorem key_of_user {user : String} (hnone : e.request = none) (huser : e.user = some user) :
    e.key env = none ∨ e.key env = some user := by
  cases e with
  | login => exact Or.inl rfl
  | logout | status =>
    cases huser
    exact Or.inr rfl
  | message | subject | join | leave => cases hnone
  | nickChanged | disconnected => cases huser

theorem key_of (henv : env.Gateway) (h : e.Of a) : e.key env = some a.key := by
  obtain ⟨legacyName, hrequest, hserver⟩ := h
  rw [key_of_request hrequest, getSessionName_of_server henv hserver]

theorem lookedUp_of (henv : env.Gateway) (h : e.Of a) : e.lookedUp env s = s.sessions.get a.key := by
  rw [Event.lookedUp, key_of henv h]
  rfl

/-- The first join on a server creates its session. -/
theorem sessions_of_first_join (henv : env.Gateway) {room : String} (nickname password : String)
    (hserver : serverOf room = some a.server) (hget : s.sessions.get a.key = none) :
    ∃ session : Session, session.CreatedFor a.user.text a.server ∧ session.opened = true ∧
      session.rooms = 1 ∧
      (s.handleJoinRoomRequest env a.user.text room nickname password).sessions =
        s.sessions.set a.key session := by
  have hkey := getSessionName_of_serverOf henv hserver
  obtain ⟨hroom, hhost⟩ := serverOf_eq_some_iff.mp hserver
  have hnew : s.joinSession env a.user.text room nickname =
      some (env.createSession a.user.text (after '@' room) nickname ""
        ("@" ++ after '@' room)).open := by
    unfold State.joinSession
    rw [hkey, hget]
    exact if_pos ⟨henv.servers, hroom⟩
  refine ⟨(env.createSession a.user.text (after '@' room) nickname ""
    ("@" ++ after '@' room)).open.joined room password, ⟨rfl, hhost⟩, rfl, rfl, ?_⟩
  rw [sessions_join, hnew, hkey]
  rfl

theorem exists_run_of_join (henv : env.Gateway) (a : Address) : ∃ tr s session,
    (machine env).Run tr s ∧ s.sessions.get a.key = some session ∧
      session.CreatedFor a.user.text a.server := by
  obtain ⟨session, hfor, -, -, htable⟩ :=
    sessions_of_first_join henv (s := {}) "" "" (serverOf_room a) (SortedMap.get_empty _)
  have hrun := (Machine.Run.init (M := machine env) rfl).step
    (e := .join a.user.text ("#room@" ++ a.server) "" "") rfl
  refine ⟨_, _, session, hrun, ?_, hfor⟩
  rw [htable]
  exact SortedMap.get_set_self _ _ _

theorem of_message (a : Address) (message : String) :
    Event.Of (.message a.user.text ("#room@" ++ a.server) message) a :=
  ⟨_, rfl, (serverOf_eq_some_iff.mp (serverOf_room a)).2⟩

/-- A logout under the key of a session closes it. -/
theorem logout_closes {user : String} (hget : s.sessions.get user = some session) :
    (s.handleLogoutRequest user).sessions.get user = none := by
  unfold State.handleLogoutRequest
  rw [hget]
  exact SortedMap.get_erase_self _ _

theorem isolated_of_apart (henv : env.Gateway) (h : a.Apart b) : Isolated env a b where
  apart tr s hrun e session hof hlooked hfor := by
    rw [lookedUp_of henv hof] at hlooked
    exact h.1 (overlap_iff_key.mpr ((keyed_of_run henv hrun).eq_key hlooked hfor))
  untouched hne tr s hrun e s' hby hs key session hget hfor := by
    obtain rfl := (keyed_of_run henv hrun).eq_key hget hfor
    rw [(change_step henv hs).get_of_ne, hget]
    rcases hby with hof | ⟨hnone, huser⟩
    · rw [key_of henv hof]
      exact fun heq => h.1 (overlap_iff_key.mpr (Option.some.inj heq))
    · rcases key_of_user hnone huser with hkey | hkey
      · rw [hkey]
        exact nofun
      · rw [hkey]
        exact fun heq => h.2 hne (Option.some.inj heq)

theorem apart_of_isolated (henv : env.Gateway) (h : Isolated env a b) : a.Apart b := by
  obtain ⟨tr, s, session, hrun, hget, hfor⟩ := exists_run_of_join henv b
  constructor
  · intro hoverlap
    refine h.apart tr s hrun _ session (of_message a "") ?_ hfor
    rw [lookedUp_of henv (of_message a ""), overlap_iff_key.mp hoverlap]
    exact hget
  · intro hne heq
    rw [← heq] at hget
    have hkept := h.untouched hne tr s hrun (.logout a.user.text) _ (Or.inr ⟨rfl, rfl⟩) rfl
      a.user.text session hget hfor
    rw [logout_closes hget] at hkept
    cases hkept

/-- The requests for `a` leave the session of `b` alone exactly when the key of `a` is not the key of
`b` cut at another place and the JID of `a` is not the key of `b`. -/
theorem isolated_iff_apart (henv : env.Gateway) (a b : Address) :
    Isolated env a b ↔ a.Apart b :=
  ⟨apart_of_isolated henv, isolated_of_apart henv⟩

theorem isPrefix_iff {t t' : String} : t.toList <+: t'.toList ↔ ∃ r, t' = t ++ r := by
  constructor
  · rintro ⟨r, hr⟩
    refine ⟨String.ofList r, ?_⟩
    rw [← String.toList_inj, String.toList_append, String.toList_ofList, hr]
  · rintro ⟨r, rfl⟩
    rw [String.toList_append]
    exact List.prefix_append _ _

/-- A user can send through the connections of another one, or close them, on some server, exactly
when one of the two JIDs is a start of the other. -/
theorem isolated_users_iff (henv : env.Gateway) {u v : BareJid} :
    (∀ a b : Address, a.user = u → b.user = v → Isolated env a b) ↔
      ¬ u.text.toList <+: v.text.toList ∧ ¬ v.text.toList <+: u.text.toList := by
  constructor
  · intro h
    have hslash : ∀ (w w' : BareJid) (t : String), w'.text = w.text ++ t → '/' ∉ t.toList := by
      intro w w' t ht hmem
      refine w'.noSlash ?_
      rw [ht, String.toList_append]
      exact List.mem_append_right _ hmem
    constructor
    · intro hprefix
      obtain ⟨t, ht⟩ := isPrefix_iff.mp hprefix
      refine (apart_of_isolated henv (h ⟨u, t, hslash u v t ht⟩ ⟨v, "", by decide⟩ rfl rfl)).1 ?_
      exact ⟨t, Or.inl ⟨ht, String.append_empty.symm⟩⟩
    · intro hprefix
      obtain ⟨t, ht⟩ := isPrefix_iff.mp hprefix
      refine (apart_of_isolated henv (h ⟨u, "", by decide⟩ ⟨v, t, hslash v u t ht⟩ rfl rfl)).1 ?_
      exact ⟨t, Or.inr ⟨ht, String.append_empty.symm⟩⟩
  · rintro ⟨huv, hvu⟩ a b rfl rfl
    refine isolated_of_apart henv ⟨?_, fun _ heq => ?_⟩
    · rintro ⟨t, ⟨ht, -⟩ | ⟨ht, -⟩⟩
      · exact huv (isPrefix_iff.mpr ⟨t, ht⟩)
      · exact hvu (isPrefix_iff.mpr ⟨t, ht⟩)
    · exact hvu (isPrefix_iff.mpr ⟨b.server, heq⟩)

end Isolation

theorem gateway_default : Env.Gateway {} := ⟨rfl, rfl⟩

namespace Sample

def bobCo : Address := ⟨⟨"bob@example.co", by decide⟩, "mirc.net", by decide⟩

def bobCom : Address := ⟨⟨"bob@example.com", by decide⟩, "irc.net", by decide⟩

/-- His JID is the key of the other Bob. -/
def bobComIrc : Address := ⟨⟨"bob@example.comirc.net", by decide⟩, "irc.net", by decide⟩

def alice : Address := ⟨⟨"alice@example.com", by decide⟩, "irc.net", by decide⟩

end Sample

theorem isolated_iff_apart_alice : Sample.alice.Apart Sample.bobCom ∧
    Isolated {} Sample.alice Sample.bobCom := by
  have hapart : Sample.alice.Apart Sample.bobCom := by
    refine ⟨?_, fun _ => ?_⟩
    · rw [overlap_iff_key]
      decide +kernel
    · decide +kernel
  exact ⟨hapart, (isolated_iff_apart gateway_default Sample.alice Sample.bobCom).mpr hapart⟩

/-- A message of one Bob finds the session that was created for another one, and a third one closes
it by logging out. -/
theorem not_isolated_bobCo :
    (Sample.bobCo ≠ Sample.bobCom ∧ ∃ tr s session, (machine {}).Run tr s ∧
      Event.Of (.message "bob@example.co" "#room@mirc.net" "hi") Sample.bobCo ∧
      Event.lookedUp {} s (.message "bob@example.co" "#room@mirc.net" "hi") = some session ∧
      session.CreatedFor "bob@example.com" "irc.net") ∧
    ¬ Isolated {} Sample.bobComIrc Sample.bobCom := by
  refine ⟨⟨fun h => absurd (congrArg Address.server h) (by decide), ?_⟩, fun h => ?_⟩
  · obtain ⟨tr, s, session, hrun, hget, hfor⟩ := exists_run_of_join gateway_default Sample.bobCom
    have hof := of_message Sample.bobCo "hi"
    refine ⟨tr, s, session, hrun, hof, ?_, hfor⟩
    have hkey : Sample.bobCo.key = Sample.bobCom.key := by decide +kernel
    exact ((lookedUp_of gateway_default hof).trans (congrArg s.sessions.get hkey)).trans hget
  · have hapart := (apart_of_isolated gateway_default h).2 (by decide +kernel)
    exact hapart (by decide +kernel)

end Spectrum.Irc
