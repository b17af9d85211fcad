import Spectrum.Irc.Isolation

/-!
# How long an IRC session lives

In gateway mode a session is created by the first join on its server. It is closed by the leave that
takes its counter to zero and, where the server has no name, by a logout. The counter counts the rooms
as long as no room is joined twice and only rooms that were joined are left. The runs here are those of
the requests of one user; the rooms that he joined and has not left are recorded next to the table.
-/

namespace Spectrum.Irc

open Lib

/-- The requests of one user. -/
inductive Request
  | login (legacyName password : String)
  | logout
  | join (room nickname password : String)
  | leave (room : String)
  deriving DecidableEq, Repr

def Request.event (user : String) : Request → Event
  | .login legacyName password => .login user legacyName password
  | .logout => .logout user
  | .join room nickname password => .join user room nickname password
  | .leave room => .leave user room

/-- The plugin, whether the user is logged in, and the rooms that were joined and not left since. -/
structure Life where
  plugin : State := {}
  online : Bool := false
  joined : List String := []

namespace Life

variable (l : Life)

/-- What a request says about the user. -/
def note : Request → Life
  | .login _ _ => { l with online := true }
  | .logout => { l with online := false }
  | .join room _ _ => { l with joined := room :: l.joined }
  | .leave room => { l with joined := l.joined.filter (· ≠ room) }

def step (env : Env) (user : BareJid) (r : Request) : Option Life :=
  (Irc.step env l.plugin (r.event user.text)).map fun plugin => { l.note r with plugin }

/-- There is an open session for the user and the server. -/
def Holds (user : BareJid) (server : String) : Prop :=
  ∃ key session, l.plugin.sessions.get key = some session ∧ session.opened = true ∧
    session.CreatedFor user.text server

/-- A room on the server is joined. -/
def InRoom (server : String) : Prop := ∃ room ∈ l.joined, serverOf room = some server

/-- There are sessions exactly for the servers of the rooms of a user who is logged in. -/
def Exact (user : BareJid) : Prop :=
  ∀ server, l.Holds user server ↔ l.online = true ∧ l.InRoom server

instance (server : String) : Decidable (l.InRoom server) :=
  inferInstanceAs (Decidable (∃ room ∈ l.joined, serverOf room = some server))

/-- The rooms on the server. -/
def roomsOn (server : String) : List String :=
  l.joined.filter fun room => decide (serverOf room = some server)

end Life

def lifeMachine (env : Env) (user : BareJid) : Machine Life Request where
  init l := l = {}
  step l r := l.step env user r

/-- The condition. A login finds no room of before; a logout finds rooms on the server without a name
only; a join is for a room that is not joined, while logged in; a leave is for a room that is joined,
unless there is none on its server. A name without `@` is taken for a server, on which there is none. -/
def Orderly (l : Life) : Request → Prop
  | .login _ _ => l.online = false → ∀ room ∈ l.joined, serverOf room = none
  | .logout => l.online = true → ∀ room ∈ l.joined, ∀ server ∈ serverOf room, server = ""
  | .join room _ _ =>
    if (serverOf room).isSome then l.online = true ∧ room ∉ l.joined
    else ¬ l.InRoom (before '/' (after '@' room))
  | .leave room =>
    (serverOf room).isSome ∧ room ∈ l.joined ∨ ¬ l.InRoom (before '/' (after '@' room))

instance (l : Life) (r : Request) : Decidable (Orderly l r) :=
  match r with
  | .login _ _ => inferInstanceAs (Decidable (l.online = false → _))
  | .logout => inferInstanceAs (Decidable (l.online = true → _))
  | .join room _ _ => inferInstanceAs (Decidable (if (serverOf room).isSome then _ else _))
  | .leave _ => inferInstanceAs (Decidable (_ ∧ _ ∨ ¬ _))

/-- What keeps the sessions exact in one step: for a leave, that the counter says whether there is
another room. -/
def Fits (env : Env) (user : BareJid) (l : Life) : Request → Prop
  | .login _ _ => l.online = false → ∀ room ∈ l.joined, serverOf room = none
  | .logout => l.online = true → ∀ room ∈ l.joined, ∀ server ∈ serverOf room, server = ""
  | .join room _ _ => (serverOf room).isSome → l.online = true
  | .leave room => ∀ session ∈ l.plugin.sessions.get (env.getSessionName user.text room),
      (session.rooms ≤ 1 ↔ ¬ (l.note (.leave room)).InRoom (before '/' (after '@' room)))

/-! ## The sessions of one user -/

/-- The sessions are open and under the name of the user and their server. -/
def Own (user : BareJid) (m : SortedMap String Session) : Prop :=
  ∀ key session, m.get key = some session → session.opened = true ∧
    ∃ server, session.CreatedFor user.text server ∧ key = user.text ++ server

section Sessions

variable {user : BareJid} {l l' : Life} {m : SortedMap String Session} {session old : Session}
  {server key : String}

theorem append_server_inj {t t' : String} : user.text ++ t = user.text ++ t' ↔ t = t' := by
  rw [← String.toList_inj, String.toList_append, String.toList_append, List.append_cancel_left_eq,
    String.toList_inj]

theorem Own.set (h : Own user m) (hopen : session.opened = true)
    (hfor : session.CreatedFor user.text server) : Own user (m.set (user.text ++ server) session) := by
  intro key other hget
  rw [SortedMap.get_set] at hget
  split at hget
  · rename_i heq
    cases hget
    exact ⟨hopen, server, hfor, heq⟩
  · exact h key other hget

/-- A session that is changed keeps its user and its server. -/
theorem Own.kept (h : Own user m) (hget : m.get key = some old) (hkept : old.Kept session) :
    Own user (m.set key session) := by
  obtain ⟨hopen, server, hfor, rfl⟩ := h key old hget
  refine h.set (hkept.opened.trans hopen) ⟨hkept.user.trans hfor.1, ?_⟩
  rw [hkept.hostname]
  exact hfor.2

theorem Own.erase (h : Own user m) (key : String) : Own user (m.erase key) := by
  intro k session hget
  rw [SortedMap.get_erase] at hget
  split at hget
  · cases hget
  · exact h k session hget

theorem Own.holds_iff (h : Own user l.plugin.sessions) :
    l.Holds user server ↔ (l.plugin.sessions.get (user.text ++ server)).isSome := by
  constructor
  · rintro ⟨key, session, hget, -, hfor⟩
    obtain ⟨-, other, hother, rfl⟩ := h key session hget
    rw [← hfor.2, hother.2, hget]
    rfl
  · intro hsome
    obtain ⟨session, hget⟩ := Option.isSome_iff_exists.mp hsome
    obtain ⟨hopen, other, hother, heq⟩ := h _ session hget
    rw [append_server_inj.mp heq]
    exact ⟨_, session, hget, hopen, hother⟩

/-- Where nothing else changes, one server is to be looked at. -/
theorem exact_iff_of_others (h : l.Exact user) (honline : l'.online = l.online)
    (hholds : ∀ other, other ≠ server → (l'.Holds user other ↔ l.Holds user other))
    (hroom : ∀ other, other ≠ server → (l'.InRoom other ↔ l.InRoom other)) :
    l'.Exact user ↔ (l'.Holds user server ↔ l.online = true ∧ l'.InRoom server) := by
  constructor
  · intro hexact
    rw [← honline]
    exact hexact server
  · intro hserver other
    rw [honline]
    by_cases hother : other = server
    · rw [hother]
      exact hserver
    · rw [hholds other hother, hroom other hother]
      exact h other

end Sessions

/-! ## The requests -/

section Requests

variable {env : Env} {user : BareJid} {l l' : Life} {r : Request} {session : Session}
  {room server : String}

theorem step_eq_some (hs : l.step env user r = some l') :
    Irc.step env l.plugin (r.event user.text) = some l'.plugin ∧
      l'.online = (l.note r).online ∧ l'.joined = (l.note r).joined := by
  obtain ⟨plugin, hplugin, rfl⟩ := Option.map_eq_some_iff.mp hs
  exact ⟨hplugin, rfl, rfl⟩

theorem own_same (h : Own user l.plugin.sessions)
    (htable : l'.plugin.sessions = l.plugin.sessions) (server : String) :
    l'.Holds user server ↔ l.Holds user server := by
  have hown : Own user l'.plugin.sessions := htable ▸ h
  rw [hown.holds_iff, h.holds_iff, htable]

theorem own_erase (h : Own user l.plugin.sessions) (server : String)
    (htable : l'.plugin.sessions = l.plugin.sessions.erase (user.text ++ server)) (other : String) :
    l'.Holds user other ↔ other ≠ server ∧ l.Holds user other := by
  have hown : Own user l'.plugin.sessions := htable ▸ h.erase _
  rw [hown.holds_iff, h.holds_iff, htable, SortedMap.get_erase]
  split
  · rename_i heq
    exact ⟨fun hsome => absurd hsome Bool.false_ne_true,
      fun hne => absurd (append_server_inj.mp heq) hne.1⟩
  · rename_i hne
    exact (and_iff_right fun heq => hne (append_server_inj.mpr heq)).symm

theorem own_set (h : Own user l.plugin.sessions)
    (hown : Own user l'.plugin.sessions)
    (htable : l'.plugin.sessions = l.plugin.sessions.set (user.text ++ server) session)
    (other : String) : l'.Holds user other ↔ other = server ∨ l.Holds user other := by
  rw [hown.holds_iff, h.holds_iff, htable, SortedMap.get_set]
  split
  · rename_i heq
    exact ⟨fun _ => Or.inl (append_server_inj.mp heq), fun _ => rfl⟩
  · rename_i hne
    exact (or_iff_right fun heq => hne (append_server_inj.mpr heq)).symm

theorem exact_login (h : l.Exact user) (honline : l'.online = true)
    (hholds : ∀ server, l'.Holds user server ↔ l.Holds user server) (hjoined : l'.joined = l.joined) :
    l'.Exact user ↔ (l.online = false → ∀ room ∈ l.joined, serverOf room = none) := by
  have hroom : ∀ server, l'.InRoom server ↔ l.InRoom server := by
    intro server
    rw [Life.InRoom, hjoined]
    rfl
  cases hl : l.online with
  | true =>
    constructor
    · intro _ hoff
      cases hoff
    · intro _ server
      rw [hholds, hroom, h server, honline, hl]
  | false =>
    have hnone : ∀ server, ¬ l.Holds user server := by
      intro server hhold
      have hon := ((h server).mp hhold).1
      rw [hl] at hon
      cases hon
    constructor
    · intro hexact _ room hmem
      refine Option.eq_none_iff_forall_ne_some.mpr fun server heq => ?_
      have hhold := (hexact server).mpr ⟨honline, (hroom server).mpr ⟨room, hmem, heq⟩⟩
      exact hnone server ((hholds server).mp hhold)
    · intro hempty server
      rw [hholds, hroom]
      refine iff_of_false (hnone server) ?_
      rintro ⟨-, room, hmem, heq⟩
      rw [hempty rfl room hmem] at heq
      cases heq

theorem exact_logout (h : l.Exact user) (honline : l'.online = false)
    (hholds : ∀ server, l'.Holds user server ↔ server ≠ "" ∧ l.Holds user server) :
    l'.Exact user ↔
      (l.online = true → ∀ room ∈ l.joined, ∀ server ∈ serverOf room, server = "") := by
  constructor
  · intro hexact hl room hmem server hserver
    by_contra hne
    have hhold := (hholds server).mpr ⟨hne, (h server).mpr ⟨hl, room, hmem, hserver⟩⟩
    have hon := ((hexact server).mp hhold).1
    rw [honline] at hon
    cases hon
  · intro hnames server
    rw [hholds, honline]
    refine iff_of_false ?_ fun hon => absurd hon.1 Bool.false_ne_true
    rintro ⟨hne, hhold⟩
    obtain ⟨hl, room, hmem, hserver⟩ := (h server).mp hhold
    exact hne (hnames hl room hmem server hserver)

theorem exact_of_login (henv : env.Gateway) (hown : Own user l.plugin.sessions) (h : l.Exact user)
    {legacyName password : String} (hs : l.step env user (.login legacyName password) = some l') :
    Own user l'.plugin.sessions ∧
      (l'.Exact user ↔ Fits env user l (.login legacyName password)) := by
  obtain ⟨hplugin, honline, hjoined⟩ := step_eq_some hs
  have htable : l'.plugin.sessions = l.plugin.sessions := by
    rw [← Option.some_inj.mp hplugin]
    exact sessions_login henv user.text legacyName password
  exact ⟨htable ▸ hown, exact_login h honline (own_same hown htable) hjoined⟩

theorem sessions_logout (plugin : State) (user : String) :
    (plugin.handleLogoutRequest user).sessions = plugin.sessions ∧
        plugin.sessions.get user = none ∨
      (plugin.handleLogoutRequest user).sessions = plugin.sessions.erase user := by
  unfold State.handleLogoutRequest
  cases hget : plugin.sessions.get user with
  | none => exact Or.inl ⟨rfl, rfl⟩
  | some session => exact Or.inr rfl

/-- The key of a logout is the one of a server without a name. -/
theorem exact_of_logout (hown : Own user l.plugin.sessions) (h : l.Exact user)
    (hs : l.step env user .logout = some l') :
    Own user l'.plugin.sessions ∧ (l'.Exact user ↔ Fits env user l .logout) := by
  obtain ⟨hplugin, honline, -⟩ := step_eq_some hs
  rcases sessions_logout l.plugin user.text with ⟨htable, hget⟩ | htable
  · rw [Option.some_inj.mp hplugin] at htable
    refine ⟨htable ▸ hown, exact_logout h honline fun server => ?_⟩
    rw [own_same hown htable]
    refine (and_iff_right_of_imp fun hhold => ?_).symm
    rintro rfl
    have hsome := hown.holds_iff.mp hhold
    rw [String.append_empty, hget] at hsome
    cases hsome
  · rw [Option.some_inj.mp hplugin] at htable
    have herase : l'.plugin.sessions = l.plugin.sessions.erase (user.text ++ "") := by
      rw [htable, String.append_empty]
    exact ⟨htable ▸ hown.erase _, exact_logout h honline (own_erase hown "" herase)⟩

/-- A join leaves the other servers alone. -/
theorem inRoom_join {nickname password : String}
    (hjoined : l'.joined = (l.note (.join room nickname password)).joined) (server : String) :
    l'.InRoom server ↔ serverOf room = some server ∨ l.InRoom server := by
  simp only [Life.InRoom, hjoined, Life.note, List.mem_cons, exists_eq_or_imp]

theorem inRoom_leave (hne : serverOf room ≠ some server) :
    (l.note (.leave room)).InRoom server ↔ l.InRoom server := by
  constructor
  · rintro ⟨other, hmem, hserver⟩
    exact ⟨other, (List.mem_filter.mp hmem).1, hserver⟩
  · rintro ⟨other, hmem, hserver⟩
    refine ⟨other, List.mem_filter.mpr ⟨hmem, decide_eq_true ?_⟩, hserver⟩
    rintro rfl
    exact hne hserver

/-- A join of a room whose name has no server changes a counter at most. -/
theorem exact_of_join_none (hown : Own user l.plugin.sessions) (h : l.Exact user)
    (hserver : serverOf room = none) {nickname password : String}
    (hs : l.step env user (.join room nickname password) = some l') :
    Own user l'.plugin.sessions ∧ l'.Exact user := by
  obtain ⟨hplugin, honline, hjoined⟩ := step_eq_some hs
  have htable : l'.plugin.sessions = _ :=
    (congrArg State.sessions (Option.some_inj.mp hplugin)).symm.trans
      (sessions_join user.text room nickname password)
  have hroom : ∀ server, l'.InRoom server ↔ l.InRoom server := by
    intro server
    rw [inRoom_join hjoined, hserver]
    exact or_iff_right (Option.some_ne_none server).symm
  suffices Own user l'.plugin.sessions ∧ ∀ server, l'.Holds user server ↔ l.Holds user server by
    refine ⟨this.1, fun server => ?_⟩
    rw [this.2, hroom, honline]
    exact h server
  cases hsession : l.plugin.joinSession env user.text room nickname with
  | none =>
    rw [hsession] at htable
    exact ⟨htable ▸ hown, own_same hown htable⟩
  | some session =>
    rw [hsession] at htable
    rcases joinSession_cases hsession with hget | ⟨-, hmem, -⟩
    · obtain ⟨-, server, -, hkey⟩ := hown _ session hget
      have hown' := hown.kept hget (session.kept_joined room password)
      rw [hkey] at hget hown' htable
      refine ⟨htable ▸ hown', fun other => ?_⟩
      rw [own_set hown (htable ▸ hown') htable]
      refine or_iff_right_of_imp fun heq => hown.holds_iff.mpr ?_
      rw [heq, hget]
      rfl
    · rw [serverOf, if_pos hmem] at hserver
      cases hserver

/-- A join of a room on a server ends with a session for the server. -/
theorem exact_of_join_some (henv : env.Gateway) (hown : Own user l.plugin.sessions)
    (h : l.Exact user) (hserver : serverOf room = some server) {nickname password : String}
    (hs : l.step env user (.join room nickname password) = some l') :
    Own user l'.plugin.sessions ∧ (l'.Exact user ↔ l.online = true) := by
  obtain ⟨hplugin, honline, hjoined⟩ := step_eq_some hs
  have hnoslash : '/' ∉ server.toList := by
    rw [← (serverOf_eq_some_iff.mp hserver).2]
    exact not_mem_before '/' _
  have hset : ∃ session, Own user l'.plugin.sessions ∧
      l'.plugin.sessions = l.plugin.sessions.set (user.text ++ server) session := by
    rw [← Option.some_inj.mp hplugin]
    have hkey := getSessionName_of_serverOf (a := ⟨user, server, hnoslash⟩) henv hserver
    cases hget : l.plugin.sessions.get (user.text ++ server) with
    | none =>
      obtain ⟨session, hfor, hopen, -, htable⟩ :=
        sessions_of_first_join (a := ⟨user, server, hnoslash⟩) henv nickname password hserver hget
      rw [htable]
      exact ⟨session, hown.set hopen hfor, rfl⟩
    | some session =>
      have hsome : l.plugin.joinSession env user.text room nickname = some session :=
        joinSession_of_some nickname (hkey ▸ hget)
      rw [sessions_join, hsome, hkey]
      exact ⟨_, hown.kept hget (session.kept_joined room password), rfl⟩
  obtain ⟨session, hown', htable⟩ := hset
  have hat : l'.Exact user ↔ (l'.Holds user server ↔ l.online = true ∧ l'.InRoom server) := by
    refine exact_iff_of_others h honline (fun other hother => ?_) fun other hother => ?_
    · rw [own_set hown hown' htable]
      exact or_iff_right hother
    · rw [inRoom_join hjoined, hserver]
      exact or_iff_right fun heq => hother (Option.some_inj.mp heq).symm
  refine ⟨hown', hat.trans ?_⟩
  rw [own_set hown hown' htable, inRoom_join hjoined, hserver]
  simp only [true_or, and_true, true_iff]

/-- A leave leaves the other servers alone. -/
theorem inRoom_leave_other (hjoined : l'.joined = (l.note (.leave room)).joined) {other : String}
    (hother : other ≠ before '/' (after '@' room)) : l'.InRoom other ↔ l.InRoom other := by
  have hne : serverOf room ≠ some other := fun heq => hother (serverOf_eq_some_iff.mp heq).2.symm
  have hroom : l'.InRoom other ↔ (l.note (.leave room)).InRoom other := by
    rw [Life.InRoom, hjoined]
    rfl
  exact hroom.trans (inRoom_leave hne)

theorem exact_of_leave_none (hown : Own user l.plugin.sessions) (h : l.Exact user)
    (honline : l'.online = l.online) (hjoined : l'.joined = (l.note (.leave room)).joined)
    (htable : l'.plugin.sessions = l.plugin.sessions)
    (hget : l.plugin.sessions.get (user.text ++ before '/' (after '@' room)) = none) :
    l'.Exact user := by
  have hnone : ¬ l.Holds user (before '/' (after '@' room)) := by
    rw [hown.holds_iff, hget]
    exact Bool.false_ne_true
  refine (exact_iff_of_others h honline (fun other _ => own_same hown htable other)
    fun other hother => inRoom_leave_other hjoined hother).mpr ?_
  rw [own_same hown htable]
  refine iff_of_false hnone ?_
  rintro ⟨hon, other, hmem, heq⟩
  rw [hjoined] at hmem
  exact hnone ((h _).mpr ⟨hon, other, (List.mem_filter.mp hmem).1, heq⟩)

/-- The counter takes the place of the rooms that are left. -/
theorem exact_of_leave_some (hown : Own user l.plugin.sessions) (h : l.Exact user)
    (honline : l'.online = l.online) (hjoined : l'.joined = (l.note (.leave room)).joined)
    (hget : l.plugin.sessions.get (user.text ++ before '/' (after '@' room)) = some session)
    (htable : l'.plugin.sessions =
      if session.rooms ≤ 1 then l.plugin.sessions.erase (user.text ++ before '/' (after '@' room))
      else l.plugin.sessions.set (user.text ++ before '/' (after '@' room)) (session.left room)) :
    Own user l'.plugin.sessions ∧ (l'.Exact user ↔
      (session.rooms ≤ 1 ↔ ¬ (l.note (.leave room)).InRoom (before '/' (after '@' room)))) := by
  have hold : l.Holds user (before '/' (after '@' room)) := by
    rw [hown.holds_iff, hget]
    rfl
  have hon : l.online = true := ((h _).mp hold).1
  have hroom : l'.InRoom (before '/' (after '@' room)) ↔
      (l.note (.leave room)).InRoom (before '/' (after '@' room)) := by
    rw [Life.InRoom, hjoined]
    rfl
  have hother : ∀ other, other ≠ before '/' (after '@' room) →
      (l'.InRoom other ↔ l.InRoom other) := fun other hother => inRoom_leave_other hjoined hother
  by_cases hrooms : session.rooms ≤ 1
  · rw [if_pos hrooms] at htable
    refine ⟨htable ▸ hown.erase _, (exact_iff_of_others h honline (fun other hne => ?_)
      hother).trans ?_⟩
    · rw [own_erase hown _ htable]
      exact and_iff_right hne
    · rw [own_erase hown _ htable, hroom, hon]
      simp [hrooms]
  · rw [if_neg hrooms] at htable
    have hown' : Own user l'.plugin.sessions := htable ▸ hown.kept hget (session.kept_left room)
    refine ⟨hown', (exact_iff_of_others h honline (fun other hne => ?_) hother).trans ?_⟩
    · rw [own_set hown hown' htable]
      exact or_iff_right hne
    · rw [own_set hown hown' htable, hroom, hon]
      simp [hrooms]

theorem exact_of_leave (henv : env.Gateway) (hown : Own user l.plugin.sessions) (h : l.Exact user)
    (hs : l.step env user (.leave room) = some l') :
    Own user l'.plugin.sessions ∧ (l'.Exact user ↔ Fits env user l (.leave room)) := by
  obtain ⟨hplugin, honline, hjoined⟩ := step_eq_some hs
  have hplugin : l.plugin.handleLeaveRoomRequest env user.text room = l'.plugin :=
    Option.some_inj.mp hplugin
  have hkey := getSessionName_bareJid henv user room
  rw [Fits, hkey]
  cases hget : l.plugin.sessions.get (user.text ++ before '/' (after '@' room)) with
  | none =>
    have htable : l'.plugin.sessions = l.plugin.sessions := by
      rw [← hplugin, leave_of_none (hkey ▸ hget)]
    refine ⟨htable ▸ hown, iff_of_true ?_ fun session hsession => ?_⟩
    · exact exact_of_leave_none hown h honline hjoined htable hget
    · cases hsession
  | some session =>
    simp only [Option.mem_some, forall_eq']
    refine exact_of_leave_some hown h honline hjoined hget ?_
    rw [← hplugin, leave_of_some henv (hkey ▸ hget), hkey]
    split <;> rfl

/-- A request that fits keeps the sessions exact, and no other one does. -/
theorem exact_iff_of_step (henv : env.Gateway) (hown : Own user l.plugin.sessions)
    (h : l.Exact user) (hs : l.step env user r = some l') :
    Own user l'.plugin.sessions ∧ (l'.Exact user ↔ Fits env user l r) := by
  cases r with
  | login legacyName password => exact exact_of_login henv hown h hs
  | logout => exact exact_of_logout hown h hs
  | leave room => exact exact_of_leave henv hown h hs
  | join room nickname password =>
    cases hserver : serverOf room with
    | none =>
      obtain ⟨hown', hexact⟩ := exact_of_join_none hown h hserver hs
      refine ⟨hown', iff_of_true hexact fun hsome => ?_⟩
      rw [hserver] at hsome
      cases hsome
    | some server =>
      obtain ⟨hown', hexact⟩ := exact_of_join_some henv hown h hserver hs
      refine ⟨hown', hexact.trans ?_⟩
      rw [Fits, hserver]
      simp only [Option.isSome_some, true_imp_iff]

end Requests

/-! ## The counter -/

/-- The counter of a session is the number of rooms on its server, which are all different. -/
structure Counted (user : BareJid) (l : Life) : Prop where
  rooms : ∀ server session, l.plugin.sessions.get (user.text ++ server) = some session →
    session.rooms = (l.roomsOn server).length
  nodup : ∀ server, (l.roomsOn server).Nodup

section Counter

variable {env : Env} {user : BareJid} {l l' : Life} {r : Request} {session : Session}
  {room server : String}

theorem mem_roomsOn : room ∈ l.roomsOn server ↔ room ∈ l.joined ∧ serverOf room = some server := by
  simp [Life.roomsOn]

theorem inRoom_iff : l.InRoom server ↔ l.roomsOn server ≠ [] := by
  rw [Ne, List.eq_nil_iff_forall_not_mem, not_forall_not]
  exact exists_congr fun room => mem_roomsOn.symm

/-- Without a room on the server there is no session for it. -/
theorem get_none_of_exact (hown : Own user l.plugin.sessions) (h : l.Exact user)
    (hnone : ¬ l.InRoom server) : l.plugin.sessions.get (user.text ++ server) = none := by
  rw [← Option.not_isSome_iff_eq_none, ← hown.holds_iff, h server]
  exact fun hon => hnone hon.2

/-- The sessions and the rooms stay, except for sessions that are closed. -/
theorem Counted.same (h : Counted user l)
    (hsub : ∀ key session, l'.plugin.sessions.get key = some session →
      l.plugin.sessions.get key = some session)
    (hrooms : ∀ server, l'.roomsOn server = l.roomsOn server) : Counted user l' where
  rooms server session hget := by
    rw [hrooms]
    exact h.rooms server session (hsub _ session hget)
  nodup server := by
    rw [hrooms]
    exact h.nodup server

theorem counted_logout (h : Counted user l) (hs : l.step env user .logout = some l') :
    Counted user l' := by
  obtain ⟨hplugin, -, hjoined⟩ := step_eq_some hs
  refine h.same (fun key session hget => ?_) fun server => by rw [Life.roomsOn, hjoined]; rfl
  rw [← Option.some_inj.mp hplugin] at hget
  rcases sessions_logout l.plugin user.text with ⟨htable, -⟩ | htable
  · rwa [htable] at hget
  · rw [htable, SortedMap.get_erase] at hget
    split at hget
    · cases hget
    · exact hget

/-- A room that is joined is one more on its server. -/
theorem roomsOn_join {nickname password : String}
    (hjoined : l'.joined = (l.note (.join room nickname password)).joined) (server : String) :
    l'.roomsOn server =
      if serverOf room = some server then room :: l.roomsOn server else l.roomsOn server := by
  rw [Life.roomsOn, hjoined]
  by_cases hserver : serverOf room = some server
  · rw [if_pos hserver]
    exact List.filter_cons_of_pos (by simpa using hserver)
  · rw [if_neg hserver]
    exact List.filter_cons_of_neg (by simpa using hserver)

/-- Without a server in the name of the room, and without a session under it, none is created. -/
theorem joinSession_of_no_server (henv : env.Gateway) (hown : Own user l.plugin.sessions)
    (h : l.Exact user) {nickname : String} (hserver : serverOf room = none)
    (hnone : ¬ l.InRoom (before '/' (after '@' room))) :
    l.plugin.joinSession env user.text room nickname = none := by
  have hget := get_none_of_exact hown h hnone
  have hat : '@' ∉ room.toList := by
    intro hmem
    rw [serverOf, if_pos hmem] at hserver
    cases hserver
  unfold State.joinSession
  rw [getSessionName_bareJid henv user room, hget]
  exact if_neg fun hroom => hat hroom.2

/-- Afterwards the session of the server counts one room more. -/
theorem exists_joined_session (henv : env.Gateway) (hown : Own user l.plugin.sessions)
    (h : l.Exact user) (hcounted : Counted user l) {nickname password : String}
    (hserver : serverOf room = some server) (honline : l.online = true)
    (hs : l.step env user (.join room nickname password) = some l') :
    ∃ session : Session, session.rooms = (l.roomsOn server).length + 1 ∧
      l'.plugin.sessions = l.plugin.sessions.set (user.text ++ server) session := by
  obtain ⟨hplugin, -, -⟩ := step_eq_some hs
  have hname : before '/' (after '@' room) = server := (serverOf_eq_some_iff.mp hserver).2
  have hkey := getSessionName_bareJid henv user room
  rw [hname] at hkey
  have hnoslash : '/' ∉ server.toList := by
    rw [← hname]
    exact not_mem_before '/' _
  cases hget : l.plugin.sessions.get (user.text ++ server) with
  | none =>
    obtain ⟨session, -, -, hone, hnew⟩ := sessions_of_first_join
      (a := ⟨user, server, hnoslash⟩) henv nickname password hserver hget
    have hempty : l.roomsOn server = [] := by
      by_contra hne
      have hsome := hown.holds_iff.mp ((h server).mpr ⟨honline, inRoom_iff.mpr hne⟩)
      rw [hget] at hsome
      cases hsome
    refine ⟨session, ?_, ?_⟩
    · rw [hone, hempty]
      rfl
    · rw [← Option.some_inj.mp hplugin]
      exact hnew
  | some session =>
    have hsome : l.plugin.joinSession env user.text room nickname = some session :=
      joinSession_of_some nickname (hkey ▸ hget)
    have htable : l'.plugin.sessions = _ :=
      (congrArg State.sessions (Option.some_inj.mp hplugin)).symm.trans
        (sessions_join user.text room nickname password)
    rw [hsome, hkey] at htable
    refine ⟨session.joined room password, ?_, htable⟩
    change session.rooms + 1 = _
    rw [hcounted.rooms server session hget]

theorem counted_join (henv : env.Gateway) (hown : Own user l.plugin.sessions) (h : l.Exact user)
    (hcounted : Counted user l) {nickname password : String}
    (horderly : Orderly l (.join room nickname password))
    (hs : l.step env user (.join room nickname password) = some l') : Counted user l' := by
  obtain ⟨hplugin, -, hjoined⟩ := step_eq_some hs
  have hrooms := roomsOn_join hjoined
  cases hserver : serverOf room with
  | none =>
    simp only [Orderly, hserver, Option.isSome_none, Bool.false_eq_true, if_false] at horderly
    have htable : l'.plugin.sessions = _ :=
      (congrArg State.sessions (Option.some_inj.mp hplugin)).symm.trans
        (sessions_join user.text room nickname password)
    rw [joinSession_of_no_server henv hown h hserver horderly, Option.elim_none] at htable
    refine hcounted.same (fun key session hsome => htable ▸ hsome) fun server => ?_
    rw [hrooms, hserver, if_neg (Option.some_ne_none server).symm]
  | some server =>
    simp only [Orderly, hserver, Option.isSome_some, if_true] at horderly
    obtain ⟨session, hcount, htable⟩ :=
      exists_joined_session henv hown h hcounted hserver horderly.1 hs
    constructor
    · intro other found hget
      rw [htable, SortedMap.get_set] at hget
      rw [hrooms, hserver]
      split at hget
      · rename_i heq
        cases hget
        rw [append_server_inj.mp heq, if_pos rfl, hcount, List.length_cons]
        rfl
      · rename_i hne
        rw [if_neg fun heq => hne (append_server_inj.mpr (Option.some.inj heq).symm)]
        exact hcounted.rooms other found hget
    · intro other
      rw [hrooms, hserver]
      split
      · refine List.nodup_cons.mpr ⟨fun hmem => ?_, hcounted.nodup other⟩
        exact horderly.2 (mem_roomsOn.mp hmem).1
      · exact hcounted.nodup other

/-- A room that is left is one less on its server. -/
theorem roomsOn_leave (hjoined : l'.joined = (l.note (.leave room)).joined) (server : String) :
    l'.roomsOn server = (l.roomsOn server).filter (· ≠ room) := by
  rw [Life.roomsOn, hjoined]
  exact List.filter_comm ..

theorem roomsOn_leave_of_not_mem (hjoined : l'.joined = (l.note (.leave room)).joined)
    (hnot : room ∉ l.roomsOn server) : l'.roomsOn server = l.roomsOn server := by
  rw [roomsOn_leave hjoined, List.filter_eq_self]
  intro other hmem
  refine decide_eq_true ?_
  rintro rfl
  exact hnot hmem

theorem length_roomsOn_leave (hjoined : l'.joined = (l.note (.leave room)).joined)
    (hnodup : (l.roomsOn server).Nodup) (hmem : room ∈ l.roomsOn server) :
    (l'.roomsOn server).length + 1 = (l.roomsOn server).length := by
  have herase : (l.roomsOn server).filter (· ≠ room) = (l.roomsOn server).erase room := by
    rw [hnodup.erase_eq_filter room]
    exact List.filter_congr fun other _ => by simp [bne, BEq.beq]
  rw [roomsOn_leave hjoined, herase, List.length_erase_of_mem hmem]
  have hpos := List.length_pos_of_mem hmem
  omega

/-- A leave that is in order is for a room on its server, or there is no session. -/
theorem leave_cases (hown : Own user l.plugin.sessions) (h : l.Exact user)
    (horderly : Orderly l (.leave room)) :
    room ∈ l.roomsOn (before '/' (after '@' room)) ∨
      ¬ l.InRoom (before '/' (after '@' room)) ∧
        l.plugin.sessions.get (user.text ++ before '/' (after '@' room)) = none := by
  rcases horderly with ⟨hsome, hmem⟩ | hnone
  · obtain ⟨server, hserver⟩ := Option.isSome_iff_exists.mp hsome
    rw [(serverOf_eq_some_iff.mp hserver).2]
    exact Or.inl (mem_roomsOn.mpr ⟨hmem, hserver⟩)
  · exact Or.inr ⟨hnone, get_none_of_exact hown h hnone⟩

theorem counted_leave (henv : env.Gateway) (hown : Own user l.plugin.sessions) (h : l.Exact user)
    (hcounted : Counted user l) (horderly : Orderly l (.leave room))
    (hs : l.step env user (.leave room) = some l') : Counted user l' := by
  obtain ⟨hplugin, -, hjoined⟩ := step_eq_some hs
  have hplugin : l.plugin.handleLeaveRoomRequest env user.text room = l'.plugin :=
    Option.some_inj.mp hplugin
  have hkey := getSessionName_bareJid henv user room
  have hother : ∀ other, other ≠ before '/' (after '@' room) →
      l'.roomsOn other = l.roomsOn other := by
    intro other hne
    refine roomsOn_leave_of_not_mem hjoined fun hmem => hne ?_
    exact (serverOf_eq_some_iff.mp (mem_roomsOn.mp hmem).2).2.symm
  have hnodup : ∀ other, (l'.roomsOn other).Nodup := by
    intro other
    rw [roomsOn_leave hjoined]
    exact (hcounted.nodup other).filter _
  cases hget : l.plugin.sessions.get (user.text ++ before '/' (after '@' room)) with
  | none =>
    have htable : l'.plugin.sessions = l.plugin.sessions := by
      rw [← hplugin, leave_of_none (hkey ▸ hget)]
    refine ⟨fun other session hsome => ?_, hnodup⟩
    rw [htable] at hsome
    rw [hother other]
    · exact hcounted.rooms other session hsome
    · rintro rfl
      rw [hget] at hsome
      cases hsome
  | some session =>
    rcases leave_cases hown h horderly with hmem | ⟨-, hnone⟩
    · have hlength := length_roomsOn_leave hjoined (hcounted.nodup _) hmem
      have hrooms := hcounted.rooms _ session hget
      have hleave := leave_of_some henv (hkey ▸ hget)
      rw [hplugin, hkey] at hleave
      refine ⟨fun other found hsome => ?_, hnodup⟩
      rw [hleave] at hsome
      split at hsome
      · rw [sessions_close, SortedMap.get_erase] at hsome
        split at hsome
        · cases hsome
        · rename_i hne
          rw [hother other fun heq => hne (append_server_inj.mpr heq)]
          exact hcounted.rooms other found hsome
      · rw [sessions_setSession, SortedMap.get_set] at hsome
        split at hsome
        · rename_i heq
          cases hsome
          rw [append_server_inj.mp heq]
          change session.rooms - 1 = _
          omega
        · rename_i hne
          rw [hother other fun heq => hne (append_server_inj.mpr heq)]
          exact hcounted.rooms other found hsome
    · rw [hget] at hnone
      cases hnone

theorem counted_step (henv : env.Gateway) (hown : Own user l.plugin.sessions) (h : l.Exact user)
    (hcounted : Counted user l) (horderly : Orderly l r) (hs : l.step env user r = some l') :
    Counted user l' := by
  cases r with
  | login legacyName password =>
    obtain ⟨hplugin, -, hjoined⟩ := step_eq_some hs
    refine hcounted.same (fun key session hget => ?_) fun server => by rw [Life.roomsOn, hjoined]; rfl
    rw [← Option.some_inj.mp hplugin] at hget
    rw [← hget]
    exact congrArg (SortedMap.get · key) (sessions_login henv user.text legacyName password).symm
  | logout => exact counted_logout hcounted hs
  | join room nickname password => exact counted_join henv hown h hcounted horderly hs
  | leave room => exact counted_leave henv hown h hcounted horderly hs

/-- Where the counter counts the rooms, a request that is in order fits. -/
theorem fits_of_orderly (henv : env.Gateway) (hown : Own user l.plugin.sessions) (h : l.Exact user)
    (hcounted : Counted user l) (horderly : Orderly l r) : Fits env user l r := by
  cases r with
  | login legacyName password => exact horderly
  | logout => exact horderly
  | join room nickname password =>
    intro hsome
    simp only [Orderly, hsome, if_true] at horderly
    exact horderly.1
  | leave room =>
    intro session hget
    rw [getSessionName_bareJid henv] at hget
    rcases leave_cases hown h horderly with hmem | ⟨-, hnone⟩
    · have hjoined : (l.note (.leave room)).joined = (l.note (.leave room)).joined := rfl
      have hlength := length_roomsOn_leave hjoined (hcounted.nodup _) hmem
      have hrooms := hcounted.rooms _ session hget
      rw [inRoom_iff, not_not, ← List.length_eq_zero_iff]
      omega
    · rw [hget] at hnone
      cases hnone

end Counter

/-- In every run of requests that are all in order, there are sessions exactly for the servers of the
joined rooms of a user who is logged in, in every state. -/
theorem exact_of_orderly {env : Env} (henv : env.Gateway) {user : BareJid}
    {tr : List (Life × Request)} {l : Life} (h : (lifeMachine env user).Run tr l)
    (horderly : Machine.Meets Orderly tr) : Machine.Always (Life.Exact · user) tr l := by
  refine (h.always_of_steps
    (I := fun l => Own user l.plugin.sessions ∧ l.Exact user ∧ Counted user l)
    (fun l hinit => ?_) (fun l r l' hs hl hr => ?_) horderly).mono fun l hl => hl.2.1
  · rw [hinit]
    refine ⟨?_, fun server => ?_, ?_, fun server => List.nodup_nil⟩
    · intro key session hget
      cases hget
    · refine iff_of_false ?_ fun hon => absurd hon.1 Bool.false_ne_true
      rintro ⟨key, session, hget, -⟩
      cases hget
    · intro server session hget
      cases hget
  · obtain ⟨hown, hexact, hcounted⟩ := hl
    obtain ⟨hown', hiff⟩ := exact_iff_of_step henv hown hexact hs
    exact ⟨hown', hiff.mpr (fits_of_orderly henv hown hexact hcounted hr),
      counted_step henv hown hexact hcounted hr hs⟩

namespace Sample

def romeo : BareJid := ⟨"romeo@example.com", by decide⟩

/-- Two rooms of one server, which are left before the logout. -/
def visit : List Request :=
  [.login "" "", .join "#a@irc.net" "romeo" "", .join "#b@irc.net" "romeo" "", .leave "#a@irc.net",
    .leave "#b@irc.net", .logout]

/-- A logout from a room. -/
def flight : List Request := [.login "" "", .join "#a@irc.net" "romeo" "", .logout]

end Sample

theorem exact_of_orderly_visit : ∃ tr l, (lifeMachine {} Sample.romeo).Run tr l ∧
    Machine.Always (Life.Exact · Sample.romeo) tr l := by
  have hexec : (((lifeMachine {} Sample.romeo).restrict Orderly).exec {}
      Sample.visit).isSome = true := by
    decide +kernel
  obtain ⟨l, hl⟩ := Option.isSome_iff_exists.mp hexec
  obtain ⟨tr, hrun, hmeets⟩ := Machine.exists_run_of_restrict rfl hl
  exact ⟨tr, l, hrun, exact_of_orderly gateway_default hrun hmeets⟩

/-- The session outlives the logout. -/
theorem not_exact_of_flight : ∃ tr l, (lifeMachine {} Sample.romeo).Run tr l ∧
    ¬ l.Exact Sample.romeo := by
  have hexec : ((lifeMachine {} Sample.romeo).exec {} Sample.flight).any (fun l => !l.online &&
      (l.plugin.sessions.get "romeo@example.comirc.net").any fun session =>
        session.opened && decide (session.CreatedFor "romeo@example.com" "irc.net")) = true := by
    decide +kernel
  obtain ⟨l, hl, hopen⟩ := (Option.any_eq_true _ _).mp hexec
  obtain ⟨tr, hrun, -⟩ := Machine.exists_run_of_exec rfl hl
  obtain ⟨hoff, hsession⟩ := Bool.and_eq_true_iff.mp hopen
  obtain ⟨session, hget, hfor⟩ := (Option.any_eq_true _ _).mp hsession
  obtain ⟨hopened, hcreated⟩ := Bool.and_eq_true_iff.mp hfor
  refine ⟨tr, l, hrun, fun hexact => ?_⟩
  have hon := ((hexact "irc.net").mp ⟨_, session, hget, hopened, of_decide_eq_true hcreated⟩).1
  rw [hon] at hoff
  cases hoff

end Spectrum.Irc
