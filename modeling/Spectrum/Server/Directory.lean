import Spectrum.Lib.Machine
import Spectrum.Lib.SortedMap
import Spectrum.Lib.Text
import Spectrum.Model.Stanza

/-!
# The directory of the rooms

The rooms that the backends list, for one user or for everyone, as `DiscoItemsResponder` and
`DiscoInfoResponder` answer for them. `DiscoInfoResponder` keeps the public rooms a second time, in a map
by their JIDs in lower case.

* `directory_of_run`: what is answered to everyone, as it is known from the history;
* `listed_of_run`: a room that is listed is a room when its JID is asked.
-/

namespace Spectrum.Directory

open Lib

/-- `Swift::DiscoItems::Item` without a node. -/
structure Item where
  name : String
  jid : Jid
  deriving DecidableEq, Repr

/-- The configuration and the functions on texts: `Swift::JID` of a text, `getEscapedNode` and
`boost::algorithm::to_lower`. -/
structure Env where
  jid : String
  maxRoomListSize : Int := 100
  parseJid : String → Jid
  escapedNode : String → String
  toLower : String → String
  commands : List Item := []

/-- The lists of the users, and the public list of both responders. -/
structure State where
  users : SortedMap String (List Item) := .empty
  rooms : List Item := []
  names : SortedMap String String := {}

section

variable (env : Env)

/-- The handle and the name of a room as a backend lists it. -/
def handleOf (room : String × String) : String × String :=
  (env.escapedNode room.1 ++ "@" ++ env.jid, room.2)

def itemOf (room : String × String) : Item := ⟨room.2, env.parseJid room.1⟩

namespace State

variable (d : State)

/-- `DiscoItemsResponder::addRoom`, with `DiscoInfoResponder::addRoom`. -/
def addRoom (room : String × String) : State :=
  if (d.rooms.length : Int) > env.maxRoomListSize then d
  else { d with
    rooms := d.rooms ++ [itemOf env room]
    names := d.names.set (env.toLower room.1) room.2 }

def clearRooms : State := { d with rooms := [], names := {} }

/-- `handleRoomListPayload`. The loop ends with the shorter one of the two lists. -/
def handleRoomListPayload (user : String) (rooms names : List String) : State :=
  let list := (rooms.zip names).map (handleOf env)
  if user ≠ "" then
    (d.users.get user).elim d fun _ =>
      { d with users := d.users.set user (list.map (itemOf env)) }
  else list.foldl (addRoom env) d.clearRooms

/-- `getRoomList` of the user who asks. -/
def roomList (asker : Jid) : List Item := (d.users.get asker.toBare.toString).getD []

def commandsNode : String := "http://jabber.org/protocol/commands"

/-- `DiscoItemsResponder::handleGetRequest`. -/
def itemsFor (asker target : Jid) (node : String) : List Item :=
  if node = commandsNode then env.commands
  else if target.node = "" ∧ node = "" then d.rooms ++ d.roomList asker
  else []

end State

/-- Who answers to a disco#info request, with the name of the identity of a room. -/
inductive Info
  | transport
  | room (name : String)
  | buddy
  deriving DecidableEq, Repr

/-- `DiscoInfoResponder::handleGetRequest`. -/
def State.infoFor (d : State) (asker target : Jid) : Info :=
  if target.node = "" then .transport
  else match d.names.get target.toBare.toString with
    | some name => .room name
    | none =>
      match (d.roomList asker).find? (·.jid.toString = target.toBare.toString) with
      | some item => .room item.name
      | none => .buddy

inductive Event
  | created (user : String)
  | removed (user : String)
  | roomList (user : String) (rooms names : List String)
  deriving DecidableEq, Repr

/-- A user is created with an empty list. -/
def step (d : State) : Event → Option State
  | .created user =>
    (d.users.get user).elim (some { d with users := d.users.set user [] }) fun _ => none
  | .removed user => some { d with users := d.users.erase user }
  | .roomList user rooms names => some (d.handleRoomListPayload env user rooms names)

def machine : Machine State Event where
  init d := d = {}
  step := step env

/-! ## The history -/

/-- The public rooms as they were listed last. The events of a history are listed newest first. -/
def listed : List Event → List (String × String)
  | [] => []
  | .roomList user rooms names :: es =>
    if user = "" then (rooms.zip names).map (handleOf env) else listed es
  | _ :: es => listed es

/-- The rooms of a user as they were listed last since he logged in. None if he is not logged in. -/
def listedFor (u : String) : List Event → Option (List (String × String))
  | [] => none
  | .created user :: es => if user = u then some [] else listedFor u es
  | .removed user :: es => if user = u then none else listedFor u es
  | .roomList user rooms names :: es =>
    if user = u ∧ user ≠ "" then
      (listedFor u es).map fun _ => (rooms.zip names).map (handleOf env)
    else listedFor u es

/-- The public rooms that are shown. -/
def shown (es : List Event) : List (String × String) :=
  (listed env es).take (env.maxRoomListSize + 1).toNat

/-- The name under which a room is known among rooms: the one it was listed with last. -/
def lastName (rooms : List (String × String)) (key : String) : Option String :=
  (rooms.reverse.find? fun room => env.toLower room.1 = key).map Prod.snd

end

variable {env : Env} {d d' : State} {es : List Event}

/-! ## Adding rooms -/

theorem lastName_append (rooms : List (String × String)) (room : String × String) (key : String) :
    lastName env (rooms ++ [room]) key =
      if env.toLower room.1 = key then some room.2 else lastName env rooms key := by
  unfold lastName
  rw [List.reverse_append, List.reverse_singleton, List.singleton_append, List.find?_cons]
  split
  · rename_i heq
    rw [if_pos (of_decide_eq_true heq)]
    rfl
  · rename_i hne
    rw [if_neg (of_decide_eq_false hne)]

/-- Both responders have the same rooms. -/
structure Has (env : Env) (d : State) (rooms : List (String × String)) : Prop where
  items : d.rooms = rooms.map (itemOf env)
  names : ∀ key, d.names.get key = lastName env rooms key

theorem has_addRoom {rooms : List (String × String)} (h : Has env d rooms)
    (room : String × String) : Has env (d.addRoom env room)
      (if (rooms.length : Int) > env.maxRoomListSize then rooms else rooms ++ [room]) := by
  have hlength : d.rooms.length = rooms.length := by rw [h.items, List.length_map]
  unfold State.addRoom
  rw [hlength]
  split
  · exact h
  · constructor
    · change d.rooms ++ [itemOf env room] = _
      rw [h.items, List.map_append]
      rfl
    · intro key
      change (d.names.set _ _).get key = _
      rw [SortedMap.get_set, lastName_append, h.names]
      simp only [eq_comm]

/-- The rooms up to the limit, and one more. -/
theorem has_foldl_addRoom {rooms : List (String × String)} (h : Has env d rooms)
    (list : List (String × String)) (hle : rooms.length ≤ (env.maxRoomListSize + 1).toNat) :
    Has env (list.foldl (State.addRoom env) d)
      ((rooms ++ list).take (env.maxRoomListSize + 1).toNat) := by
  induction list generalizing d rooms with
  | nil =>
    rw [List.append_nil, List.take_of_length_le hle]
    exact h
  | cons room list ih =>
    rw [List.foldl_cons]
    have hnext := has_addRoom h room
    by_cases hfull : (rooms.length : Int) > env.maxRoomListSize
    · rw [if_pos hfull] at hnext
      have hall := ih hnext hle
      have hlength : rooms.length = (env.maxRoomListSize + 1).toNat := by omega
      rw [← hlength, List.take_left] at hall ⊢
      exact hall
    · rw [if_neg hfull] at hnext
      have hall := ih hnext (by rw [List.length_append, List.length_singleton]; omega)
      rwa [List.append_assoc, List.singleton_append] at hall

theorem has_clearRooms (env : Env) (d : State) : Has env d.clearRooms [] := ⟨rfl, fun _ => rfl⟩

theorem foldl_addRoom_users (list : List (String × String)) (d : State) :
    (list.foldl (State.addRoom env) d).users = d.users := by
  induction list generalizing d with
  | nil => rfl
  | cons room list ih =>
    rw [List.foldl_cons, ih]
    unfold State.addRoom
    split <;> rfl

/-! ## Every run -/

/-- What the directory is after a history. -/
structure Follows (env : Env) (d : State) (es : List Event) : Prop where
  rooms : Has env d (shown env es)
  users : ∀ u, d.users.get u = (listedFor env u es).map (List.map (itemOf env))

theorem follows_step {e : Event} (h : Follows env d es) (hs : step env d e = some d') :
    Follows env d' (e :: es) := by
  cases e with
  | created user =>
    rw [step] at hs
    cases hget : d.users.get user with
    | some list =>
      rw [hget] at hs
      cases hs
    | none =>
      rw [hget] at hs
      cases hs
      refine ⟨⟨h.rooms.items, h.rooms.names⟩, fun u => ?_⟩
      change (d.users.set user []).get u = _
      rw [SortedMap.get_set, listedFor, h.users]
      by_cases heq : user = u
      · rw [if_pos heq.symm, if_pos heq]
        rfl
      · rw [if_neg (Ne.symm heq), if_neg heq]
  | removed user =>
    cases hs
    refine ⟨⟨h.rooms.items, h.rooms.names⟩, fun u => ?_⟩
    change (d.users.erase user).get u = _
    rw [SortedMap.get_erase, listedFor, h.users]
    by_cases heq : user = u
    · rw [if_pos heq.symm, if_pos heq]
      rfl
    · rw [if_neg (Ne.symm heq), if_neg heq]
  | roomList user rooms names =>
    cases hs
    unfold State.handleRoomListPayload
    by_cases hpublic : user = ""
    · rw [if_neg (not_not.mpr hpublic)]
      have hall := has_foldl_addRoom (has_clearRooms env d)
        ((rooms.zip names).map (handleOf env)) (Nat.zero_le _)
      constructor
      · rw [shown, listed, if_pos hpublic]
        exact hall
      · intro u
        rw [foldl_addRoom_users, listedFor, if_neg fun h => h.2 hpublic]
        exact h.users u
    · rw [if_pos hpublic]
      have hrooms : Has env d (shown env (.roomList user rooms names :: es)) := by
        rw [shown, listed, if_neg hpublic]
        exact h.rooms
      cases hget : d.users.get user with
      | none =>
        refine ⟨hrooms, fun u => (h.users u).trans ?_⟩
        rw [listedFor]
        split
        · rename_i heq
          rw [← heq.1, ← h.users, hget, Option.map_map]
          have hnone := (h.users user).symm.trans hget
          rw [Option.map_eq_none_iff.mp hnone]
          rfl
        · rfl
      | some list =>
        refine ⟨⟨hrooms.items, hrooms.names⟩, fun u => ?_⟩
        change (d.users.set user _).get u = _
        rw [SortedMap.get_set, listedFor]
        by_cases heq : user = u
        · rw [if_pos heq.symm, if_pos ⟨heq, hpublic⟩, ← heq]
          obtain ⟨own, hown, -⟩ := Option.map_eq_some_iff.mp ((h.users user).symm.trans hget)
          rw [hown]
          rfl
        · rw [if_neg (Ne.symm heq), if_neg fun h => heq h.1]
          exact h.users u

theorem follows_of_run {tr : List (State × Event)} (h : (machine env).Run tr d) :
    Follows env d (tr.map Prod.snd) := by
  induction h with
  | init h0 =>
    cases h0
    refine ⟨⟨?_, fun _ => ?_⟩, fun _ => rfl⟩
    · rw [shown, List.map_nil, listed, List.take_nil]
      rfl
    · rw [shown, List.map_nil, listed, List.take_nil]
      rfl
  | step _ hs ih => exact follows_step ih hs

/-- The rooms of the user who asks. -/
def own (env : Env) (asker : Jid) (es : List Event) : List (String × String) :=
  (listedFor env asker.toBare.toString es).getD []

theorem Follows.roomList (h : Follows env d es) (asker : Jid) :
    d.roomList asker = (own env asker es).map (itemOf env) := by
  rw [State.roomList, h.users, own]
  cases listedFor env asker.toBare.toString es <;> rfl

theorem Follows.find? (h : Follows env d es) (asker : Jid) (key : String) :
    ((d.roomList asker).find? (·.jid.toString = key)).map Item.name =
      ((own env asker es).find? fun room => (env.parseJid room.1).toString = key).map Prod.snd := by
  rw [h.roomList, List.find?_map, Option.map_map]
  rfl

theorem Follows.itemsFor (h : Follows env d es) (asker target : Jid) :
    d.itemsFor env asker target "" = if target.node = "" then
      (shown env es ++ own env asker es).map (itemOf env) else [] := by
  rw [State.itemsFor, if_neg (by decide), List.map_append, h.roomList, h.rooms.items]
  simp only [and_true]

theorem Follows.infoFor (h : Follows env d es) (asker target : Jid) :
    d.infoFor asker target = if target.node = "" then .transport
      else ((lastName env (shown env es) target.toBare.toString).or
        (((own env asker es).find? fun room =>
          (env.parseJid room.1).toString = target.toBare.toString).map Prod.snd)).elim .buddy .room := by
  rw [State.infoFor, h.rooms.names, ← h.find?]
  split
  · rfl
  · cases lastName env (shown env es) target.toBare.toString with
    | some name => rfl
    | none =>
      cases (d.roomList asker).find? (·.jid.toString = target.toBare.toString) <;> rfl

/-- After every history a user is shown the public rooms, up to the limit and one more, and then the
rooms that were listed last for him; and a JID is a room under the name with which a public room that is
shown was listed last, or else the first of his own rooms. -/
theorem directory_of_run {tr : List (State × Event)} (h : (machine env).Run tr d) (asker target : Jid) :
    d.itemsFor env asker target "" = (if target.node = "" then
      (shown env (tr.map Prod.snd) ++ own env asker (tr.map Prod.snd)).map (itemOf env) else []) ∧
    d.infoFor asker target = (if target.node = "" then .transport
      else ((lastName env (shown env (tr.map Prod.snd)) target.toBare.toString).or
        (((own env asker (tr.map Prod.snd)).find? fun room =>
          (env.parseJid room.1).toString = target.toBare.toString).map Prod.snd)).elim .buddy .room) :=
  ⟨(follows_of_run h).itemsFor asker target, (follows_of_run h).infoFor asker target⟩

theorem lastName_eq_some {rooms : List (String × String)} {key name : String}
    (h : lastName env rooms key = some name) :
    ∃ room ∈ rooms, env.toLower room.1 = key ∧ room.2 = name := by
  obtain ⟨room, hfind, rfl⟩ := Option.map_eq_some_iff.mp h
  have hkey := List.find?_some hfind
  exact ⟨room, List.mem_reverse.mp (List.mem_of_find?_eq_some hfind), of_decide_eq_true hkey, rfl⟩

theorem lastName_isSome (env : Env) {rooms : List (String × String)} {room : String × String}
    (h : room ∈ rooms) : (lastName env rooms (env.toLower room.1)).isSome := by
  rw [lastName, Option.isSome_map, List.find?_isSome]
  exact ⟨room, List.mem_reverse.mpr h, decide_eq_true rfl⟩

/-- If the JIDs of the rooms are their handles in lower case, then every room that is shown to a user is
a room when he asks for its JID, under the name of a room with this JID. -/
theorem listed_of_run {tr : List (State × Event)} (h : (machine env).Run tr d) {asker target : Jid}
    (hjid : ∀ room ∈ shown env (tr.map Prod.snd) ++ own env asker (tr.map Prod.snd),
      (env.parseJid room.1).node ≠ "" ∧ (env.parseJid room.1).isBare ∧
        (env.parseJid room.1).toString = env.toLower room.1) :
    ∀ item ∈ d.itemsFor env asker target "", ∃ other ∈ d.itemsFor env asker target "",
      other.jid.toString = item.jid.toString ∧ d.infoFor asker item.jid = .room other.name := by
  intro item hitem
  have hfollows := follows_of_run h
  rw [hfollows.itemsFor asker target] at hitem ⊢
  split at hitem
  · rename_i hnode
    simp only [if_pos hnode]
    obtain ⟨room, hroom, rfl⟩ := List.mem_map.mp hitem
    obtain ⟨hnode, hbare, hstring⟩ := hjid room hroom
    have htoBare : (env.parseJid room.1).toBare = env.parseJid room.1 := by
      rw [Jid.toBare, ← of_decide_eq_true hbare]
    have hinfo := hfollows.infoFor asker (env.parseJid room.1)
    rw [if_neg hnode, htoBare, hstring] at hinfo
    simp only [show (itemOf env room).jid = env.parseJid room.1 from rfl, hinfo, hstring]
    cases hlast : lastName env (shown env (tr.map Prod.snd)) (env.toLower room.1) with
    | some name =>
      obtain ⟨other, hother, hkey, rfl⟩ := lastName_eq_some hlast
      have hin := List.mem_append_left (own env asker (tr.map Prod.snd)) hother
      exact ⟨itemOf env other, List.mem_map_of_mem hin, (hjid other hin).2.2.trans hkey, rfl⟩
    | none =>
      have hown : room ∈ own env asker (tr.map Prod.snd) := by
        refine (List.mem_append.mp hroom).resolve_left fun hin => ?_
        have hsome := lastName_isSome env hin
        rw [hlast] at hsome
        cases hsome
      have hsome : ((own env asker (tr.map Prod.snd)).find? fun r =>
          (env.parseJid r.1).toString = env.toLower room.1).isSome :=
        List.find?_isSome.mpr ⟨room, hown, decide_eq_true hstring⟩
      obtain ⟨other, hfind⟩ := Option.isSome_iff_exists.mp hsome
      have hkey := List.find?_some hfind
      rw [decide_eq_true_eq] at hkey
      have hin := List.mem_append_right (shown env (tr.map Prod.snd)) (List.mem_of_find?_eq_some hfind)
      refine ⟨itemOf env other, List.mem_map_of_mem hin, hkey, ?_⟩
      rw [hfind]
      rfl
  · cases hitem

namespace Sample

def transport : Env where
  jid := "irc.capulet.lit"
  parseJid := fun handle => ⟨before '@' handle, after '@' handle, ""⟩
  escapedNode := id
  toLower := id

def juliet : Jid := ⟨"juliet", "capulet.lit", "balcony"⟩

/-- A public list, and a list for a user in which the last room has no name. -/
def listings : List Event := [.created "juliet@capulet.lit", .roomList "" ["square"] ["The square"],
  .roomList "juliet@capulet.lit" ["garden", "orchard"] ["The garden"]]

end Sample

theorem directory_of_run_listings : ∃ tr d, (machine Sample.transport).Run tr d ∧
    d.itemsFor Sample.transport Sample.juliet ⟨"", "irc.capulet.lit", ""⟩ "" =
      [⟨"The square", ⟨"square", "irc.capulet.lit", ""⟩⟩,
        ⟨"The garden", ⟨"garden", "irc.capulet.lit", ""⟩⟩] ∧
    d.infoFor Sample.juliet ⟨"garden", "irc.capulet.lit", ""⟩ = .room "The garden" := by
  obtain ⟨d, hd⟩ : ∃ d, (machine Sample.transport).exec {} Sample.listings = some d := ⟨_, rfl⟩
  obtain ⟨tr, hrun, htr⟩ := Machine.exists_run_of_exec rfl hd
  have hall := directory_of_run hrun Sample.juliet
  rw [htr] at hall
  exact ⟨tr, d, hrun, (hall ⟨"", "irc.capulet.lit", ""⟩).1.trans (by decide +kernel),
    (hall ⟨"garden", "irc.capulet.lit", ""⟩).2.trans (by decide +kernel)⟩

theorem listed_of_run_listings : ∃ tr d, (machine Sample.transport).Run tr d ∧
    ∀ item ∈ d.itemsFor Sample.transport Sample.juliet ⟨"", "irc.capulet.lit", ""⟩ "",
      ∃ name, d.infoFor Sample.juliet item.jid = .room name := by
  obtain ⟨d, hd⟩ : ∃ d, (machine Sample.transport).exec {} Sample.listings = some d := ⟨_, rfl⟩
  obtain ⟨tr, hrun, htr⟩ := Machine.exists_run_of_exec rfl hd
  have hjid : ∀ room ∈ shown Sample.transport (tr.map Prod.snd) ++
      own Sample.transport Sample.juliet (tr.map Prod.snd),
      (Sample.transport.parseJid room.1).node ≠ "" ∧ (Sample.transport.parseJid room.1).isBare ∧
        (Sample.transport.parseJid room.1).toString = Sample.transport.toLower room.1 := by
    rw [htr]
    decide +kernel
  refine ⟨tr, d, hrun, fun item hitem => ?_⟩
  obtain ⟨other, -, -, hinfo⟩ := listed_of_run hrun hjid item hitem
  exact ⟨other.name, hinfo⟩

end Spectrum.Directory
