import Spectrum.Registration.Model
import Spectrum.Storage.Accounts

/-!
# Unregistering without a remote roster

The contacts of the user are removed when the server has answered that it has no roster for him. The
code then reads the buddies from the storage, where `unregisterUser` has already deleted them.
-/

namespace Spectrum.Registration

open Lib Storage

/-! ## Presences -/

def Stanza.isPresence : Stanza → Bool
  | .presence _ => true
  | _ => false

/-- The answer sends the pair of presences for every buddy of the roster and for the transport, and no
other presence. -/
def RemovesContacts (env : Env) (roster : List BuddyInfo) (userInfo : Storage.UserInfo) (s : State) :
    Prop :=
  (((s.handleUnregisterRemoteRosterResponse env none userInfo).sent.drop s.sent.length).filter
    Stanza.isPresence).Perm
    (roster.flatMap (fun b => State.farewell env userInfo (State.buddyJid env b)) ++
      State.farewell env userInfo env.jid)

section Presences

variable {env : Env} {s : State} {userInfo : Storage.UserInfo} {barejid : String}
  {roster roster' : List BuddyInfo}

theorem removeUser_sent : (s.removeUser env barejid).sent = s.sent := by
  unfold State.removeUser
  split <;> rfl

theorem filter_farewells (roster : List BuddyInfo) :
    (roster.flatMap fun b => State.farewell env userInfo (State.buddyJid env b)).filter
      Stanza.isPresence =
      roster.flatMap fun b => State.farewell env userInfo (State.buddyJid env b) := by
  refine List.filter_eq_self.mpr fun stanza hmem => ?_
  obtain ⟨b, -, hb⟩ := List.mem_flatMap.mp hmem
  simp only [State.farewell, List.mem_cons, List.not_mem_nil, or_false] at hb
  rcases hb with rfl | rfl <;> rfl

/-- The presences of the answer: those for the buddies that are found, and those for the
transport. -/
theorem presences_of_answer :
    ((s.handleUnregisterRemoteRosterResponse env none userInfo).sent.drop s.sent.length).filter
      Stanza.isPresence =
      ((env.backend.getBuddies userInfo.id [] s.db).flatMap fun b =>
        State.farewell env userInfo (State.buddyJid env b)) ++
        State.farewell env userInfo env.jid := by
  have hnotify : (State.notify env "unregistered: " userInfo).filter Stanza.isPresence = [] := by
    refine List.filter_eq_nil_iff.mpr fun stanza hmem => ?_
    obtain ⟨jid, -, rfl⟩ := List.mem_map.mp hmem
    exact Bool.false_ne_true
  simp only [State.handleUnregisterRemoteRosterResponse, State.send, removeUser_sent,
    List.drop_left, List.filter_append, hnotify, List.append_nil, State.removals, filter_farewells]
  rfl

/-- The contact of a presence that unsubscribes. -/
def Stanza.unsubscribes : Stanza → Option Jid
  | .presence p => if p.type = .unsubscribe then some p.fromJid else none
  | _ => none

theorem filterMap_farewells (roster : List BuddyInfo) :
    (roster.flatMap fun b => State.farewell env userInfo (State.buddyJid env b)).filterMap
      Stanza.unsubscribes = roster.map (State.buddyJid env) := by
  induction roster with
  | nil => rfl
  | cons b roster ih =>
    rw [List.flatMap_cons, List.filterMap_append, ih]
    rfl

/-- The presences tell the contacts. -/
theorem farewells_perm_iff :
    (roster.flatMap fun b => State.farewell env userInfo (State.buddyJid env b)).Perm
      (roster'.flatMap fun b => State.farewell env userInfo (State.buddyJid env b)) ↔
      (roster.map (State.buddyJid env)).Perm (roster'.map (State.buddyJid env)) := by
  constructor
  · intro h
    have hcontacts := h.filterMap Stanza.unsubscribes
    rwa [filterMap_farewells, filterMap_farewells] at hcontacts
  · intro h
    have hpairs := h.flatMap_right (State.farewell env userInfo)
    rwa [List.flatMap_map, List.flatMap_map] at hpairs

theorem removesContacts_iff_perm : RemovesContacts env roster userInfo s ↔
    ((env.backend.getBuddies userInfo.id [] s.db).map (State.buddyJid env)).Perm
      (roster.map (State.buddyJid env)) := by
  rw [RemovesContacts, presences_of_answer, List.perm_append_right_iff, farewells_perm_iff]

end Presences

/-! ## The storage after `unregisterUser` -/

section Storage

variable {env : Env} {c : Storage.Config} {open_ : MySQL.Undefined} {kind : Kind} {s s₁ : State}
  {barejid : String} {userInfo : Storage.UserInfo}

theorem unregisterUser_db (hfound : env.lookup barejid s.db = some (some userInfo))
    (hs : s.unregisterUser env barejid = some s₁) : s₁.db =
      (State.removeUser env { s with db := env.backend.removeUser userInfo.id s.db } barejid).db := by
  unfold State.unregisterUser at hs
  rw [hfound] at hs
  cases hs
  rfl

/-- Nothing is left of the roster, unless the `User` had buddies that were not stored. -/
theorem buddiesOf_of_unregisterUser (henv : env.backend = createBackend c open_ kind)
    (hfound : env.lookup barejid s.db = some (some userInfo))
    (hs : s.unregisterUser env barejid = some s₁)
    (hqueue : ∀ u, s.users barejid = some u → u.queue = []) :
    s₁.db.buddiesOf userInfo.id = [] := by
  rw [unregisterUser_db hfound hs, henv]
  have hempty := removeUser_buddiesOf c open_ kind userInfo.id s.db
  unfold State.removeUser
  simp only
  split
  · exact hempty
  · rename_i u hu
    simp only [State.storeBuddies, hqueue u hu, List.foldl_nil, henv, Db.buddiesOf,
      setUserOnline_buddies]
    exact hempty

/-- The contacts that are removed are those that are stored under the id of the user in the state in
which the answer comes. If nothing was stored there since `unregisterUser` there are none. -/
theorem removesContacts_iff (henv : env.backend = createBackend c open_ kind)
    (hfound : env.lookup barejid s.db = some (some userInfo))
    (hs : s.unregisterUser env barejid = some s₁) (s₂ : State) :
    let roster := env.backend.getBuddies userInfo.id [] s.db
    (RemovesContacts env roster userInfo s₂ ↔
      ((env.backend.getBuddies userInfo.id [] s₂.db).map (State.buddyJid env)).Perm
        (roster.map (State.buddyJid env))) ∧
    ((∀ u, s.users barejid = some u → u.queue = []) →
      s₂.db.buddiesOf userInfo.id = s₁.db.buddiesOf userInfo.id →
      (RemovesContacts env roster userInfo s₂ ↔ roster = [])) := by
  intro roster
  refine ⟨removesContacts_iff_perm, fun hqueue hquiet => removesContacts_iff_perm.trans ?_⟩
  rw [buddiesOf_of_unregisterUser henv hfound hs hqueue] at hquiet
  rw [henv, getBuddies_of_none hquiet, List.map_nil, List.nil_perm, List.map_eq_nil_iff]

end Storage

/-! ## A user with one buddy -/

namespace Sample

/-- A text without a resource. -/
def jidOf (text : String) : Jid :=
  let node := text.toList.takeWhile (· ≠ '@')
  if '@' ∈ text.toList then ⟨String.ofList node, String.ofList (text.toList.drop (node.length + 1)), ""⟩
  else ⟨"", text, ""⟩

def env : Env where
  backend := sqlite3
  jid := ⟨"", "icq.localhost", ""⟩
  jidOf := jidOf

def romeo : Storage.UserInfo where
  id := 1
  jid := "romeo@localhost"
  uin := "12345"
  password := []
  language := "en"
  encoding := ""
  vip := false

/-- The user is registered and has no buddy. -/
def registered : Db := (sqlite3.setUser romeo .empty).1

def bob : BuddyData := { name := "bob" }

def withBob : Db := (sqlite3.addBuddy 1 (bob.info (-1)) registered).1

end Sample

theorem removesContacts_iff_romeo :
    ∃ s₁, State.unregisterUser Sample.env { db := Sample.registered } "romeo@localhost" = some s₁ ∧
      RemovesContacts Sample.env (sqlite3.getBuddies 1 [] Sample.registered) Sample.romeo s₁ := by
  have hfound : Sample.env.lookup "romeo@localhost" Sample.registered = some (some Sample.romeo) := by
    decide +kernel
  have henv : Sample.env.backend = createBackend {} {} .sqlite3 := rfl
  obtain ⟨s₁, hs₁⟩ : ∃ s₁, State.unregisterUser Sample.env { db := Sample.registered }
      "romeo@localhost" = some s₁ := by
    unfold State.unregisterUser
    rw [hfound]
    exact ⟨_, rfl⟩
  have hroster : sqlite3.getBuddies 1 [] Sample.registered = [] := by
    refine @getBuddies_of_none {} {} .sqlite3 _ _ ?_
    decide +kernel
  refine ⟨s₁, hs₁, ?_⟩
  exact ((removesContacts_iff henv hfound hs₁ s₁).2 nofun rfl).mpr hroster

/-- The buddy is not told that he was removed. -/
theorem not_removesContacts_of_bob :
    ∃ s₁, State.unregisterUser Sample.env { db := Sample.withBob } "romeo@localhost" = some s₁ ∧
      ¬ RemovesContacts Sample.env (sqlite3.getBuddies 1 [] Sample.withBob) Sample.romeo s₁ := by
  have hsent : (State.unregisterUser Sample.env { db := Sample.withBob } "romeo@localhost").any
      (fun s₁ => decide (s₁.sent = [] ∧
        ((s₁.handleUnregisterRemoteRosterResponse Sample.env none Sample.romeo).sent.filter
          Stanza.isPresence).length = 2)) = true := by decide +kernel
  obtain ⟨s₁, hs₁, hfacts⟩ := (Option.any_eq_true _ _).mp hsent
  obtain ⟨hempty, hlength⟩ := of_decide_eq_true hfacts
  refine ⟨s₁, hs₁, fun hremoves => ?_⟩
  have hroster : (sqlite3.getBuddies 1 [] Sample.withBob).length = 1 := by decide +kernel
  have hboth := hremoves.length_eq
  rw [hempty, List.length_nil, List.drop_zero, hlength] at hboth
  simp [State.farewell, List.length_flatMap, hroster] at hboth

end Spectrum.Registration
