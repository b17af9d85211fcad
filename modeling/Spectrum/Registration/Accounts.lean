import Spectrum.Registration.Model
import Spectrum.Storage.Accounts

/-!
# Accounts

The id and the name that are stored for a JID, and what the steps do to them: a step writes the
account of one JID, or deletes one, or leaves all of them as they are. A user whom the columns of the
table refuse is not written, and what is written is what they make of him.
-/

namespace Spectrum.Storage

open Lib

/-! ## In the storage -/

/-- The id and the name that are stored for a JID. -/
def Db.account (db : Db) (jid : String) : Option (Int × String) :=
  (db.userRow jid).map fun r => (r.id, r.uin)

section Account

variable {c : Config} {open_ : MySQL.Undefined} {kind : Kind} {db db' : Db} {user row : UserInfo}
  {jid jid' : String} {id : Int} {a a' : Int × String}

theorem Db.account_eq_some_iff : db.account jid = some a ↔
    ∃ r ∈ db.users.rows, r.jid = jid ∧ r.id = a.1 ∧ r.uin = a.2 := by
  unfold Db.account
  constructor
  · intro h
    obtain ⟨r, hr, rfl⟩ := Option.map_eq_some_iff.mp h
    obtain ⟨hmem, hjid⟩ := Db.userRow_eq_some_iff.mp hr
    exact ⟨r, hmem, hjid, rfl, rfl⟩
  · rintro ⟨r, hmem, hjid, hid, huin⟩
    rw [Db.userRow_eq_some_iff.mpr ⟨hmem, hjid⟩]
    exact congrArg some (Prod.ext hid huin)

theorem Db.account_of_users (h : db'.users = db.users) : db'.account jid = db.account jid := by
  rw [Db.account, Db.userRow, h]
  rfl

/-- Two JIDs do not share an id. -/
theorem Db.account_unique (h : db.account jid = some a) (h' : db.account jid' = some a')
    (hid : a.1 = a'.1) : jid = jid' := by
  obtain ⟨r, hr, rfl, hrid, -⟩ := Db.account_eq_some_iff.mp h
  obtain ⟨r', hr', rfl, hrid', -⟩ := Db.account_eq_some_iff.mp h'
  rw [db.users.eq_of_clash hr hr' (Or.inl (hrid.trans (hid.trans hrid'.symm)))]

theorem account_of_getUser (h : (createBackend c open_ kind).getUser jid db = .found user) :
    ∃ uin, db.account jid = some (user.id, uin) ∧ user.jid = jid := by
  obtain ⟨r, hr, hid, hjid⟩ := getUser_found h
  refine ⟨r.uin, ?_, hjid⟩
  rw [Db.account, hr, hid]
  rfl

theorem setUserOnline_account (online : Bool) :
    ((createBackend c open_ kind).setUserOnline id online db).account jid = db.account jid := by
  rw [Db.account, setUserOnline_userRow, Option.map_map, Db.account]
  congr 1
  funext r
  simp only [Function.comp_apply]
  split <;> rfl

theorem setUser_account_of_refused (h : (createBackend c open_ kind).stored user = none) :
    ((createBackend c open_ kind).setUser user db).1.account jid = db.account jid := by
  rw [setUser_of_refused h]

theorem setUser_account_of_ne (h : (createBackend c open_ kind).stored user = some row)
    (hne : jid ≠ row.jid) :
    ((createBackend c open_ kind).setUser user db).1.account jid = db.account jid := by
  rw [Db.account, setUser_userRow_of_ne h hne]
  rfl

theorem setUser_account_self (h : (createBackend c open_ kind).stored user = some row) :
    ∃ a, ((createBackend c open_ kind).setUser user db).1.account row.jid = some a ∧
      (a.2 = row.uin ∨ db.account row.jid = some a) := by
  obtain ⟨r, hr, hcases⟩ := @setUser_userRow_self c open_ kind db user row h
  refine ⟨(r.id, r.uin), by rw [Db.account, hr]; rfl, ?_⟩
  rcases hcases with huin | hold
  · exact Or.inl huin
  · exact Or.inr (by rw [Db.account, hold]; rfl)

/-- The account with the id is deleted. -/
theorem removeUser_account_eq_some_iff :
    ((createBackend c open_ kind).removeUser id db).account jid = some a ↔
      db.account jid = some a ∧ a.1 ≠ id := by
  rw [Db.account_eq_some_iff, Db.account_eq_some_iff, (removeUser_tables c open_ kind id db).1]
  constructor
  · rintro ⟨r, hr, hjid, hid, huin⟩
    obtain ⟨hmem, hne⟩ := Table.mem_delete.mp hr
    refine ⟨⟨r, hmem, hjid, hid, huin⟩, ?_⟩
    rw [← hid]
    exact of_decide_eq_false hne
  · rintro ⟨⟨r, hr, hjid, hid, huin⟩, hne⟩
    refine ⟨r, Table.mem_delete.mpr ⟨hr, ?_⟩, hjid, hid, huin⟩
    rw [hid]
    exact decide_eq_false hne

theorem removeUser_account_of_ne (h : ∀ a, db.account jid = some a → a.1 ≠ id) :
    ((createBackend c open_ kind).removeUser id db).account jid = db.account jid := by
  refine Option.ext fun a => ?_
  rw [removeUser_account_eq_some_iff]
  exact ⟨fun ha => ha.1, fun ha => ⟨ha, h a ha⟩⟩

theorem removeUser_account_of_eq (h : db.account jid = some a) (hid : a.1 = id) :
    ((createBackend c open_ kind).removeUser id db).account jid = none := by
  refine Option.eq_none_iff_forall_ne_some.mpr fun a' ha' => ?_
  obtain ⟨hold, hne⟩ := removeUser_account_eq_some_iff.mp ha'
  rw [h] at hold
  cases hold
  exact hne hid

end Account

end Spectrum.Storage

namespace Spectrum.Registration

open Lib Storage

/-! ## In the steps -/

/-- `registerUser` finds the JID registered. -/
def found (env : Env) (s : State) (barejid : String) : Bool :=
  match env.lookup barejid s.db with
  | some (some _) => true
  | _ => false

/-- The row that the step writes, as the columns take it. -/
def writes (env : Env) (s : State) : Event → Option Storage.UserInfo
  | .request sender p =>
    match env.examine sender p s.db with
    | some (.write _ user) => env.backend.stored user
    | _ => none
  | .register row allowPasswordChange =>
    if found env s row.jid = false ∨ allowPasswordChange = true then env.backend.stored row else none
  | _ => none

/-- The JID that a registration finds registered. -/
def finds (env : Env) (s : State) : Event → Option String
  | .register row _ => if found env s row.jid then some row.jid else none
  | _ => none

/-- The JID that the step unregisters. -/
def unregisters (env : Env) (s : State) : Event → Option String
  | .request sender p =>
    match env.examine sender p s.db with
    | some .remove => some sender.toBare.toString
    | _ => none
  | .unregister barejid => some barejid
  | _ => none

/-- The unregistration whose answer comes. -/
def answers (s : State) : Event → Option Storage.UserInfo
  | .answer i _ =>
    match s.pending[i]? with
    | some (.unregister userInfo) => some userInfo
    | _ => none
  | _ => none

section Steps

variable {env : Env} {c : Storage.Config} {open_ : MySQL.Undefined} {kind : Kind} {s s' : State}
  {e : Event} {barejid j : String} {user userInfo : Storage.UserInfo}

theorem lookup_eq_some (h : env.lookup barejid s.db = some (some userInfo)) :
    env.backend.getUser barejid s.db = .found userInfo := by
  unfold Env.lookup at h
  split at h
  · cases h
    assumption
  · cases h
  · cases h

theorem storeBuddies_account (henv : env.backend = createBackend c open_ kind) (u : LiveUser)
    (db : Db) : (State.storeBuddies env u db).account j = db.account j := by
  refine Db.account_of_users ?_
  unfold State.storeBuddies
  generalize u.queue = queue
  induction queue generalizing db with
  | nil => rfl
  | cons e queue ih =>
    rw [List.foldl_cons, ih, henv]
    split
    · exact updateBuddy_users _ _
    · exact addBuddy_users _ _

theorem removeUser_account (henv : env.backend = createBackend c open_ kind) :
    (s.removeUser env barejid).db.account j = s.db.account j := by
  unfold State.removeUser
  split
  · rfl
  · simp only [storeBuddies_account henv, henv, setUserOnline_account]

/-- The JID is unregistered, or nothing happens to the accounts. -/
theorem unregisterUser_account (henv : env.backend = createBackend c open_ kind)
    (hs : s.unregisterUser env barejid = some s') :
    s'.db.account j = s.db.account j ∨ j = barejid ∧ s'.db.account j = none := by
  unfold State.unregisterUser at hs
  obtain ⟨old, hold, hs⟩ := Option.bind_eq_some_iff.mp hs
  cases old with
  | none =>
    cases hs
    exact Or.inl rfl
  | some userInfo =>
    cases hs
    have hgone : (State.removeUser env { s with db := env.backend.removeUser userInfo.id s.db }
        barejid).db.account j = (env.backend.removeUser userInfo.id s.db).account j :=
      removeUser_account henv
    simp only [hgone]
    have hfound := lookup_eq_some hold
    rw [henv] at hfound ⊢
    obtain ⟨uin, haccount, -⟩ := account_of_getUser hfound
    by_cases hj : j = barejid
    · rw [hj]
      exact Or.inr ⟨rfl, removeUser_account_of_eq haccount rfl⟩
    · refine Or.inl (removeUser_account_of_ne fun a ha hid => hj ?_)
      exact Db.account_unique ha haccount hid

theorem account_of_found (henv : env.backend = createBackend c open_ kind)
    (h : found env s barejid = true) : ∃ a, s.db.account barejid = some a := by
  unfold found at h
  split at h
  · rename_i userInfo hlookup
    have hfound := lookup_eq_some hlookup
    rw [henv] at hfound
    obtain ⟨uin, haccount, -⟩ := account_of_getUser hfound
    exact ⟨_, haccount⟩
  · cases h

/-- The user is written unless he is registered and his password is not to be changed. -/
theorem registerUser_db {allowPasswordChange : Bool}
    (hs : s.registerUser env user allowPasswordChange = some s') :
    s'.db = if found env s user.jid = false ∨ allowPasswordChange = true then
      (env.backend.setUser user s.db).1 else s.db := by
  unfold State.registerUser at hs
  obtain ⟨old, hold, hs⟩ := Option.bind_eq_some_iff.mp hs
  have hfound : found env s user.jid = old.isSome := by
    unfold found
    rw [hold]
    cases old <;> rfl
  rw [hfound]
  cases old with
  | none =>
    cases hs
    rfl
  | some userInfo =>
    cases allowPasswordChange with
    | false =>
      cases hs
      rfl
    | true =>
      cases hs
      rfl

/-- A user who is written has been looked up before. -/
theorem found_of_examine {sender : Jid} {p : Payload} {registered : Bool}
    (h : env.examine sender p s.db = some (.write registered user)) :
    found env s user.jid = registered := by
  have hname : ∀ old, env.lookup sender.toBare.toString s.db = some old →
      env.examineName sender old p s.db = .write registered user →
      found env s user.jid = registered := by
    intro old hold hname
    unfold Env.examineName at hname
    split at hname
    · cases hname
    · repeat' split at hname
      all_goals cases hname
      unfold found
      simp only [Env.newUser, hold]
      cases old <;> rfl
  unfold Env.examine at h
  split at h
  · cases h
  · split at h
    · cases h
    · obtain ⟨old, hold, h⟩ := Option.bind_eq_some_iff.mp h
      split at h
      · cases h
      · split at h
        · split at h
          · cases h
          · split at h
            · exact hname old hold (Option.some.inj h)
            · cases h
        · exact hname old hold (Option.some.inj h)

/-- What `handleSetRequest` does, besides the stanza it sends. -/
theorem handleSetRequest_cases {sender : Jid} {p : Payload}
    (hs : s.handleSetRequest env sender p = some s') :
    ∃ d s₁ l, env.examine sender p s.db = some d ∧ s' = s₁.send l ∧
      (d = .remove ∧ s.unregisterUser env sender.toBare.toString = some s₁ ∨
        (∃ user, d = .write false user ∧ s.registerUser env user false = some s₁) ∨
        (∃ user, d = .write true user ∧ s₁ = { s with db := (env.backend.setUser user s.db).1 }) ∨
        d ≠ .remove ∧ (∀ registered user, d ≠ .write registered user) ∧ s₁ = s) := by
  obtain ⟨d, hd, hs⟩ := Option.bind_eq_some_iff.mp hs
  cases d with
  | refused e =>
    cases hs
    exact ⟨_, _, _, hd, rfl, Or.inr (Or.inr (Or.inr ⟨nofun, nofun, rfl⟩))⟩
  | taken =>
    cases hs
    exact ⟨_, _, _, hd, rfl, Or.inr (Or.inr (Or.inr ⟨nofun, nofun, rfl⟩))⟩
  | ignored =>
    cases hs
    exact ⟨_, _, _, hd, rfl, Or.inr (Or.inr (Or.inr ⟨nofun, nofun, rfl⟩))⟩
  | remove =>
    obtain ⟨s₁, hs₁, hs⟩ := Option.bind_eq_some_iff.mp hs
    cases hs
    exact ⟨_, _, _, hd, rfl, Or.inl ⟨rfl, hs₁⟩⟩
  | write registered user =>
    cases registered with
    | false =>
      obtain ⟨s₁, hs₁, hs⟩ := Option.bind_eq_some_iff.mp hs
      cases hs
      exact ⟨_, _, _, hd, rfl, Or.inr (Or.inl ⟨user, rfl, hs₁⟩)⟩
    | true =>
      cases hs
      exact ⟨_, _, _, hd, rfl, Or.inr (Or.inr (Or.inl ⟨user, rfl, rfl⟩))⟩

theorem writes_of_unregisters (h : unregisters env s e = some j) : writes env s e = none := by
  cases e with
  | request sender p =>
    simp only [unregisters] at h
    simp only [writes]
    split at h
    · rename_i hd
      rw [hd]
    · cases h
  | unregister barejid => rfl
  | _ => cases h

theorem finds_of_unregisters (h : unregisters env s e = some j) : finds env s e = none := by
  cases e with
  | register row allowPasswordChange => cases h
  | _ => rfl

theorem writes_of_answers (h : answers s e = some userInfo) : writes env s e = none := by
  cases e with
  | answer i payload => rfl
  | _ => cases h

theorem finds_of_answers (h : answers s e = some userInfo) : finds env s e = none := by
  cases e with
  | answer i payload => rfl
  | _ => cases h

/-- What a step can do to the account of a JID. -/
inductive AccountStep (env : Env) (s : State) (e : Event) (s' : State) (j : String) : Prop
  | kept (hother : (writes env s e).map Storage.UserInfo.jid ≠ some j)
      (hfinds : finds env s e = some j → ∃ a, s.db.account j = some a)
      (h : s'.db.account j = s.db.account j)
  | written (row : Storage.UserInfo) (hwrites : writes env s e = some row) (hjid : row.jid = j)
      (h : ∃ a, s'.db.account j = some a ∧ (a.2 = row.uin ∨ s.db.account j = some a))
  | unregistered (hunregisters : unregisters env s e = some j) (h : s'.db.account j = none)
  | swept (userInfo : Storage.UserInfo) (hanswers : answers s e = some userInfo)
      (hid : ∃ uin, s.db.account j = some (userInfo.id, uin)) (h : s'.db.account j = none)

/-- A step that writes nothing. -/
theorem accountStep_of_kept (hwrites : writes env s e = none) (hfinds : finds env s e = none)
    (h : s'.db.account j = s.db.account j) : AccountStep env s e s' j := by
  refine .kept ?_ ?_ h
  · rw [hwrites]
    exact nofun
  · rw [hfinds]
    exact nofun

/-- A step that goes to `setUser`. -/
theorem accountStep_of_setUser (henv : env.backend = createBackend c open_ kind)
    (hwrites : writes env s e = env.backend.stored user)
    (hfinds : ∀ j, finds env s e = some j → ∃ a, s.db.account j = some a)
    (hdb : s'.db = (env.backend.setUser user s.db).1) : AccountStep env s e s' j := by
  rw [henv] at hdb
  cases hstored : env.backend.stored user with
  | none =>
    rw [hstored] at hwrites
    rw [henv] at hstored
    refine .kept ?_ (hfinds j) ?_
    · rw [hwrites]
      exact nofun
    · rw [hdb, setUser_account_of_refused hstored]
  | some row =>
    rw [hstored] at hwrites
    rw [henv] at hstored
    by_cases hj : j = row.jid
    · refine .written row hwrites hj.symm ?_
      rw [hj, hdb]
      exact setUser_account_self hstored
    · refine .kept ?_ (hfinds j) ?_
      · rw [hwrites, Option.map_some]
        exact fun heq => hj (Option.some.inj heq).symm
      · rw [hdb]
        exact setUser_account_of_ne hstored hj

theorem accountStep_of_register (henv : env.backend = createBackend c open_ kind)
    {allowPasswordChange : Bool}
    (hs : s.registerUser env user allowPasswordChange = some s') :
    AccountStep env s (.register user allowPasswordChange) s' j := by
  have hfinds : ∀ j, finds env s (.register user allowPasswordChange) = some j →
      ∃ a, s.db.account j = some a := by
    intro j hj
    simp only [finds] at hj
    split at hj
    · rename_i hfound
      cases hj
      exact account_of_found henv hfound
    · cases hj
  have hdb := registerUser_db hs
  by_cases hnew : found env s user.jid = false ∨ allowPasswordChange = true
  · rw [if_pos hnew] at hdb
    exact accountStep_of_setUser henv (if_pos hnew) hfinds hdb
  · rw [if_neg hnew] at hdb
    refine .kept ?_ (hfinds j) (by rw [hdb])
    simp only [writes, if_neg hnew]
    exact nofun

theorem accountStep_of_unregister (henv : env.backend = createBackend c open_ kind) {s₁ : State}
    (hunregisters : unregisters env s e = some barejid)
    (hs : s.unregisterUser env barejid = some s₁) (hdb : s'.db = s₁.db) :
    AccountStep env s e s' j := by
  rcases @unregisterUser_account env c open_ kind s s₁ barejid j henv hs with hkept | ⟨rfl, hgone⟩
  · refine accountStep_of_kept (writes_of_unregisters hunregisters)
      (finds_of_unregisters hunregisters) ?_
    rw [hdb]
    exact hkept
  · refine .unregistered hunregisters ?_
    rw [hdb]
    exact hgone

theorem accountStep_of_answer (henv : env.backend = createBackend c open_ kind)
    {payload : Option (List Jid)} {pending : List Pending} (hanswers : answers s e = some userInfo) :
    AccountStep env s e
      (State.handleUnregisterRemoteRosterResponse env { s with pending } payload userInfo) j := by
  have hdb : (State.handleUnregisterRemoteRosterResponse env { s with pending } payload
      userInfo).db.account j = (env.backend.removeUser userInfo.id s.db).account j := by
    simp only [State.handleUnregisterRemoteRosterResponse, State.send]
    exact removeUser_account henv
  rw [henv] at hdb
  by_cases hid : ∃ uin, s.db.account j = some (userInfo.id, uin)
  · refine .swept userInfo hanswers hid ?_
    obtain ⟨uin, haccount⟩ := hid
    rw [hdb]
    exact removeUser_account_of_eq haccount rfl
  · refine accountStep_of_kept (writes_of_answers hanswers) (finds_of_answers hanswers) ?_
    rw [hdb]
    refine removeUser_account_of_ne fun a ha hsame => hid ⟨a.2, ?_⟩
    rw [ha, ← hsame]

theorem accountStep_of_step (henv : env.backend = createBackend c open_ kind)
    (hs : step env s e = some s') (j : String) : AccountStep env s e s' j := by
  cases e with
  | request sender p =>
    obtain ⟨d, s₁, l, hd, rfl, hcases⟩ := handleSetRequest_cases hs
    have hwritten : ∀ {registered user}, d = .write registered user →
        writes env s (.request sender p) = env.backend.stored user := by
      rintro registered user rfl
      simp only [writes, hd]
    rcases hcases with ⟨rfl, hs₁⟩ | ⟨user, rfl, hs₁⟩ | ⟨user, rfl, rfl⟩ | ⟨-, hnever, rfl⟩
    · exact accountStep_of_unregister henv (by simp only [unregisters, hd]) hs₁ rfl
    · have hdb := registerUser_db hs₁
      rw [if_pos (Or.inl (found_of_examine hd))] at hdb
      exact accountStep_of_setUser henv (hwritten rfl) nofun hdb
    · exact accountStep_of_setUser henv (hwritten rfl) nofun rfl
    · refine accountStep_of_kept ?_ rfl rfl
      simp only [writes, hd]
      split
      · rename_i registered user heq
        exact absurd (Option.some.inj heq) (hnever registered user)
      · rfl
  | register row allowPasswordChange => exact accountStep_of_register henv hs
  | unregister barejid => exact accountStep_of_unregister henv rfl hs rfl
  | login barejid =>
    simp only [step] at hs
    split at hs
    · rename_i userInfo _ _
      cases hs
      have haccount : (env.backend.setUserOnline userInfo.id true s.db).account j =
          s.db.account j := by
        rw [henv, setUserOnline_account]
      exact accountStep_of_kept rfl rfl haccount
    · cases hs
  | logout barejid =>
    cases hs
    exact accountStep_of_kept rfl rfl (removeUser_account henv)
  | store barejid entry =>
    cases hs
    exact accountStep_of_kept rfl rfl rfl
  | tick barejid =>
    simp only [step] at hs
    split at hs
    · cases hs
      exact accountStep_of_kept rfl rfl rfl
    · cases hs
      exact accountStep_of_kept rfl rfl (storeBuddies_account henv _ _)
  | answer i payload =>
    simp only [step] at hs
    cases hpending : s.pending[i]? with
    | none =>
      rw [hpending] at hs
      cases hs
    | some question =>
      rw [hpending] at hs
      cases question with
      | register row =>
        cases hs
        exact accountStep_of_kept rfl rfl rfl
      | unregister userInfo =>
        cases hs
        exact accountStep_of_answer henv (by simp only [answers, hpending])

end Steps

end Spectrum.Registration
