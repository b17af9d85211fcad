import Spectrum.Registration.Accounts
import Spectrum.Registration.Unregister

/-!
# Registering again

The answer to an unregistration deletes the rows with the id that the user had then and disconnects
the user who has his JID now. What the user is due is told by the steps that were taken: he stays
registered until he is unregistered, and connected until he is unregistered or logs out.
-/

namespace Spectrum.Registration

open Lib Storage

/-! ## What a user is due -/

/-- The latest step about the registration of the JID registers it, or finds it registered. -/
def Due (env : Env) : List (State × Event) → String → Prop
  | [], _ => False
  | (s, e) :: tr, j =>
    (writes env s e).map Storage.UserInfo.jid = some j ∨ finds env s e = some j ∨
      unregisters env s e ≠ some j ∧ Due env tr j

/-- The latest step about the connection of the JID connects it. -/
def DueOnline (env : Env) : List (State × Event) → String → Prop
  | [], _ => False
  | (s, e) :: tr, j =>
    e = .login j ∨ (e ≠ .logout j ∧ unregisters env s e ≠ some j) ∧ DueOnline env tr j

/-- The answer leaves the registered users, what is stored for them and the connected users alone. -/
structure Spares (s s' : State) : Prop where
  registered : s'.db.users.rows = s.db.users.rows
  buddies : ∀ r ∈ s.db.buddies.rows, (∃ u ∈ s.db.users.rows, u.id = r.userId) →
    r ∈ s'.db.buddies.rows
  usersSettings : ∀ r ∈ s.db.usersSettings.rows, (∃ u ∈ s.db.users.rows, u.id = r.userId) →
    r ∈ s'.db.usersSettings.rows
  buddiesSettings : ∀ r ∈ s.db.buddiesSettings.rows, (∃ u ∈ s.db.users.rows, u.id = r.userId) →
    r ∈ s'.db.buddiesSettings.rows
  connected : s'.users = s.users

/-- No row has the id of the unregistration that is answered, and nobody is connected with its JID. -/
def Harmless (s : State) (e : Event) : Prop :=
  ∀ userInfo ∈ answers s e, (∀ r ∈ s.db.users.rows, r.id ≠ userInfo.id) ∧ s.users userInfo.jid = none

instance (s : State) (e : Event) : Decidable (Harmless s e) :=
  match h : answers s e with
  | none => isTrue fun _ hmem => by rw [h] at hmem; cases hmem
  | some userInfo =>
    decidable_of_iff
      ((∀ r ∈ s.db.users.rows, r.id ≠ userInfo.id) ∧ s.users userInfo.jid = none)
      (by simp [Harmless, h])

/-! ## One step -/

section Steps

variable {env : Env} {c : Storage.Config} {open_ : MySQL.Undefined} {kind : Kind} {s s' : State}
  {e : Event} {barejid j : String} {userInfo : Storage.UserInfo}

theorem removeUser_users (env : Env) (s : State) (barejid j : String) :
    (s.removeUser env barejid).users j = if j = barejid then none else s.users j := by
  unfold State.removeUser
  cases hu : s.users barejid with
  | none =>
    simp only
    split
    · rename_i hj
      rw [hj, hu]
    · rfl
  | some u => rfl

/-- The state after the answer to an unregistration. -/
theorem step_of_answers (hanswers : answers s e = some userInfo) (hs : step env s e = some s') :
    ∃ payload pending, s' = State.handleUnregisterRemoteRosterResponse env { s with pending }
      payload userInfo := by
  cases e with
  | answer i payload =>
    simp only [answers] at hanswers
    simp only [step] at hs
    cases hpending : s.pending[i]? with
    | none =>
      rw [hpending] at hs
      cases hs
    | some question =>
      rw [hpending] at hs hanswers
      cases question with
      | register row => cases hanswers
      | unregister userInfo' =>
        cases hanswers
        cases hs
        exact ⟨payload, _, rfl⟩
  | _ => cases hanswers

/-- The rows that are left when no user has the id. -/
theorem spares_of_tables (henv : env.backend = createBackend c open_ kind)
    (hdb : s'.db = env.backend.removeUser userInfo.id s.db) (husers : s'.users = s.users)
    (hfree : ∀ r ∈ s.db.users.rows, r.id ≠ userInfo.id) : Spares s s' := by
  obtain ⟨hregistered, hbuddies, husersSettings, hbuddiesSettings⟩ :=
    removeUser_tables c open_ kind userInfo.id s.db
  rw [henv] at hdb
  refine ⟨?_, fun r hr howner => ?_, fun r hr howner => ?_, fun r hr howner => ?_, husers⟩
  · rw [hdb, hregistered]
    refine List.filter_eq_self.mpr fun r hr => ?_
    simp only [decide_eq_false (hfree r hr), Bool.not_false]
  all_goals
    obtain ⟨u, hu, hid⟩ := howner
    have hne : r.userId ≠ userInfo.id := hid ▸ hfree u hu
  · rw [hdb, hbuddies, Table.mem_delete]
    exact ⟨hr, decide_eq_false hne⟩
  · rw [hdb, husersSettings, Table.mem_delete]
    exact ⟨hr, decide_eq_false hne⟩
  · rw [hdb, hbuddiesSettings, Table.mem_delete]
    exact ⟨hr, decide_eq_false hne⟩

/-- An answer spares the others exactly if it is harmless. -/
theorem spares_iff_harmless (henv : env.backend = createBackend c open_ kind)
    (hanswers : answers s e = some userInfo) (hs : step env s e = some s') :
    Spares s s' ↔ Harmless s e := by
  obtain ⟨payload, pending, rfl⟩ := step_of_answers hanswers hs
  have hdb : s.users userInfo.jid = none →
      (State.handleUnregisterRemoteRosterResponse env { s with pending } payload userInfo).db =
        env.backend.removeUser userInfo.id s.db := by
    intro hnone
    simp only [State.handleUnregisterRemoteRosterResponse, State.send, State.removeUser, hnone]
  have husers : ∀ j, (State.handleUnregisterRemoteRosterResponse env { s with pending } payload
      userInfo).users j = if j = userInfo.jid then none else s.users j := by
    intro j
    simp only [State.handleUnregisterRemoteRosterResponse, State.send]
    exact removeUser_users env _ _ j
  constructor
  · intro h info hinfo
    rw [hanswers] at hinfo
    cases hinfo
    have hnone : s.users userInfo.jid = none := by
      rw [← h.connected, husers, if_pos rfl]
    refine ⟨fun r hr hid => ?_, hnone⟩
    rw [← h.registered, hdb hnone, henv,
      (removeUser_tables c open_ kind userInfo.id s.db).1] at hr
    exact of_decide_eq_false (Table.mem_delete.mp hr).2 hid
  · intro h
    obtain ⟨hfree, hnone⟩ := h userInfo (by rw [hanswers]; rfl)
    refine spares_of_tables henv (hdb hnone) (funext fun j => ?_) hfree
    rw [husers]
    split
    · rename_i hj
      rw [hj, hnone]
    · rfl

theorem connected_removeUser {b : String} (hconnected : s.users j ≠ none) :
    (s.removeUser env b).users j ≠ none ∨ j = b := by
  by_cases hj : j = b
  · exact Or.inr hj
  · refine Or.inl ?_
    rw [removeUser_users, if_neg hj]
    exact hconnected

theorem connected_unregisterUser {b : String} (hconnected : s.users j ≠ none)
    (hs : s.unregisterUser env b = some s') : s'.users j ≠ none ∨ j = b := by
  obtain ⟨old, -, hs⟩ := Option.bind_eq_some_iff.mp hs
  cases old with
  | none =>
    cases hs
    exact Or.inl hconnected
  | some userInfo =>
    cases hs
    exact connected_removeUser hconnected

theorem connected_registerUser {user : Storage.UserInfo} {allow : Bool}
    (hconnected : s.users j ≠ none) (hs : s.registerUser env user allow = some s') :
    s'.users j ≠ none := by
  obtain ⟨old, -, hs⟩ := Option.bind_eq_some_iff.mp hs
  split at hs
  · cases hs
    exact hconnected
  · cases hs
    exact hconnected

/-- Somebody who is connected stays so until he logs out, is unregistered, or his earlier
unregistration is answered. -/
theorem step_connected (hs : step env s e = some s') (hconnected : s.users j ≠ none) :
    s'.users j ≠ none ∨ e = .logout j ∨ unregisters env s e = some j ∨
      ∃ userInfo, answers s e = some userInfo ∧ userInfo.jid = j := by
  cases e with
  | request sender p =>
    obtain ⟨d, s₁, l, hd, rfl, hcases⟩ := handleSetRequest_cases hs
    rcases hcases with ⟨rfl, hs₁⟩ | ⟨user, rfl, hs₁⟩ | ⟨user, rfl, rfl⟩ | ⟨-, -, rfl⟩
    · rcases connected_unregisterUser hconnected hs₁ with hkept | rfl
      · exact Or.inl hkept
      · exact Or.inr (Or.inr (Or.inl (by simp only [unregisters, hd])))
    · have hkept := connected_registerUser hconnected hs₁
      exact Or.inl hkept
    · exact Or.inl hconnected
    · exact Or.inl hconnected
  | register row allowPasswordChange => exact Or.inl (connected_registerUser hconnected hs)
  | unregister barejid =>
    rcases connected_unregisterUser hconnected hs with hkept | rfl
    · exact Or.inl hkept
    · exact Or.inr (Or.inr (Or.inl rfl))
  | login barejid =>
    simp only [step] at hs
    split at hs
    · cases hs
      refine Or.inl ?_
      simp only
      split
      · exact Option.some_ne_none _
      · exact hconnected
    · cases hs
  | logout barejid =>
    cases hs
    rcases @connected_removeUser env s j barejid hconnected with hkept | rfl
    · exact Or.inl hkept
    · exact Or.inr (Or.inl rfl)
  | store barejid entry =>
    cases hs
    refine Or.inl ?_
    simp only
    split
    · rwa [ne_eq, Option.map_eq_none_iff]
    · exact hconnected
  | tick barejid =>
    simp only [step] at hs
    split at hs
    · cases hs
      exact Or.inl hconnected
    · cases hs
      refine Or.inl ?_
      simp only
      split
      · exact Option.some_ne_none _
      · exact hconnected
  | answer i payload =>
    cases hanswers : answers s (.answer i payload) with
    | none =>
      simp only [answers] at hanswers
      simp only [step] at hs
      cases hpending : s.pending[i]? with
      | none =>
        rw [hpending] at hs
        cases hs
      | some question =>
        rw [hpending] at hs hanswers
        cases question with
        | register row =>
          cases hs
          exact Or.inl hconnected
        | unregister userInfo => cases hanswers
    | some userInfo =>
      obtain ⟨payload', pending, rfl⟩ := step_of_answers hanswers hs
      rcases @connected_removeUser env
        { s with pending, db := env.backend.removeUser userInfo.id s.db } j userInfo.jid
        hconnected with hkept | rfl
      · exact Or.inl hkept
      · exact Or.inr (Or.inr (Or.inr ⟨userInfo, rfl, rfl⟩))

end Steps

/-! ## Runs -/

section Runs

variable {env : Env} {c : Storage.Config} {open_ : MySQL.Undefined} {kind : Kind} {s s' : State}
  {e : Event} {tr : List (State × Event)} {j : String}

/-- A registration that the columns take. -/
theorem due_register {row user : Storage.UserInfo} {allow : Bool}
    (hstored : env.backend.stored row = some user) (hjid : user.jid = row.jid) :
    Due env ((s, .register row allow) :: tr) row.jid := by
  cases hfound : found env s row.jid with
  | false =>
    refine Or.inl ?_
    simp only [writes, hfound, true_or, if_true, hstored, Option.map_some, hjid]
  | true =>
    refine Or.inr (Or.inl ?_)
    simp only [finds, hfound, if_true]

theorem registered_of_due (henv : env.backend = createBackend c open_ kind)
    (hharmless : Harmless s e) (hs : step env s e = some s')
    (ih : Due env tr j → ∃ a, s.db.account j = some a) (hdue : Due env ((s, e) :: tr) j) :
    ∃ a, s'.db.account j = some a := by
  cases accountStep_of_step henv hs j with
  | kept hother hfinds h =>
    rw [h]
    rcases hdue with hwrites | hfound | ⟨-, hdue⟩
    · exact absurd hwrites hother
    · exact hfinds hfound
    · exact ih hdue
  | written user hwrites hjid h =>
    obtain ⟨a, ha, -⟩ := h
    exact ⟨a, ha⟩
  | unregistered hunregisters h =>
    rcases hdue with hwrites | hfound | ⟨hnot, -⟩
    · rw [writes_of_unregisters hunregisters] at hwrites
      cases hwrites
    · rw [finds_of_unregisters hunregisters] at hfound
      cases hfound
    · exact absurd hunregisters hnot
  | swept userInfo hanswers hid h =>
    obtain ⟨uin, haccount⟩ := hid
    obtain ⟨r, hr, -, hrid, -⟩ := Db.account_eq_some_iff.mp haccount
    exact absurd hrid ((hharmless userInfo hanswers).1 r hr)

theorem connected_of_due (hharmless : Harmless s e) (hs : step env s e = some s')
    (ih : DueOnline env tr j → s.users j ≠ none) (hdue : DueOnline env ((s, e) :: tr) j) :
    s'.users j ≠ none := by
  rcases hdue with rfl | ⟨⟨hlogout, hnot⟩, hdue⟩
  · simp only [step] at hs
    split at hs
    · cases hs
      simp
    · cases hs
  · have hconnected := ih hdue
    rcases step_connected hs hconnected with hkept | heq | heq | ⟨userInfo, hanswers, rfl⟩
    · exact hkept
    · exact absurd heq hlogout
    · exact absurd heq hnot
    · exact absurd (hharmless userInfo hanswers).2 hconnected

/-- If every answer to an unregistration is harmless, every registration is there until the JID is
unregistered again, every user stays connected, and the answers spare what is stored. -/
theorem survives_of_harmless (henv : env.backend = createBackend c open_ kind)
    (h : (machine env).Run tr s) (hC : Machine.Meets Harmless tr) :
    (∀ j, Due env tr j → ∃ r, s.db.userRow j = some r) ∧
    (∀ j, DueOnline env tr j → s.users j ≠ none) ∧
    ∀ s₁ e s₂, (s₁, e) ∈ tr → answers s₁ e ≠ none → step env s₁ e = some s₂ → Spares s₁ s₂ := by
  have hinv : (∀ j, Due env tr j → ∃ a, s.db.account j = some a) ∧
      ∀ j, DueOnline env tr j → s.users j ≠ none := by
    induction h with
    | init _ => exact ⟨fun _ hdue => hdue.elim, fun _ hdue => hdue.elim⟩
    | step _ hs ih =>
      obtain ⟨hharmless, hrest⟩ := Machine.meets_cons.mp hC
      obtain ⟨hregistered, hconnected⟩ := ih hrest
      exact ⟨fun j => registered_of_due henv hharmless hs (hregistered j),
        fun j => connected_of_due hharmless hs (hconnected j)⟩
  refine ⟨fun j hdue => ?_, hinv.2, fun s₁ e s₂ hmem hanswers hs => ?_⟩
  · obtain ⟨a, ha⟩ := hinv.1 j hdue
    obtain ⟨r, hr, -⟩ := Option.map_eq_some_iff.mp ha
    exact ⟨r, hr⟩
  · obtain ⟨userInfo, hinfo⟩ := Option.ne_none_iff_exists'.mp hanswers
    exact (spares_iff_harmless henv hinfo hs).mpr (hC _ hmem)

end Runs

namespace Sample

def again : List Event :=
  [.unregister "romeo@localhost", .answer 0 none, .register romeo false, .login "romeo@localhost"]

/-- The answer comes when the user has registered again and logged in. -/
def tooLate : List Event :=
  [.unregister "romeo@localhost", .register romeo false, .login "romeo@localhost", .answer 0 none]

theorem stored_romeo : env.backend.stored romeo = some romeo := by decide +kernel

theorem init_registered : (machine env).init { db := registered } := ⟨registered, rfl⟩

end Sample

theorem survives_of_harmless_romeo :
    ∃ tr s, (machine Sample.env).Run tr s ∧ tr.map Prod.snd = Sample.again.reverse ∧
      (∃ r, s.db.userRow "romeo@localhost" = some r) ∧ s.users "romeo@localhost" ≠ none := by
  have hexec : (((machine Sample.env).restrict Harmless).exec { db := Sample.registered }
      Sample.again).isSome = true := by decide +kernel
  obtain ⟨s, hs⟩ := Option.isSome_iff_exists.mp hexec
  obtain ⟨tr, hrestrict, htr⟩ := Machine.exists_run_of_exec
    (M := (machine Sample.env).restrict Harmless) Sample.init_registered hs
  obtain ⟨hrun, hmeets⟩ := hrestrict.of_restrict
  have henv : Sample.env.backend = createBackend {} {} .sqlite3 := rfl
  obtain ⟨hregistered, hconnected, -⟩ := survives_of_harmless henv hrun hmeets
  refine ⟨tr, s, hrun, htr, hregistered _ ?_, hconnected _ ?_⟩
  · obtain ⟨⟨s₁, e₁⟩, tr₁, rfl, rfl, htr₁⟩ := List.map_eq_cons_iff.mp htr
    obtain ⟨⟨s₂, e₂⟩, tr₂, rfl, rfl, htr₂⟩ := List.map_eq_cons_iff.mp htr₁
    exact Or.inr (Or.inr ⟨nofun, due_register Sample.stored_romeo rfl⟩)
  · obtain ⟨⟨s₁, e₁⟩, tr₁, rfl, rfl, htr₁⟩ := List.map_eq_cons_iff.mp htr
    exact Or.inl rfl

/-- The new registration is deleted and its user is disconnected. -/
theorem not_survives_of_tooLate :
    ∃ tr s, (machine Sample.env).Run tr s ∧ tr.map Prod.snd = Sample.tooLate.reverse ∧
      Due Sample.env tr "romeo@localhost" ∧ DueOnline Sample.env tr "romeo@localhost" ∧
      s.db.userRow "romeo@localhost" = none ∧ s.users "romeo@localhost" = none := by
  have hexec : ((machine Sample.env).exec { db := Sample.registered } Sample.tooLate).any
      (fun s => decide (s.db.userRow "romeo@localhost" = none ∧
        s.users "romeo@localhost" = none)) = true := by decide +kernel
  obtain ⟨s, hs, hfacts⟩ := (Option.any_eq_true _ _).mp hexec
  obtain ⟨hrow, huser⟩ := of_decide_eq_true hfacts
  obtain ⟨tr, hrun, htr⟩ := Machine.exists_run_of_exec Sample.init_registered hs
  refine ⟨tr, s, hrun, htr, ?_, ?_, hrow, huser⟩
  · obtain ⟨⟨s₁, e₁⟩, tr₁, rfl, rfl, htr₁⟩ := List.map_eq_cons_iff.mp htr
    obtain ⟨⟨s₂, e₂⟩, tr₂, rfl, rfl, htr₂⟩ := List.map_eq_cons_iff.mp htr₁
    obtain ⟨⟨s₃, e₃⟩, tr₃, rfl, rfl, htr₃⟩ := List.map_eq_cons_iff.mp htr₂
    exact Or.inr (Or.inr ⟨nofun, Or.inr (Or.inr ⟨nofun, due_register Sample.stored_romeo rfl⟩)⟩)
  · obtain ⟨⟨s₁, e₁⟩, tr₁, rfl, rfl, htr₁⟩ := List.map_eq_cons_iff.mp htr
    obtain ⟨⟨s₂, e₂⟩, tr₂, rfl, rfl, htr₂⟩ := List.map_eq_cons_iff.mp htr₁
    exact Or.inr ⟨⟨nofun, nofun⟩, Or.inl rfl⟩

end Spectrum.Registration
