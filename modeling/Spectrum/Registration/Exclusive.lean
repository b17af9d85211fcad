import Spectrum.Registration.Accounts
import Spectrum.Registration.Unregister

/-!
# Registrations without a password

Where no password is needed a name must not be registered twice. The code looks for the name that the
user has sent among the names that are stored, which are masked, and does not leave out the name of
the user himself.
-/

namespace Spectrum.Registration

open Lib Storage

/-- No two JIDs are registered with the same name. -/
def Exclusive (db : Db) : Prop :=
  ∀ r ∈ db.users.rows, ∀ r' ∈ db.users.rows, r.uin = r'.uin → r.jid = r'.jid

/-- If the name of the request is refused as taken, then by somebody else. -/
def TakenByOther (env : Env) (s : State) (sender : Jid) (p : Payload) : Prop :=
  env.examine sender p s.db = some .taken →
    ∃ username, p.getUsername = some username ∧
      ∃ r ∈ s.db.users.rows, r.jid ≠ sender.toBare.toString ∧ r.uin = username

/-- The user who is looked up and the name that is looked for among the stored ones, if the request
gets as far as that. -/
def Env.compared (env : Env) (sender : Jid) (p : Payload) (db : Db) :
    Option (Option Storage.UserInfo × String) := do
  let old ← env.lookup sender.toBare.toString db
  let username ← p.getUsername
  if env.irc = false ∧ (env.publicRegistration = true ∨ sender.domain ∈ env.allowedServers) ∧
      p.isRemove = false ∧
      (env.requireLocalAccount = true →
        p.formFields.localUsername ≠ "" ∧ p.formFields.localPassword ≠ "" ∧
          env.validLocal p.formFields.localUsername p.formFields.localPassword = true) ∧
      (p.getPassword ≠ none ∨ env.needPassword = false) ∧ username ≠ "" ∧
      ¬ ((env.jidOf username).isValid = true ∧ (env.jidOf username).toBare = sender.toBare)
  then some (old, username) else none

/-- The row has the name of no other JID. -/
def FreshRow (s : State) (row : Storage.UserInfo) : Prop :=
  ∀ r ∈ s.db.users.rows, r.jid ≠ row.jid → r.uin ≠ row.uin

/-- If the name of the request is looked for and not found, and the masked name is allowed, then what
is stored of it is the name of no other JID; and it is not the name that the user has. A
registration that does not come from a request stores the name of no other JID. -/
def FreshName (env : Env) (s : State) : Event → Prop
  | .request sender p => ∀ c ∈ env.compared sender p s.db,
      (c.2 ∉ s.db.uins → (env.allowedUsernames.all fun allowed => allowed (env.newUsername c.2)) →
        ∀ row ∈ env.backend.stored (env.newUser c.1 sender.toBare.toString c.2 p), FreshRow s row) ∧
      ∀ r ∈ s.db.users.rows, r.jid = sender.toBare.toString → r.uin ≠ c.2
  | .register row allowPasswordChange =>
    ∀ user ∈ writes env s (.register row allowPasswordChange), FreshRow s user
  | _ => True

instance (s : State) (row : Storage.UserInfo) : Decidable (FreshRow s row) :=
  inferInstanceAs (Decidable (∀ r ∈ s.db.users.rows, r.jid ≠ row.jid → r.uin ≠ row.uin))

instance (env : Env) (s : State) (e : Event) : Decidable (FreshName env s e) :=
  match e with
  | .request sender p => inferInstanceAs (Decidable (∀ c ∈ env.compared sender p s.db,
      (c.2 ∉ s.db.uins → (env.allowedUsernames.all fun allowed => allowed (env.newUsername c.2)) →
        ∀ row ∈ env.backend.stored (env.newUser c.1 sender.toBare.toString c.2 p), FreshRow s row) ∧
      ∀ r ∈ s.db.users.rows, r.jid = sender.toBare.toString → r.uin ≠ c.2))
  | .register row allowPasswordChange => inferInstanceAs
      (Decidable (∀ user ∈ writes env s (.register row allowPasswordChange), FreshRow s user))
  | .unregister _ | .login _ | .logout _ | .store _ _ | .tick _ | .answer _ _ =>
    inferInstanceAs (Decidable True)

/-- The registration from a storage in which the names are distinct. -/
def exclusiveMachine (env : Env) : Machine State Event where
  init s := ∃ db, Exclusive db ∧ s = { db := db }
  step := step env

/-! ## Requests -/

section Requests

variable {env : Env} {s : State} {sender : Jid} {p : Payload} {db : Db} {user : Storage.UserInfo}
  {registered : Bool}

/-- The name was looked for, and it is taken, or the user is written. -/
def LooksFor (env : Env) (sender : Jid) (p : Payload) (db : Db) (d : Decision) : Prop :=
  ∃ old username, env.compared sender p db = some (old, username) ∧
    (d = .taken ∧ username ∈ env.backend.getLegacyNetworkUsers db ∨
      d = .write old.isSome (env.newUser old sender.toBare.toString username p) ∧
        ¬ (env.needPassword = false ∧ username ∈ env.backend.getLegacyNetworkUsers db) ∧
        env.allowedUsernames.all fun allowed => allowed (env.newUsername username))

/-- The examination of a name refuses it or looks for it. -/
theorem examineName_cases {old : Option Storage.UserInfo} (hirc : env.irc = false)
    (hpublic : env.publicRegistration = true ∨ sender.domain ∈ env.allowedServers)
    (hold : env.lookup sender.toBare.toString db = some old) (hremove : p.isRemove = false)
    (hlocal : env.requireLocalAccount = true →
      p.formFields.localUsername ≠ "" ∧ p.formFields.localPassword ≠ "" ∧
        env.validLocal p.formFields.localUsername p.formFields.localPassword = true) :
    (∃ e, env.examineName sender old p db = .refused e) ∨
      LooksFor env sender p db (env.examineName sender old p db) := by
  unfold Env.examineName
  cases husername : p.getUsername with
  | none => exact Or.inl ⟨_, rfl⟩
  | some username =>
    simp only
    split
    · exact Or.inl ⟨_, rfl⟩
    · rename_i hpassword
      split
      · exact Or.inl ⟨_, rfl⟩
      · rename_i hempty
        split
        · exact Or.inl ⟨_, rfl⟩
        · rename_i hown
          have hneed : p.getPassword ≠ none ∨ env.needPassword = false := by
            by_cases hnone : p.getPassword = none
            · exact Or.inr (Bool.eq_false_iff.mpr fun hneed => hpassword ⟨hnone, hneed⟩)
            · exact Or.inl hnone
          have hcompared : env.compared sender p db = some (old, username) := by
            unfold Env.compared
            rw [hold, husername]
            exact if_pos ⟨hirc, hpublic, hremove, hlocal, hneed, hempty, hown⟩
          split
          · rename_i htaken
            exact Or.inr ⟨old, username, hcompared, Or.inl ⟨rfl, htaken.2⟩⟩
          · rename_i hfree
            split
            · exact Or.inl ⟨_, rfl⟩
            · rename_i hallowed
              refine Or.inr ⟨old, username, hcompared, Or.inr ⟨rfl, hfree, ?_⟩⟩
              cases hnames : env.allowedUsernames with
              | none => rfl
              | some allowed =>
                rw [hnames] at hallowed
                simpa using hallowed

theorem examine_cases {d : Decision} (h : env.examine sender p db = some d) :
    (∃ e, d = .refused e) ∨ d = .ignored ∨ d = .remove ∨ LooksFor env sender p db d := by
  unfold Env.examine at h
  split at h
  · cases h
    exact Or.inl ⟨_, rfl⟩
  · rename_i hirc
    split at h
    · cases h
      exact Or.inl ⟨_, rfl⟩
    · rename_i hpublic
      have hpublic' : env.publicRegistration = true ∨ sender.domain ∈ env.allowedServers := by
        by_contra hnot
        push Not at hnot
        exact hpublic ⟨Bool.eq_false_iff.mpr hnot.1, hnot.2⟩
      obtain ⟨old, hold, h⟩ := Option.bind_eq_some_iff.mp h
      cases hremove : p.isRemove with
      | true =>
        simp only [hremove] at h
        cases h
        exact Or.inr (Or.inr (Or.inl rfl))
      | false =>
        simp only [hremove, Bool.false_eq_true, if_false] at h
        have hname := @examineName_cases env sender p db old (Bool.eq_false_iff.mpr hirc) hpublic'
          hold hremove
        split at h
        · split at h
          · cases h
            exact Or.inr (Or.inl rfl)
          · rename_i hgiven
            push Not at hgiven
            split at h
            · rename_i hvalid
              cases h
              rcases hname fun _ => ⟨hgiven.1, hgiven.2, hvalid⟩ with hrefused | hlooks
              · exact Or.inl hrefused
              · exact Or.inr (Or.inr (Or.inr hlooks))
            · cases h
              exact Or.inl ⟨_, rfl⟩
        · rename_i hnolocal
          cases h
          rcases hname fun hlocal => absurd hlocal hnolocal with hrefused | hlooks
          · exact Or.inl hrefused
          · exact Or.inr (Or.inr (Or.inr hlooks))

theorem examine_write (hpassword : env.needPassword = false)
    (h : env.examine sender p db = some (.write registered user)) :
    ∃ old username, env.compared sender p db = some (old, username) ∧
      username ∉ env.backend.getLegacyNetworkUsers db ∧
      (env.allowedUsernames.all fun allowed => allowed (env.newUsername username)) ∧
      user = env.newUser old sender.toBare.toString username p := by
  rcases examine_cases h with ⟨e, heq⟩ | heq | heq |
    ⟨old, username, hcompared, ⟨heq, -⟩ | ⟨heq, hfree, hallowed⟩⟩
  · cases heq
  · cases heq
  · cases heq
  · cases heq
  · cases heq
    exact ⟨old, username, hcompared, fun hmem => hfree ⟨hpassword, hmem⟩, hallowed, rfl⟩

theorem examine_taken (h : env.examine sender p db = some .taken) :
    ∃ old username, env.compared sender p db = some (old, username) ∧
      username ∈ env.backend.getLegacyNetworkUsers db := by
  rcases examine_cases h with ⟨e, heq⟩ | heq | heq |
    ⟨old, username, hcompared, ⟨-, htaken⟩ | ⟨heq, -⟩⟩
  · cases heq
  · cases heq
  · cases heq
  · exact ⟨old, username, hcompared, htaken⟩
  · cases heq

end Requests

/-! ## Steps -/

section Steps

variable {env : Env} {c : Storage.Config} {open_ : MySQL.Undefined} {kind : Kind} {s s' : State}
  {e : Event} {j j' : String} {a a' : Int × String} {user : Storage.UserInfo}

/-- Where an account comes from. -/
theorem account_origin (henv : env.backend = createBackend c open_ kind)
    (hs : step env s e = some s') (h : s'.db.account j = some a) :
    s.db.account j = some a ∨ ∃ user, writes env s e = some user ∧ user.jid = j ∧ a.2 = user.uin := by
  cases accountStep_of_step henv hs j with
  | kept _ _ hkept =>
    rw [← hkept]
    exact Or.inl h
  | written user hwrites hjid hself =>
    obtain ⟨b, hb, hcases⟩ := hself
    rw [h] at hb
    cases hb
    rcases hcases with huin | hold
    · exact Or.inr ⟨user, hwrites, hjid, huin⟩
    · exact Or.inl hold
  | unregistered _ hnone =>
    rw [h] at hnone
    cases hnone
  | swept _ _ _ hnone =>
    rw [h] at hnone
    cases hnone

/-- What is written has the name of no other JID. -/
theorem FreshName.of_writes (henv : env.backend = createBackend c open_ kind)
    (hpassword : env.needPassword = false) (hC : FreshName env s e)
    (hwrites : writes env s e = some user) (h : s.db.account j = some a) (hj : j ≠ user.jid) :
    a.2 ≠ user.uin := by
  obtain ⟨r, hr, rfl, -, huin⟩ := Db.account_eq_some_iff.mp h
  rw [← huin]
  cases e with
  | request sender p =>
    simp only [writes] at hwrites
    split at hwrites
    · rename_i registered newUser hd
      obtain ⟨old, username, hcompared, hfree, hallowed, rfl⟩ := examine_write hpassword hd
      rw [henv, getLegacyNetworkUsers_eq] at hfree
      exact (hC _ hcompared).1 hfree hallowed user hwrites r hr hj
    · cases hwrites
  | register row allowPasswordChange => exact hC user hwrites r hr hj
  | _ => cases hwrites

theorem exclusive_iff_account {db : Db} : Exclusive db ↔
    ∀ j j' a a', db.account j = some a → db.account j' = some a' → a.2 = a'.2 → j = j' := by
  constructor
  · intro h j j' a a' ha ha' heq
    obtain ⟨r, hr, rfl, -, huin⟩ := Db.account_eq_some_iff.mp ha
    obtain ⟨r', hr', rfl, -, huin'⟩ := Db.account_eq_some_iff.mp ha'
    exact h r hr r' hr' (huin.trans (heq.trans huin'.symm))
  · intro h r hr r' hr' heq
    exact h r.jid r'.jid (r.id, r.uin) (r'.id, r'.uin)
      (Db.account_eq_some_iff.mpr ⟨r, hr, rfl, rfl, rfl⟩)
      (Db.account_eq_some_iff.mpr ⟨r', hr', rfl, rfl, rfl⟩) heq

theorem Exclusive.step (h : Exclusive s.db) (henv : env.backend = createBackend c open_ kind)
    (hpassword : env.needPassword = false) (hC : FreshName env s e)
    (hs : step env s e = some s') : Exclusive s'.db := by
  rw [exclusive_iff_account] at h ⊢
  intro j j' a a' ha ha' heq
  by_contra hne
  rcases account_origin henv hs ha with hold | ⟨user, hwrites, hjid, huin⟩
  · rcases account_origin henv hs ha' with hold' | ⟨user, hwrites, hjid, huin⟩
    · exact hne (h j j' a a' hold hold' heq)
    · rw [← hjid] at hne
      exact hC.of_writes henv hpassword hwrites hold hne (heq.trans huin)
  · rcases account_origin henv hs ha' with hold' | ⟨user', hwrites', hjid', -⟩
    · rw [← hjid] at hne
      exact hC.of_writes henv hpassword hwrites hold' (Ne.symm hne) (heq.symm.trans huin)
    · rw [hwrites] at hwrites'
      cases hwrites'
      exact hne (hjid.symm.trans hjid')

theorem getUsername_of_compared {sender : Jid} {p : Payload} {db : Db}
    {old : Option Storage.UserInfo} {username : String}
    (h : env.compared sender p db = some (old, username)) : p.getUsername = some username := by
  unfold Env.compared at h
  obtain ⟨_, -, h⟩ := Option.bind_eq_some_iff.mp h
  obtain ⟨name, hname, h⟩ := Option.bind_eq_some_iff.mp h
  split at h
  · cases h
    exact hname
  · cases h

theorem takenByOther_of_freshName (henv : env.backend = createBackend c open_ kind)
    {sender : Jid} {p : Payload} (hC : FreshName env s (.request sender p)) :
    TakenByOther env s sender p := by
  intro htaken
  obtain ⟨old, username, hcompared, hmem⟩ := examine_taken htaken
  rw [henv, getLegacyNetworkUsers_eq] at hmem
  obtain ⟨r, hr, huin⟩ := List.mem_map.mp hmem
  refine ⟨username, getUsername_of_compared hcompared, r, hr, fun hjid => ?_, huin⟩
  exact (hC _ hcompared).2 r hr hjid huin

/-- As long as the names are fresh no name is registered twice, and nobody is refused for his own
name. -/
theorem exclusive_of_freshName (henv : env.backend = createBackend c open_ kind)
    (hpassword : env.needPassword = false) {tr : List (State × Event)}
    (h : (exclusiveMachine env).Run tr s) (hC : Machine.Meets (FreshName env) tr) :
    Exclusive s.db ∧
    ∀ s₁ sender p, (s₁, .request sender p) ∈ tr → TakenByOther env s₁ sender p := by
  constructor
  · refine Machine.Run.invariant_of_steps (I := fun s => Exclusive s.db)
      (fun s hinit => ?_) (fun s e s' hfresh hs ih => ?_) h hC
    · obtain ⟨db, hdb, rfl⟩ := hinit
      exact hdb
    · exact ih.step henv hpassword hfresh hs
  · intro s₁ sender p hmem
    exact takenByOther_of_freshName henv (hC _ hmem)

end Steps

namespace Sample

def passwordless (mask : String) : Env := { env with needPassword := false, usernameMask := mask }

def alice : Jid := ⟨"alice", "localhost", "home"⟩

def eve : Jid := ⟨"eve", "localhost", "home"⟩

def asks (sender : Jid) (username : String) : Event := .request sender { username := some username }

theorem init_empty (mask : String) : (exclusiveMachine (passwordless mask)).init { db := {} } :=
  ⟨{}, nofun, rfl⟩

end Sample

theorem exclusive_of_freshName_alice :
    ∃ tr s, (exclusiveMachine (Sample.passwordless "$username@net")).Run tr s ∧
      s.db.uins = ["bob@net", "carol@net"] ∧ Exclusive s.db := by
  have hexec : (((exclusiveMachine (Sample.passwordless "$username@net")).restrict
      (FreshName (Sample.passwordless "$username@net"))).exec { db := {} }
      [Sample.asks Sample.alice "bob", Sample.asks Sample.eve "carol"]).any
      (fun s => decide (s.db.uins = ["bob@net", "carol@net"])) = true := by decide +kernel
  obtain ⟨s, hs, huins⟩ := (Option.any_eq_true _ _).mp hexec
  obtain ⟨tr, hrun, hmeets⟩ := Machine.exists_run_of_restrict (Sample.init_empty _) hs
  have henv : (Sample.passwordless "$username@net").backend = createBackend {} {} .sqlite3 := rfl
  exact ⟨tr, s, hrun, of_decide_eq_true huins,
    (exclusive_of_freshName henv rfl hrun hmeets).1⟩

/-- With a mask two users can get the same name; without one a user cannot send his name again. -/
theorem not_exclusive_of_mask :
    (∃ tr s, (exclusiveMachine (Sample.passwordless "$username@net")).Run tr s ∧
      tr.map Prod.snd = [Sample.asks Sample.eve "bob", Sample.asks Sample.alice "bob"] ∧
      ¬ Exclusive s.db) ∧
    ∃ tr s, (exclusiveMachine (Sample.passwordless "")).Run tr s ∧
      tr.map Prod.snd = [Sample.asks Sample.alice "bob"] ∧
      ¬ TakenByOther (Sample.passwordless "") s Sample.alice { username := some "bob" } := by
  constructor
  · have hexec : ((exclusiveMachine (Sample.passwordless "$username@net")).exec { db := {} }
        [Sample.asks Sample.alice "bob", Sample.asks Sample.eve "bob"]).any
        (fun s => decide (∃ r ∈ s.db.users.rows, ∃ r' ∈ s.db.users.rows,
          r.uin = r'.uin ∧ r.jid ≠ r'.jid)) = true := by decide +kernel
    obtain ⟨s, hs, hfacts⟩ := (Option.any_eq_true _ _).mp hexec
    obtain ⟨r, hr, r', hr', huin, hjid⟩ := of_decide_eq_true hfacts
    obtain ⟨tr, hrun, htr⟩ := Machine.exists_run_of_exec (Sample.init_empty _) hs
    exact ⟨tr, s, hrun, htr, fun hexclusive => hjid (hexclusive r hr r' hr' huin)⟩
  · have hexec : ((exclusiveMachine (Sample.passwordless "")).exec { db := {} }
        [Sample.asks Sample.alice "bob"]).any
        (fun s => decide ((Sample.passwordless "").examine Sample.alice { username := some "bob" }
            s.db = some .taken ∧
          ∀ r ∈ s.db.users.rows, r.jid = Sample.alice.toBare.toString)) = true := by
      decide +kernel
    obtain ⟨s, hs, hfacts⟩ := (Option.any_eq_true _ _).mp hexec
    obtain ⟨htaken, hrows⟩ := of_decide_eq_true hfacts
    obtain ⟨tr, hrun, htr⟩ := Machine.exists_run_of_exec (Sample.init_empty _) hs
    refine ⟨tr, s, hrun, htr, fun hother => ?_⟩
    obtain ⟨username, -, r, hr, hjid, -⟩ := hother htaken
    exact hjid (hrows r hr)

end Spectrum.Registration
