import Mathlib.Data.List.Induction
import Spectrum.Purple.Model

/-!
# The accounts of the users

* `exclusive_of_run`: no two users ever use one account, and what an account reports reaches the user
  who uses it;
* `rightful_iff_settled`: an account is refused to a user only because someone uses it, in exactly
  the runs in which nobody changes his account without a logout and no account is heard of that nobody
  uses;
* `prompted_iff_answerable`: what a user answers goes to the account that he is logged in with, in
  exactly the runs in which no question is left open by a logout or a login.
-/

namespace Spectrum.Purple

open Lib

variable {env : Env} {s s' : State} {user u v legacyName : String} {a : AccountId}

/-! ## What the functions do to the two maps -/

/-- The callback reads the user of its account. -/
def Callback.looksUp : Callback → Bool
  | .requestClose _ => false
  | .requestInput _ primary _ => (ownAnswer primary).isNone && (prompts primary).isSome
  | _ => true

/-- The callback leaves a question open. -/
def Callback.asks : Callback → Bool
  | .requestInput _ primary _ => (ownAnswer primary).isNone && (prompts primary).isSome
  | _ => false

/-- The account that a login with a name and a protocol uses; none if it is refused. -/
def State.accountFor (env : Env) (s : State) (user name protocol : String) : Option AccountId :=
  if env.findPrpl protocol = false then none
  else if s.accountsFind env name protocol ≠ null then
    if s.isUsedByOther user (s.accountsFind env name protocol) then none
    else some (s.accountsFind env name protocol)
  else some (s.purple.length + 1)

/-- The account that a login uses. -/
def State.loginAccount (env : Env) (s : State) (user legacyName : String) : Option AccountId :=
  s.accountFor env user (getProtocolAndName env legacyName).1 (getProtocolAndName env legacyName).2

/-- Only defaults were put under keys of `m_sessions`, no account was looked up that has no user, and no
question was asked. -/
structure Quiet (s s' : State) : Prop where
  session : ∀ u, s'.session u = s.session u
  accounts : s'.accounts = s.accounts
  purple : s'.purple.length = s.purple.length
  inputs : ∀ u r, s'.inputRequests.get u = some r → s.inputRequests.get u = some r

theorem Quiet.refl (s : State) : Quiet s s := ⟨fun _ => rfl, rfl, rfl, fun _ _ => id⟩

theorem Quiet.trans {s₁ s₂ s₃ : State} (h : Quiet s₁ s₂) (h' : Quiet s₂ s₃) : Quiet s₁ s₃ :=
  ⟨fun u => (h'.session u).trans (h.session u), h'.accounts.trans h.accounts,
    h'.purple.trans h.purple, fun u r hr => h.inputs u r (h'.inputs u r hr)⟩

/-- The user of every account that a user is logged in with is that user. -/
def Held (s : State) : Prop := ∀ u a, s.session u = a → a ≠ null → s.accounts.get a = some u

/-- Every account in the maps is one of libpurple. -/
structure Known (s : State) : Prop where
  session : ∀ u, s.session u ≤ s.purple.length
  accounts : ∀ a u, s.accounts.get a = some u → null < a ∧ a ≤ s.purple.length

theorem quiet_readSession (user : String) (s : State) : Quiet s (s.readSession user) where
  session u := by
    unfold State.session State.readSession SortedMap.read
    rw [SortedMap.get_touch]
    split
    · rename_i heq
      rw [heq]
      rfl
    · rfl
  accounts := rfl
  purple := rfl
  inputs _ _ h := h

theorem Quiet.put (h : Quiet s s') (o : Output) : Quiet s (s'.put o) :=
  h.trans ⟨fun _ => rfl, rfl, rfl, fun _ _ => id⟩

/-- Looking up an account that has a user changes nothing. -/
theorem quiet_readAccount (h : s.accounts.get a = some u) : Quiet s (s.readAccount a) where
  session _ := rfl
  accounts := SortedMap.touch_of_get h
  purple := rfl
  inputs _ _ h := h

theorem Quiet.held (h : Quiet s s') (hs : Held s) : Held s' := fun u a hu ha => by
  rw [h.accounts]
  exact hs u a ((h.session u).symm.trans hu) ha

theorem Quiet.known (h : Quiet s s') (hs : Known s) : Known s' where
  session u := by
    rw [h.session, h.purple]
    exact hs.session u
  accounts a u hu := by
    rw [h.purple]
    rw [h.accounts] at hu
    exact hs.accounts a u hu

/-! ## Requests -/

/-- A request does something if there is an account; then the account has the user. -/
theorem quiet_withAccount {f : AccountId → State → State} (hs : Held s)
    (hf : ∀ s₁, Quiet s s₁ → s₁.accounts.get (s₁.session user) = some user →
      Quiet s₁ (f (s₁.session user) s₁)) : Quiet s (s.withAccount user f) := by
  have hread := quiet_readSession user s
  unfold State.withAccount
  dsimp only
  split
  · exact hread
  · rename_i hne
    exact hread.trans (hf _ hread (hread.held hs user _ rfl hne))

theorem quiet_answerAuth (answer : Nat → Output) (user buddyName : String) (s : State) :
    Quiet s (s.answerAuth answer user buddyName) := by
  unfold State.answerAuth
  cases s.authRequests.get (user ++ buddyName) with
  | none => exact .refl s
  | some req => exact ⟨fun _ => rfl, rfl, rfl, fun _ _ => id⟩

theorem quiet_notifyUserInfo (who : String) (h : s.accounts.get a = some u) :
    Quiet s (s.notifyUserInfo env a who) :=
  (quiet_readAccount h).trans ⟨fun _ => rfl, rfl, rfl, fun _ _ => id⟩

theorem quiet_readRooms (h : s.accounts.get a = some u) : Quiet s (s.readRooms a) :=
  (quiet_readAccount h).trans ⟨fun _ => rfl, rfl, rfl, fun _ _ => id⟩

theorem quiet_handleRequest (hs : Held s) (user : String) (r : Request) :
    Quiet s (s.handleRequest env user r) := by
  have hcall : ∀ c, Quiet s (s.callFor user c) := fun c =>
    quiet_withAccount hs fun s₁ _ _ => (Quiet.refl s₁).put _
  cases r with
  | typing buddyName => exact hcall _
  | typed buddyName => exact hcall _
  | stoppedTyping buddyName => exact hcall _
  | attention buddyName => exact hcall _
  | messageSend legacyName text =>
    unfold State.handleRequest State.handleMessageSendRequest
    refine quiet_withAccount hs fun s₁ _ hu => ?_
    have hrooms := quiet_readRooms hu
    dsimp only
    split
    · cases (s₁.readRooms (s₁.session user)).inputRequests.get user with
      | none => exact hrooms
      | some req =>
        refine hrooms.trans ⟨fun _ => rfl, rfl, rfl, fun u r hr => ?_⟩
        change (SortedMap.erase _ user).get u = some r at hr
        rw [SortedMap.get_erase] at hr
        split at hr
        · cases hr
        · exact hr
    · exact hrooms.put _
  | vcard legacyName requestId =>
    unfold State.handleRequest State.handleVCardRequest
    refine quiet_withAccount hs fun s₁ _ hu => ?_
    dsimp only
    have hset : Quiet s₁ { s₁ with
        vcards := s₁.vcards.set (user ++ State.vcardName env legacyName) requestId } :=
      ⟨fun _ => rfl, rfl, rfl, fun _ _ => id⟩
    split
    · exact hset.trans (quiet_notifyUserInfo _ hu)
    · exact hset.put _
  | buddyUpdated buddyName aliasName groups =>
    unfold State.handleRequest State.handleBuddyUpdatedRequest
    exact quiet_withAccount hs fun s₁ _ _ => (quiet_answerAuth _ _ _ s₁).put _
  | buddyRemoved buddyName =>
    unfold State.handleRequest State.handleBuddyRemovedRequest
    refine quiet_withAccount hs fun s₁ _ _ => ?_
    dsimp only
    split
    · exact (quiet_answerAuth _ _ _ s₁).put _
    · exact quiet_answerAuth _ _ _ s₁
  | joinRoom room =>
    unfold State.handleRequest State.handleJoinRoomRequest
    exact quiet_withAccount hs fun s₁ _ hu => (quiet_readRooms hu).put _
  | leaveRoom room =>
    unfold State.handleRequest State.handleLeaveRoomRequest
    exact quiet_withAccount hs fun s₁ _ hu => (quiet_readRooms hu).put _

/-! ## Callbacks -/

theorem touch_touch (m : SortedMap AccountId String) (a : AccountId) :
    (m.touch "" a).touch "" a = m.touch "" a := by
  have hget := SortedMap.get_touch m "" a a
  rw [if_pos rfl] at hget
  exact SortedMap.touch_of_get hget

/-- The messages with which a question is asked. -/
theorem foldl_report (texts : List String) (hne : texts ≠ []) (s : State) :
    let s' := texts.foldl (fun s text => s.report a (.message s.adminLegacyName text "")) s
    s'.sessions = s.sessions ∧ s'.accounts = s.accounts.touch "" a ∧ s'.purple = s.purple ∧
      s'.inputRequests = s.inputRequests := by
  induction texts using List.reverseRecOn with
  | nil => exact absurd rfl hne
  | append_singleton texts text ih =>
    rw [List.foldl_append]
    by_cases hnil : texts = []
    · subst hnil
      exact ⟨rfl, rfl, rfl, rfl⟩
    · obtain ⟨hs, ha, hp, hi⟩ := ih hnil
      refine ⟨hs, ?_, hp, hi⟩
      exact (congrArg (SortedMap.touch · "" a) ha).trans (touch_touch _ a)

theorem prompts_ne_nil {primary : String} {texts : List String} (h : prompts primary = some texts) :
    texts ≠ [] := by
  unfold prompts at h
  split_ifs at h <;> cases h <;> exact List.cons_ne_nil _ _

/-- What a callback does to the maps of the users. -/
structure Heard (s : State) (c : Callback) (s' : State) : Prop where
  sessions : s'.sessions = s.sessions
  accounts : s'.accounts = if c.looksUp then s.accounts.touch "" c.account else s.accounts
  purple : s'.purple = s.purple
  inputs : ∀ u r, s'.inputRequests.get u = some r →
    s.inputRequests.get u = some r ∨ c.asks = true ∧ u = s.userOf c.account ∧ r.account = c.account
  asked : c.asks = true → ∃ r, s'.inputRequests.get (s.userOf c.account) = some r ∧
    r.account = c.account
  kept : ∀ u r, s.inputRequests.get u = some r →
    s'.inputRequests.get u = some r ∨ c.asks = true ∧ u = s.userOf c.account

theorem heard_of_inputs {c : Callback} (hs : s'.sessions = s.sessions)
    (ha : s'.accounts = if c.looksUp then s.accounts.touch "" c.account else s.accounts)
    (hp : s'.purple = s.purple) (hi : s'.inputRequests = s.inputRequests) (hc : c.asks = false) :
    Heard s c s' where
  sessions := hs
  accounts := ha
  purple := hp
  inputs u r h := .inl (hi ▸ h)
  asked h := by
    rw [hc] at h
    cases h
  kept u r h := .inl (hi.symm ▸ h)

theorem heard_requestInput (account : AccountId) (primary : String) (userData : Nat) :
    Heard s (.requestInput account primary userData) (s.requestInput account primary userData) := by
  unfold State.requestInput
  cases hown : ownAnswer primary with
  | some answer =>
    exact heard_of_inputs rfl (by rw [Callback.looksUp, hown]; rfl) rfl rfl
      (by rw [Callback.asks, hown]; rfl)
  | none =>
    cases hprompts : prompts primary with
    | none =>
      exact heard_of_inputs rfl (by rw [Callback.looksUp, hown, hprompts]; rfl) rfl rfl
        (by rw [Callback.asks, hown, hprompts]; rfl)
    | some texts =>
      obtain ⟨hs, ha, hp, hi⟩ := @foldl_report account texts (prompts_ne_nil hprompts) s
      have hlooks : (Callback.requestInput account primary userData).looksUp = true := by
        rw [Callback.looksUp, hown, hprompts]
        rfl
      have hasks : (Callback.requestInput account primary userData).asks = true := by
        rw [Callback.asks, hown, hprompts]
        rfl
      have huser : State.userOf
          (texts.foldl (fun s text => s.report account (.message s.adminLegacyName text "")) s)
          account = s.userOf account := by
        unfold State.userOf SortedMap.read
        rw [ha, SortedMap.get_touch, if_pos rfl]
        rfl
      dsimp only at hs ha hp hi ⊢
      constructor
      · exact hs
      · rw [hlooks, if_pos rfl]
        exact (congrArg (SortedMap.touch · "" account) ha).trans (touch_touch _ account)
      · exact hp
      · intro u r h
        dsimp only at h
        rw [huser, hi, SortedMap.get_set] at h
        split at h
        · rename_i heq
          cases h
          exact .inr ⟨hasks, heq, rfl⟩
        · exact .inl h
      · intro _
        refine ⟨⟨userData, account, s.userOf account⟩, ?_, rfl⟩
        dsimp only [Callback.account]
        rw [huser, SortedMap.get_set_self]
      · intro u r h
        by_cases heq : u = s.userOf account
        · exact .inr ⟨hasks, heq⟩
        · refine .inl ?_
          dsimp only
          rw [huser, hi, SortedMap.get_set_of_ne heq]
          exact h

theorem heard_handleCallback (env : Env) (s : State) (c : Callback) :
    Heard s c (s.handleCallback env c) := by
  cases c with
  | requestInput account primary userData => exact heard_requestInput account primary userData
  | writeChat account conversation who text =>
    exact heard_of_inputs rfl (touch_touch _ _) rfl rfl rfl
  | _ => exact heard_of_inputs rfl rfl rfl rfl rfl

/-- While an account is disconnected it has its user, so that looking it up changes nothing. -/
theorem during_callbacks {during : List Callback} (hu : s.accounts.get a = some user)
    (hduring : ∀ c ∈ during, c.account = a) :
    let s' := during.foldl (State.handleCallback env) s
    s'.sessions = s.sessions ∧ s'.accounts = s.accounts ∧ s'.purple = s.purple ∧
      (∀ u r, s'.inputRequests.get u = some r → s.inputRequests.get u = some r ∨
        (∃ c ∈ during, c.asks = true) ∧ r.account = a) ∧
      ((∃ r, s.inputRequests.get user = some r ∧ r.account = a) ∨ (∃ c ∈ during, c.asks = true) →
        ∃ r, s'.inputRequests.get user = some r ∧ r.account = a) := by
  induction during generalizing s with
  | nil => exact ⟨rfl, rfl, rfl, fun _ _ => .inl, fun h => h.elim id fun ⟨_, hc, _⟩ => by cases hc⟩
  | cons c during ih =>
    have hc := heard_handleCallback env s c
    have haccount := hduring c List.mem_cons_self
    have hsame : (s.handleCallback env c).accounts = s.accounts := by
      rw [hc.accounts, haccount, SortedMap.touch_of_get hu]
      split <;> rfl
    have huser : s.userOf a = user := by
      unfold State.userOf SortedMap.read
      rw [hu]
      rfl
    obtain ⟨hs, ha, hp, hi, hopen⟩ := ih (hsame ▸ hu) fun d hd => hduring d (List.mem_cons_of_mem _ hd)
    refine ⟨hs.trans hc.sessions, ha.trans hsame, hp.trans hc.purple, fun u r h => ?_, fun h => ?_⟩
    · rcases hi u r h with h | ⟨⟨d, hd, hasks⟩, hr⟩
      · rcases hc.inputs u r h with h | ⟨hasks, -, hr⟩
        · exact .inl h
        · exact .inr ⟨⟨c, List.mem_cons_self, hasks⟩, hr.trans haccount⟩
      · exact .inr ⟨⟨d, List.mem_cons_of_mem _ hd, hasks⟩, hr⟩
    · have hasked : c.asks = true → ∃ r, (s.handleCallback env c).inputRequests.get user = some r ∧
          r.account = a := fun hasks => by
        have := hc.asked hasks
        rwa [haccount, huser] at this
      apply hopen
      rcases h with ⟨r, hr, hra⟩ | ⟨d, hd, hasks⟩
      · rcases hc.kept user r hr with hr' | ⟨hasks, -⟩
        · exact .inl ⟨r, hr', hra⟩
        · exact .inl (hasked hasks)
      · rcases List.mem_cons.mp hd with rfl | hd
        · exact .inl (hasked hasks)
        · exact .inr ⟨d, hd, hasks⟩

/-! ## Logins and logouts -/

/-- The account is entered in both maps. -/
structure Entered (s : State) (user : String) (a : AccountId) (s' : State) : Prop where
  sessions : s'.sessions = s.sessions.set user a
  accounts : s'.accounts = s.accounts.set a user
  inputs : s'.inputRequests = s.inputRequests
  purple : s'.purple.length = s.purple.length

theorem entered_useAccount (env : Env) (s : State) (user password protocol : String) (a : AccountId)
    (newAccount : Bool) :
    Entered s user a (s.useAccount env user password protocol a newAccount) := by
  unfold State.useAccount
  dsimp only
  split <;> exact ⟨rfl, rfl, rfl, List.length_modify ..⟩

theorem accountsFind_le (env : Env) (s : State) (name protocol : String) :
    s.accountsFind env name protocol ≤ s.purple.length := by
  unfold State.accountsFind
  cases hfind : env.accountsFind s.purple name protocol with
  | some i => exact env.accountsFind_lt _ _ _ i hfind
  | none => exact Nat.zero_le _

/-- A refused login changes neither map. -/
theorem quiet_logIn {name protocol : String} (h : s.accountFor env user name protocol = none)
    (password : String) : Quiet s (s.logIn env user name protocol password) := by
  unfold State.accountFor at h
  unfold State.logIn
  dsimp only
  split_ifs at h ⊢ with hfind hfound hother
  · exact (Quiet.refl s).put _
  · exact (Quiet.refl s).put _

/-- A login that is not refused enters its account: one that is known, or a new one. -/
theorem entered_logIn {name protocol : String} (h : s.accountFor env user name protocol = some a)
    (password : String) :
    ∃ s₁, Entered s₁ user a (s.logIn env user name protocol password) ∧
      s₁.sessions = s.sessions ∧ s₁.accounts = s.accounts ∧ s₁.inputRequests = s.inputRequests ∧
      null < a ∧ (s₁.purple = s.purple ∧ a ≤ s.purple.length ∧ s.isUsedByOther user a = false ∨
        s₁.purple.length = s.purple.length + 1 ∧ a = s.purple.length + 1) := by
  unfold State.accountFor at h
  unfold State.logIn
  dsimp only
  split_ifs at h ⊢ with hfind hfound hother
  · cases h
    exact ⟨s, entered_useAccount env s user password protocol _ false, rfl, rfl, rfl,
      Nat.pos_of_ne_zero hfound, .inl ⟨rfl, accountsFind_le env s _ _, Bool.eq_false_iff.mpr hother⟩⟩
  · cases h
    exact ⟨_, entered_useAccount env _ user password protocol _ true, rfl, rfl, rfl, Nat.succ_pos _,
      .inr ⟨List.length_append .., rfl⟩⟩

/-- What a logout does for a user who has an account. -/
structure Left (s : State) (user : String) (during : List Callback) (s' : State) : Prop where
  sessions : ∀ u, s'.session u = if u = user then null else s.session u
  accounts : s'.accounts = s.accounts.erase (s.session user)
  purple : s'.purple.length = s.purple.length
  inputs : ∀ u r, s'.inputRequests.get u = some r → s.inputRequests.get u = some r ∨
    (∃ c ∈ during, c.asks = true) ∧ r.account = s.session user
  opened : (∃ r, s.inputRequests.get user = some r ∧ r.account = s.session user) ∨
      (∃ c ∈ during, c.asks = true) →
    ∃ r, s'.inputRequests.get user = some r ∧ r.account = s.session user

theorem left_logout {during : List Callback} (hs : Held s) (hne : s.session user ≠ null)
    (hduring : ∀ c ∈ during, c.account = s.session user) :
    Left s user during (s.handleLogoutRequest env user during) := by
  have hread := quiet_readSession user s
  have huser := (hread.held hs) user _ rfl (by rwa [hread.session])
  have hsame : (s.readSession user).session user = s.session user := hread.session user
  rw [hsame] at huser
  unfold State.handleLogoutRequest State.withAccount
  dsimp only
  rw [hsame, if_neg hne]
  obtain ⟨hsess, hacc, hp, hi, hopen⟩ := @during_callbacks env
    ({ s.readSession user with sessions := (s.readSession user).sessions.erase user }.put
      (.call (s.session user) .disconnect)) user (s.session user) during huser hduring
  constructor
  · intro u
    refine (congrArg (SortedMap.read · null u) hsess).trans ?_
    change (((s.readSession user).sessions.erase user).get u).getD null = _
    rw [SortedMap.get_erase]
    split
    · rfl
    · exact hread.session u
  · dsimp only [State.modifyAccount]
    rw [hacc]
    rfl
  · dsimp only [State.modifyAccount]
    rw [List.length_modify, hp]
    rfl
  · exact hi
  · exact hopen

/-! ## What holds in every run -/

structure Sound (s : State) : Prop where
  held : Held s
  known : Known s

theorem session_set (h : s'.sessions = s.sessions.set user a) (u : String) :
    s'.session u = if u = user then a else s.session u := by
  unfold State.session SortedMap.read
  rw [h, SortedMap.get_set]
  split <;> rfl

/-- A login keeps the maps sound: its account is new, or it has no other user. -/
theorem sound_login {name protocol : String} (h : Sound s) (password : String) :
    Sound (s.logIn env user name protocol password) := by
  cases haccount : s.accountFor env user name protocol with
  | none =>
    have hq := quiet_logIn haccount password
    exact ⟨hq.held h.held, hq.known h.known⟩
  | some a =>
    obtain ⟨s₁, he, hsess, hacc, -, hpos, hcase⟩ := entered_logIn haccount password
    have hbound : s.purple.length ≤ s₁.purple.length ∧ a ≤ s₁.purple.length := by
      rcases hcase with ⟨hp, hle, -⟩ | ⟨hp, rfl⟩
      · rw [hp]
        exact ⟨le_rfl, hle⟩
      · exact ⟨hp ▸ Nat.le_succ _, hp.ge⟩
    have hsession := @session_set s _ user a (he.sessions.trans (congrArg (·.set user a) hsess))
    have haccounts := he.accounts.trans (congrArg (·.set a user) hacc)
    refine ⟨fun u b hu hb => ?_, fun u => ?_, fun b u hu => ?_⟩
    · rw [hsession] at hu
      rw [haccounts, SortedMap.get_set]
      split at hu
      · rename_i heq
        rw [if_pos hu.symm, heq]
      · rename_i hne
        have hold := h.held u b hu hb
        -- the account is not the one of another user
        rw [if_neg, hold]
        rintro rfl
        rcases hcase with ⟨-, -, hother⟩ | ⟨-, hnew⟩
        · rw [State.isUsedByOther, hold, Option.any_some, bne_eq_false_iff_eq] at hother
          exact hne hother
        · exact absurd (h.known.accounts b u hold).2 (hnew ▸ Nat.not_succ_le_self _)
    · rw [he.purple, hsession]
      split
      · exact hbound.2
      · exact (h.known.session u).trans hbound.1
    · rw [haccounts, SortedMap.get_set] at hu
      rw [he.purple]
      split at hu
      · rename_i heq
        rw [heq]
        exact ⟨hpos, hbound.2⟩
      · exact (h.known.accounts b u hu).imp id (·.trans hbound.1)

theorem sound_callback {c : Callback} (h : Sound s) (hpos : null < c.account)
    (hle : c.account ≤ s.purple.length) : Sound (s.handleCallback env c) := by
  have hc := heard_handleCallback env s c
  have hsession : ∀ u, (s.handleCallback env c).session u = s.session u := fun u =>
    congrArg (SortedMap.read · null u) hc.sessions
  refine ⟨fun u a hu ha => ?_, fun u => ?_, fun a u hu => ?_⟩
  · have hold := h.held u a ((hsession u).symm.trans hu) ha
    rw [hc.accounts]
    split
    · rw [SortedMap.get_touch]
      split
      · rename_i heq
        rw [SortedMap.read, ← heq, hold]
        rfl
      · exact hold
    · exact hold
  · rw [hsession, hc.purple]
    exact h.known.session u
  · rw [hc.purple]
    rw [hc.accounts] at hu
    split at hu
    · rw [SortedMap.get_touch] at hu
      split at hu
      · rename_i heq
        rw [heq]
        exact ⟨hpos, hle⟩
      · exact h.known.accounts a u hu
    · exact h.known.accounts a u hu

theorem quiet_logout (hnull : s.session user = null) (during : List Callback) :
    Quiet s (s.handleLogoutRequest env user during) := by
  have hread := quiet_readSession user s
  unfold State.handleLogoutRequest State.withAccount
  dsimp only
  rw [if_pos ((hread.session user).trans hnull)]
  exact hread

theorem sound_logout {during : List Callback} (h : Sound s)
    (hduring : ∀ c ∈ during, c.account = s.session user) :
    Sound (s.handleLogoutRequest env user during) := by
  by_cases hne : s.session user = null
  · have hq : Quiet s (s.handleLogoutRequest env user during) := quiet_logout hne during
    exact ⟨hq.held h.held, hq.known h.known⟩
  · have hl := @left_logout env s user during h.held hne hduring
    refine ⟨fun u a hu ha => ?_, fun u => ?_, fun a u hu => ?_⟩
    · rw [hl.sessions] at hu
      split at hu
      · exact absurd hu.symm ha
      · rename_i hother
        have hold := h.held u a hu ha
        rw [hl.accounts, SortedMap.get_erase, if_neg, hold]
        rintro rfl
        rw [h.held user _ rfl hne] at hold
        exact hother (Option.some_inj.mp hold).symm
    · rw [hl.sessions, hl.purple]
      split
      · exact Nat.zero_le _
      · exact h.known.session u
    · rw [hl.purple]
      rw [hl.accounts, SortedMap.get_erase] at hu
      split at hu
      · cases hu
      · exact h.known.accounts a u hu

theorem sound_step {e : Event} (hs : step env s e = some s') (h : Sound s) : Sound s' := by
  cases e with
  | login user legacyName password =>
    cases hs
    exact @sound_login env (s.setAdminName (getProtocolAndName env legacyName).2) user _ _
      ⟨h.held, h.known.session, h.known.accounts⟩ password
  | logout user during =>
    simp only [step] at hs
    split at hs
    · rename_i hduring
      cases hs
      exact sound_logout h hduring
    · cases hs
  | request user r =>
    cases hs
    have hq := @quiet_handleRequest env s h.held user r
    exact ⟨hq.held h.held, hq.known h.known⟩
  | callback c =>
    simp only [step] at hs
    split at hs
    · rename_i hc
      cases hs
      exact sound_callback h hc.1 hc.2
    · cases hs

theorem sound_init (h : Fresh s) : Sound s := by
  obtain ⟨stored, rfl⟩ := h
  exact ⟨fun _ _ hu ha => absurd hu.symm ha, fun _ => Nat.zero_le _, fun _ _ h => by cases h⟩

variable {tr : List (State × Event)}

/-- Whatever was asked and heard, no two users use one account, and what the account of a user reports
is reported to that user. -/
theorem exclusive_of_run (h : (machine env).Run tr s) (user : String) (hne : s.session user ≠ null) :
    s.userOf (s.session user) = user ∧ ∀ u, s.session u = s.session user → u = user := by
  have hs : Sound s := h.invariant (fun _ => sound_init) (fun _ _ _ hs => sound_step hs)
  have huser := hs.held user _ rfl hne
  refine ⟨?_, fun u hu => ?_⟩
  · unfold State.userOf SortedMap.read
    rw [huser]
    rfl
  · have hsame := hs.held u _ hu hne
    rw [huser] at hsame
    exact (Option.some_inj.mp hsame).symm

/-! ## Who an account is refused for -/

/-- Every account that has a user is used by him. -/
def Owned (s : State) : Prop := ∀ a u, s.accounts.get a = some u → s.session u = a

/-- Nobody who is logged in changes to another account, and no account is looked up without a user. -/
def Settled (env : Env) (s : State) : Event → Prop
  | .login user legacyName _ => ∀ a, s.loginAccount env user legacyName = some a →
      s.session user = null ∨ s.session user = a
  | .callback c => c.looksUp = true → (s.accounts.get c.account).isSome = true
  | _ => True

theorem owned_of_quiet (hq : Quiet s s') : Owned s' ↔ Owned s := by
  unfold Owned
  rw [hq.accounts]
  simp only [hq.session]

/-- A user who is logged in and changes his account leaves the other one with a user who does not use
it. -/
theorem owned_login {name protocol : String} (h : Sound s) (hr : Owned s) (password : String) :
    Owned (s.logIn env user name protocol password) ↔
      ∀ a, s.accountFor env user name protocol = some a →
        s.session user = null ∨ s.session user = a := by
  cases haccount : s.accountFor env user name protocol with
  | none => simp only [owned_of_quiet (quiet_logIn haccount password), hr, reduceCtorEq,
      false_implies, implies_true]
  | some a =>
    obtain ⟨s₁, he, hsess, hacc, -, hpos, -⟩ := entered_logIn haccount password
    have hsession := @session_set s _ user a (he.sessions.trans (congrArg (·.set user a) hsess))
    have haccounts := he.accounts.trans (congrArg (·.set a user) hacc)
    simp only [Option.some_inj, forall_eq']
    constructor
    · intro hr'
      by_contra hnot
      obtain ⟨hne, hother⟩ := not_or.mp hnot
      have hold := h.held user _ rfl hne
      have := hr' (s.session user) user (by rw [haccounts, SortedMap.get_set_of_ne hother, hold])
      rw [hsession, if_pos rfl] at this
      exact hother this.symm
    · intro hsettled b u hu
      rw [haccounts, SortedMap.get_set] at hu
      rw [hsession]
      split at hu
      · rename_i heq
        cases hu
        rw [if_pos rfl, heq]
      · rename_i hb
        have hold := hr b u hu
        rw [if_neg, hold]
        rintro rfl
        rcases hsettled with hnull | hsame
        · have := (h.known.accounts b u hu).1
          rw [← hold, hnull] at this
          exact absurd this (Nat.lt_irrefl _)
        · exact hb (hold.symm.trans hsame)

theorem owned_callback {c : Callback} (h : Sound s) (hr : Owned s) (hpos : null < c.account) :
    Owned (s.handleCallback env c) ↔
      (c.looksUp = true → (s.accounts.get c.account).isSome = true) := by
  have hc := heard_handleCallback env s c
  have hsession : ∀ u, (s.handleCallback env c).session u = s.session u := fun u =>
    congrArg (SortedMap.read · null u) hc.sessions
  constructor
  · intro hr' hlooks
    by_contra hnone
    have hget : s.accounts.get c.account = none := Option.not_isSome_iff_eq_none.mp hnone
    have hempty := hr' c.account "" (by
      rw [hc.accounts, if_pos hlooks, SortedMap.get_touch, if_pos rfl, SortedMap.read, hget]
      rfl)
    -- the empty user would have had the account before
    have := h.held "" c.account ((hsession "").symm.trans hempty) hpos.ne'
    rw [hget] at this
    cases this
  · intro hlooks a u hu
    rw [hsession]
    rw [hc.accounts] at hu
    split at hu
    · rename_i hl
      obtain ⟨v, hv⟩ := Option.isSome_iff_exists.mp (hlooks hl)
      rw [SortedMap.touch_of_get hv] at hu
      exact hr a u hu
    · exact hr a u hu

theorem owned_logout {during : List Callback} (h : Sound s) (hr : Owned s)
    (hduring : ∀ c ∈ during, c.account = s.session user) :
    Owned (s.handleLogoutRequest env user during) := by
  by_cases hne : s.session user = null
  · exact (owned_of_quiet (quiet_logout hne during)).mpr hr
  · have hl := @left_logout env s user during h.held hne hduring
    intro a u hu
    rw [hl.accounts, SortedMap.get_erase] at hu
    rw [hl.sessions]
    split at hu
    · cases hu
    · rename_i hother
      have hold := hr a u hu
      rw [if_neg, hold]
      rintro rfl
      exact hother hold.symm

theorem owned_step {e : Event} (hs : step env s e = some s') (h : Sound s) (hr : Owned s) :
    Owned s' ↔ Settled env s e := by
  cases e with
  | login user legacyName password =>
    cases hs
    exact @owned_login env (s.setAdminName (getProtocolAndName env legacyName).2) user _ _
      ⟨h.held, h.known.session, h.known.accounts⟩ hr password
  | logout user during =>
    simp only [step] at hs
    split at hs
    · rename_i hduring
      cases hs
      exact iff_of_true (owned_logout h hr hduring) trivial
    · cases hs
  | request user r =>
    cases hs
    exact iff_of_true ((owned_of_quiet (quiet_handleRequest h.held user r)).mpr hr) trivial
  | callback c =>
    simp only [step] at hs
    split at hs
    · rename_i hc
      cases hs
      exact owned_callback h hr hc.1
    · cases hs

/-- An account that is refused to a user is used by someone else. -/
def Rightful (s : State) : Prop := ∀ user a, s.isUsedByOther user a = true →
  ∃ u, u ≠ user ∧ s.session u = a

theorem rightful_iff_owned (h : Sound s) : Rightful s ↔ Owned s := by
  constructor
  · intro hr a u hu
    -- some other user would be refused the account
    obtain ⟨user, hne⟩ : ∃ user, user ≠ u := by
      by_cases hempty : u = ""
      · exact ⟨"a", hempty ▸ by decide⟩
      · exact ⟨"", Ne.symm hempty⟩
    obtain ⟨v, -, hv⟩ := hr user a (by rw [State.isUsedByOther, hu]; exact bne_iff_ne.mpr hne.symm)
    have hsame := h.held v a hv (h.known.accounts a u hu).1.ne'
    rw [hu, Option.some_inj] at hsame
    rw [hsame, hv]
  · intro ho user a hused
    obtain ⟨u, hu, hne⟩ := (Option.any_eq_true _ _).mp hused
    exact ⟨u, bne_iff_ne.mp hne, ho a u hu⟩

/-- An account is refused to a user only because someone else uses it, in exactly the runs in which
nobody who is logged in changes his account and no account is looked up that nobody uses. -/
theorem rightful_iff_settled (h : (machine env).Run tr s) :
    Machine.Always Rightful tr s ↔ Machine.Meets (Settled env) tr := by
  refine h.always_iff (I := fun s => Sound s ∧ Owned s)
    (fun s hinit => ⟨sound_init hinit, ?_⟩) (fun _ hI => (rightful_iff_owned hI.1).mpr hI.2)
    (fun s e s' hs hI hC => ⟨sound_step hs hI.1, (owned_step hs hI.1 hI.2).mpr hC⟩)
    (fun s e s' hs hI hP => (owned_step hs hI.1 hI.2).mp
      ((rightful_iff_owned (sound_step hs hI.1)).mp hP))
  obtain ⟨stored, rfl⟩ := hinit
  exact fun _ _ hu => by cases hu

/-! ## Whose question is answered -/

/-- A question that is open for a user is one of the account that he is logged in with. -/
def Prompted (s : State) : Prop :=
  ∀ u r, s.inputRequests.get u = some r → r.account ≠ null ∧ s.session u = r.account

/-- No question is open when a user leaves its account, and none is asked by an account that its user
has left. -/
def Answerable (env : Env) (s : State) : Event → Prop
  | .login user legacyName _ => ∀ a, s.loginAccount env user legacyName = some a →
      ∀ r, s.inputRequests.get user = some r → r.account = a
  | .logout user during => s.session user ≠ null →
      s.inputRequests.get user = none ∧ ∀ c ∈ during, c.asks = false
  | .callback c => c.asks = true → s.session (s.userOf c.account) = c.account
  | .request .. => True

theorem prompted_of_quiet (hq : Quiet s s') (h : Prompted s) : Prompted s' := fun u r hr => by
  rw [hq.session]
  exact h u r (hq.inputs u r hr)

theorem prompted_login {name protocol : String} (hp : Prompted s) (password : String) :
    Prompted (s.logIn env user name protocol password) ↔
      ∀ a, s.accountFor env user name protocol = some a →
        ∀ r, s.inputRequests.get user = some r → r.account = a := by
  cases haccount : s.accountFor env user name protocol with
  | none => simp only [prompted_of_quiet (quiet_logIn haccount password) hp, reduceCtorEq,
      false_implies, implies_true]
  | some a =>
    obtain ⟨s₁, he, hsess, -, hinputs, -, -⟩ := entered_logIn haccount password
    have hsession := @session_set s _ user a (he.sessions.trans (congrArg (·.set user a) hsess))
    unfold Prompted
    rw [he.inputs, hinputs]
    simp only [Option.some_inj, forall_eq', hsession]
    constructor
    · intro hp' r hr
      have := (hp' user r hr).2
      rw [if_pos rfl] at this
      exact this.symm
    · intro hanswer u r hr
      refine ⟨(hp u r hr).1, ?_⟩
      split
      · rename_i heq
        subst heq
        exact (hanswer r hr).symm
      · exact (hp u r hr).2

theorem prompted_callback {c : Callback} (hp : Prompted s) (hpos : null < c.account) :
    Prompted (s.handleCallback env c) ↔
      (c.asks = true → s.session (s.userOf c.account) = c.account) := by
  have hc := heard_handleCallback env s c
  have hsession : ∀ u, (s.handleCallback env c).session u = s.session u := fun u =>
    congrArg (SortedMap.read · null u) hc.sessions
  constructor
  · intro hp' hasks
    obtain ⟨r, hr, haccount⟩ := hc.asked hasks
    have hsame := (hp' _ r hr).2
    rwa [hsession, haccount] at hsame
  · intro hasks u r hr
    rw [hsession]
    rcases hc.inputs u r hr with hold | ⟨ha, rfl, haccount⟩
    · exact hp u r hold
    · rw [haccount]
      exact ⟨hpos.ne', hasks ha⟩

theorem prompted_logout {during : List Callback} (h : Sound s) (hp : Prompted s)
    (hduring : ∀ c ∈ during, c.account = s.session user) :
    Prompted (s.handleLogoutRequest env user during) ↔ (s.session user ≠ null →
      s.inputRequests.get user = none ∧ ∀ c ∈ during, c.asks = false) := by
  by_cases hne : s.session user = null
  · exact iff_of_true (prompted_of_quiet (quiet_logout hne during) hp) fun hnot => absurd hne hnot
  · have hl := @left_logout env s user during h.held hne hduring
    constructor
    · intro hp' _
      have hclosed : ∀ r, (s.handleLogoutRequest env user during).inputRequests.get user = some r →
          r.account = s.session user → False := fun r hr haccount => by
        have := (hp' user r hr).2
        rw [hl.sessions, if_pos rfl, haccount] at this
        exact hne this.symm
      constructor
      · by_contra hopen
        obtain ⟨r, hr⟩ := Option.ne_none_iff_exists'.mp hopen
        obtain ⟨r', hr', haccount⟩ := hl.opened (.inl ⟨r, hr, (hp user r hr).2.symm⟩)
        exact hclosed r' hr' haccount
      · intro c hc
        by_contra hasks
        obtain ⟨r', hr', haccount⟩ := hl.opened (.inr ⟨c, hc, Bool.not_eq_false _ ▸ hasks⟩)
        exact hclosed r' hr' haccount
    · intro hquiet u r hr
      obtain ⟨hnone, hasks⟩ := hquiet hne
      rcases hl.inputs u r hr with hold | ⟨⟨c, hc, ha⟩, -⟩
      · rw [hl.sessions, if_neg]
        · exact hp u r hold
        · rintro rfl
          rw [hnone] at hold
          cases hold
      · rw [hasks c hc] at ha
        cases ha

theorem prompted_step {e : Event} (hs : step env s e = some s') (h : Sound s) (hp : Prompted s) :
    Prompted s' ↔ Answerable env s e := by
  cases e with
  | login user legacyName password =>
    cases hs
    exact @prompted_login env (s.setAdminName (getProtocolAndName env legacyName).2) user _ _ hp
      password
  | logout user during =>
    simp only [step] at hs
    split at hs
    · rename_i hduring
      cases hs
      exact prompted_logout h hp hduring
    · cases hs
  | request user r =>
    cases hs
    exact iff_of_true (prompted_of_quiet (quiet_handleRequest h.held user r) hp) trivial
  | callback c =>
    simp only [step] at hs
    split at hs
    · rename_i hc
      cases hs
      exact prompted_callback hp hc.1
    · cases hs

/-- The question that the next message of a user to the transport's contact answers was asked by the
account that he is logged in with, in exactly the runs in which no question is open when its user logs
out or changes his account and no account asks one that its user has left. -/
theorem prompted_iff_answerable (h : (machine env).Run tr s) :
    Machine.Always Prompted tr s ↔ Machine.Meets (Answerable env) tr := by
  refine h.always_iff (I := fun s => Sound s ∧ Prompted s)
    (fun s hinit => ⟨sound_init hinit, ?_⟩) (fun _ hI => hI.2)
    (fun s e s' hs hI hC => ⟨sound_step hs hI.1, (prompted_step hs hI.1 hI.2).mpr hC⟩)
    (fun s e s' hs hI hP => (prompted_step hs hI.1 hI.2).mp hP)
  obtain ⟨stored, rfl⟩ := hinit
  exact fun _ _ hr => by cases hr

namespace Sample

/-- The first account with the protocol and the name is found. -/
def discord : Env where
  protocol := "prpl-eionrobb-discord"
  findPrpl := fun protocol => protocol == "prpl-eionrobb-discord"
  accountsFind := fun accounts name protocol =>
    accounts.findIdx? fun a => a.protocolId == protocol && a.username == name
  accountsFind_lt := fun _ _ _ _ h => (List.findIdx?_eq_some_iff_getElem.mp h).1
  accountNew := fun name protocol => { username := name, protocolId := protocol }
  normalize := fun _ name => name
  toLower := id

/-- Nothing is stored yet. -/
theorem fresh_started : (machine discord).init {} := ⟨[], rfl⟩

def juliet : String := "juliet@capulet.lit"

def romeo : String := "romeo@montague.lit"

/-- Two users, each with an account. -/
def apart : List Event := [.login juliet "capulet" "secret", .login romeo "capulet" "guess",
  .login romeo "montague" "secret", .request juliet (.messageSend "nurse" "hello")]

/-- The plugin asks for a code. -/
def asked : List Event := [.login juliet "capulet" "secret",
  .callback (.requestInput 1 "Enter Discord auth code" 7)]

end Sample

theorem exclusive_of_run_apart : ∃ tr s, (machine Sample.discord).Run tr s ∧
    s.session Sample.juliet = 1 ∧ s.session Sample.romeo = 2 ∧
    s.userOf (s.session Sample.juliet) = Sample.juliet ∧
    ∀ u, s.session u = s.session Sample.juliet → u = Sample.juliet := by
  have hexec : ((machine Sample.discord).exec {} Sample.apart).any (fun s => decide (
      s.session Sample.juliet = 1 ∧ s.session Sample.romeo = 2)) = true := by
    decide +kernel
  obtain ⟨s, hs, hall⟩ := (Option.any_eq_true _ _).mp hexec
  obtain ⟨tr, hrun, -⟩ := Machine.exists_run_of_exec Sample.fresh_started hs
  obtain ⟨hjuliet, hromeo⟩ := of_decide_eq_true hall
  have hne : s.session Sample.juliet ≠ null := by
    rw [hjuliet]
    decide
  exact ⟨tr, s, hrun, hjuliet, hromeo, exclusive_of_run hrun Sample.juliet hne⟩

/-- The account that a user has changed for another one is refused to everyone else. -/
theorem rightful_iff_settled_changed : ∃ tr s, (machine Sample.discord).Run tr s ∧
    ¬Machine.Always Rightful tr s := by
  have hexec : ((machine Sample.discord).exec {} Sample.apart).any (fun s => decide (
      s.session Sample.juliet = 1 ∧
      s.loginAccount Sample.discord Sample.juliet "nurse" = some 3)) = true := by
    decide +kernel
  obtain ⟨s, hs, hall⟩ := (Option.any_eq_true _ _).mp hexec
  obtain ⟨tr, hrun, -⟩ := Machine.exists_run_of_exec Sample.fresh_started hs
  obtain ⟨hjuliet, haccount⟩ := of_decide_eq_true hall
  have hstep : (machine Sample.discord).step s (.login Sample.juliet "nurse" "secret") =
      some (s.handleLoginRequest Sample.discord Sample.juliet "nurse" "secret") := rfl
  have hrun' := hrun.step hstep
  refine ⟨_, _, hrun', fun halways => ?_⟩
  have hmeets := (rightful_iff_settled hrun').mp halways
  have hsettled := (Machine.meets_cons.mp hmeets).1 3 haccount
  rw [hjuliet] at hsettled
  exact absurd hsettled (by decide)

/-- The question of an account that its user has left stays open. -/
theorem prompted_iff_answerable_asked : ∃ tr s, (machine Sample.discord).Run tr s ∧
    ¬Machine.Always Prompted tr s := by
  have hexec : ((machine Sample.discord).exec {} Sample.asked).any (fun s => decide (
      s.session Sample.juliet = 1 ∧
      (s.inputRequests.get Sample.juliet).isSome = true)) = true := by
    decide +kernel
  obtain ⟨s, hs, hall⟩ := (Option.any_eq_true _ _).mp hexec
  obtain ⟨tr, hrun, -⟩ := Machine.exists_run_of_exec Sample.fresh_started hs
  obtain ⟨hjuliet, hopen⟩ := of_decide_eq_true hall
  have hstep : (machine Sample.discord).step s (.logout Sample.juliet []) =
      some (s.handleLogoutRequest Sample.discord Sample.juliet []) := by
    simp [machine, step]
  have hrun' := hrun.step hstep
  refine ⟨_, _, hrun', fun halways => ?_⟩
  have hmeets := (prompted_iff_answerable hrun').mp halways
  have hclosed := (Machine.meets_cons.mp hmeets).1 (by rw [hjuliet]; decide)
  rw [hclosed.1] at hopen
  cases hopen

end Spectrum.Purple
