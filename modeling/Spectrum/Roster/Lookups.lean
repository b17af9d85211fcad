import Spectrum.Roster.Queue

/-!
# Lookups in the roster

A lookup of an unknown name leaves the entry `NULL` behind. The loops over the roster pass over these
entries, except the one of the full roster push, which follows the pointer.
-/

namespace Spectrum.Roster

open Lib Storage

/-! ## The full roster push -/

/-- The user to whom a push goes: his bare JID, his resources, and whether he is not connected or his
messages are cached. -/
structure Recipient where
  bare : String
  resources : List String := []
  offline : Bool := false
  deriving Repr

/-- A `SetRosterRequest` with one item, whose JID is made from the name of the buddy. -/
structure Push where
  jid : String
  name : String
  aliasName : String
  groups : List String
  deriving DecidableEq, Repr

def Buddy.push (b : Buddy) (jid : String) : Push := ⟨jid, b.data.name, b.data.aliasName, b.data.groups⟩

namespace State

variable (env : Env) (u : Recipient) (s : State)

/-- `XMPPRosterManager::sendBuddyRosterPush`. -/
def sendBuddyRosterPush (buddy : Option Nat) : Option (State × List Push) :=
  if env.serverMode && u.offline then some (s, [])
  else
    buddy.bind fun p => (s.heap p).bind fun b =>
      let requests := if env.serverMode then u.resources.map b.push else [b.push u.bare]
      if b.data.ask then
        ((s.change p fun d => { d with ask := false }).storeBuddy p).map fun s => (s, requests)
      else some (s, requests)

/-- The loop over the roster. -/
def pushAll : List (String × Option Nat) → State → Option (State × List Push)
  | [], s => some (s, [])
  | e :: rest, s =>
    (s.sendBuddyRosterPush env u e.2).bind fun r =>
      (pushAll rest r.1).map fun r' => (r'.1, r.2 ++ r'.2)

/-- `XMPPRosterManager::handleRemoteRosterResponse`: an empty remote roster is filled. -/
def handleRemoteRosterResponse (error : Bool) (items : List String) : Option (State × List Push) :=
  if error then some (s, [])
  else if s.buddies.entries ≠ [] ∧ items = [] then s.pushAll env u s.buddies.entries
  else some (s, [])

end State

/-! ## Entries -/

/-- Every entry of the roster is a buddy under the lower-cased name of his. -/
def Listed (env : Env) (s : State) : Prop :=
  ∀ e ∈ s.buddies.entries, ∃ p b, e.2 = some p ∧ s.heap p = some b ∧ env.lower b.data.name = e.1

/-- The full push to a user of the gateway sends the data of every entry once. -/
def PushesAll (env : Env) (s : State) : Prop :=
  (s.buddies.entries.map Prod.snd).Nodup ∧
  ∀ u, ∃ s' pushes, s.handleRemoteRosterResponse env u false [] = some (s', pushes) ∧
    List.Forall₂ (fun e push => ∃ p b, e.2 = some p ∧ s.heap p = some b ∧ push = b.push u.bare)
      s.buddies.entries pushes

/-- There is no entry `NULL`. -/
def NoNull (s : State) : Prop := ∀ k, s.buddies.get k ≠ some none

def Known (env : Env) (s : State) (name : String) : Prop := s.buddies.get (env.lower name) ≠ none

instance (env : Env) (s : State) (name : String) : Decidable (Known env s name) :=
  inferInstanceAs (Decidable (¬ _))

/-- The names that the step looks up are known, or it sets a buddy with the name. -/
def LooksUpKnown (env : Env) (s : State) : Event → Prop
  | .getBuddy name => Known env s name
  | .setBuddy _ _ => True
  | .storeBuddy name _ => Known env s name
  | .handleBuddyPayload name _ => Known env s name
  | .removeBuddy name => Known env s (env.lower name)
  | .handleSubscription name type _ _ =>
    if Known env s name then
      type = .unsubscribe ∨ type = .unsubscribed → Known env s (env.lower name)
    else name ≠ "" ∧ (type = .subscribe ∨ type = .subscribed ∧ env.serverMode = false)
  | .tick => True
  | .destroy => True

instance (env : Env) (s : State) (e : Event) : Decidable (LooksUpKnown env s e) :=
  match e with
  | .getBuddy name => inferInstanceAs (Decidable (Known env s name))
  | .setBuddy _ _ => inferInstanceAs (Decidable True)
  | .storeBuddy name _ => inferInstanceAs (Decidable (Known env s name))
  | .handleBuddyPayload name _ => inferInstanceAs (Decidable (Known env s name))
  | .removeBuddy name => inferInstanceAs (Decidable (Known env s (env.lower name)))
  | .handleSubscription name type _ _ => inferInstanceAs (Decidable (if Known env s name then
      type = .unsubscribe ∨ type = .unsubscribed → Known env s (env.lower name)
    else name ≠ "" ∧ (type = .subscribe ∨ type = .subscribed ∧ env.serverMode = false)))
  | .tick => inferInstanceAs (Decidable True)
  | .destroy => inferInstanceAs (Decidable True)

section Entries

variable {env : Env} {but : Set Nat} {s s' : State} {p : Nat} {b : Buddy} {name : String} {e : Event}

/-- A known name is found, and nothing changes. -/
theorem getBuddy_of_known (h : NoNull s) (hknown : Known env s name) :
    ∃ p, s.buddies.get (env.lower name) = some (some p) ∧ s.getBuddy env name = (s, some p) := by
  rcases getBuddy_cases env name s with ⟨p, hget, heq⟩ | ⟨hnone, -⟩
  · cases p with
    | none => exact absurd hget (h _)
    | some p => exact ⟨p, hget, heq⟩
  · exact absurd hnone hknown

/-- The lookup leaves at most the entry `NULL` for the name. -/
theorem getBuddy_buddies_of_ne {k : String} (hk : k ≠ env.lower name) :
    (s.getBuddy env name).1.buddies.get k = s.buddies.get k := by
  rcases getBuddy_cases env name s with ⟨p, -, heq⟩ | ⟨-, heq⟩
  · rw [heq]
  · rw [heq]
    exact SortedMap.get_set_of_ne hk

theorem setBuddy_buddies {pushed : Bool} (hp : s.heap p = some b)
    (hs : s.setBuddy env p pushed = some s') :
    s'.buddies = s.buddies.set (env.lower b.data.name) (some p) := by
  obtain ⟨b', s₁, hb', rfl, hs⟩ := setBuddy_eq_some hs
  rw [hp] at hb'
  cases hb'
  rcases hs with hs | ⟨s₂, hs₂, hs⟩
  · rw [storeBuddy_buddies hs]
    rfl
  · rw [storeBuddy_buddies hs, storeBuddy_buddies hs₂]
    rfl

/-- The new buddy takes the place of the entry `NULL`. -/
theorem NoNull.setNew {data : BuddyData} {pushed : Bool}
    (h : ∀ k, k ≠ env.lower data.name → s.buddies.get k ≠ some none)
    (hs : (s.alloc ⟨-1, data⟩).setBuddy env s.next pushed = some s') : NoNull s' := by
  have hself : (s.alloc ⟨-1, data⟩).heap s.next = some ⟨-1, data⟩ := if_pos rfl
  intro k
  rw [setBuddy_buddies hself hs, SortedMap.get_set]
  split
  · nofun
  · rename_i hk
    exact h k hk

theorem NoNull.removeBuddy (h : NoNull s) (hknown : Known env s (env.lower name))
    (hs : s.removeBuddy env name = some s') : NoNull s' := by
  rcases removeBuddy_cases hs with rfl | ⟨k, p, b, -, -, rfl⟩
  · obtain ⟨p, -, heq⟩ := getBuddy_of_known h hknown
    rw [heq]
    exact h
  · intro k'
    change (s.buddies.erase _).get k' ≠ some none
    rw [SortedMap.get_erase]
    split
    · nofun
    · exact h k'

theorem NoNull.of_buddies (h : NoNull s) (heq : s'.buddies = s.buddies) : NoNull s' := by
  intro k
  rw [heq]
  exact h k

/-- The legacy name of a buddy who is known is his name, and the lookup changes nothing. -/
theorem jidToLegacyName_of_known (h : NoNull s) (hsound : Sound env but s) (hknown : Known env s name)
    {s₁ : State} {legacyName : String}
    (hlegacy : s.jidToLegacyName env name = some (s₁, legacyName)) :
    s₁ = s ∧ env.lower legacyName = env.lower name := by
  obtain ⟨p, hk, hget⟩ := getBuddy_of_known h hknown
  obtain ⟨b, hb, hlower⟩ := hsound.member _ p hk
  unfold State.jidToLegacyName at hlegacy
  simp only [hget] at hlegacy
  obtain ⟨b', hb', heq⟩ := Option.bind_eq_some_iff.mp hlegacy
  rw [hb] at hb'
  cases hb'
  cases heq
  exact ⟨rfl, hlower⟩

theorem jidToLegacyName_of_unknown (hnone : (s.getBuddy env name).2 = none) {s₁ : State}
    {legacyName : String} (hlegacy : s.jidToLegacyName env name = some (s₁, legacyName)) :
    legacyName = name := by
  unfold State.jidToLegacyName at hlegacy
  simp only [hnone] at hlegacy
  cases hlegacy
  rfl

theorem NoNull.handleSubscription {type : State.Subscription} {flags : Int} {pushed : Bool}
    (h : NoNull s) (hsound : Sound env but s)
    (hC : LooksUpKnown env s (.handleSubscription name type flags pushed))
    (hs : s.handleSubscription env name type flags pushed = some s') : NoNull s' := by
  obtain ⟨s₁, legacyName, hlegacy, hcases⟩ := handleSubscription_cases hs
  have hs₁ := jidToLegacyName_fst hlegacy
  by_cases hknown : Known env s name
  · rw [LooksUpKnown, if_pos hknown] at hC
    obtain ⟨rfl, hlower⟩ := jidToLegacyName_of_known h hsound hknown hlegacy
    have hknown' : Known env s₁ legacyName := by
      rw [Known, hlower]
      exact hknown
    obtain ⟨p', -, hget'⟩ := getBuddy_of_known h hknown'
    rcases hcases with ⟨-, rfl⟩ | ⟨-, s₂, hs₂, hcases⟩
    · exact h
    · rw [hget'] at hs₂ hcases
      have hsame : s₂ = s₁ := hs₂
      subst hsame
      rcases hcases with ⟨hnone, -⟩ | ⟨hnone, -⟩ | ⟨q, c, hfound, hc, hcases⟩
      · cases hnone
      · cases hnone
      · rcases hcases with rfl | hs | ⟨htype, hs⟩
        · exact h
        · exact h.of_buddies ((storeBuddy_buddies hs).trans rfl)
        · have hq : s₂.getBuddy env legacyName = (s₂, some q) := by
            rw [hget', ← hfound]
          obtain ⟨-, hkq⟩ := getBuddy_of_some (congrArg Prod.snd hq)
          obtain ⟨c', hc', hlower'⟩ := hsound.member _ q hkq
          rw [hc] at hc'
          cases hc'
          refine h.removeBuddy ?_ hs
          rw [Known, hlower', hlower]
          exact hC htype
  · rw [LooksUpKnown, if_neg hknown] at hC
    obtain ⟨hne, hnew⟩ := hC
    have hnone : (s.getBuddy env name).2 = none := by
      rcases getBuddy_cases env name s with ⟨p, hget, -⟩ | ⟨-, heq⟩
      · rw [Known, hget] at hknown
        exact absurd nofun hknown
      · rw [heq]
    obtain rfl := jidToLegacyName_of_unknown hnone hlegacy
    rcases hcases with ⟨hempty, -⟩ | ⟨-, s₂, hs₂, hcases⟩
    · exact absurd hempty hne
    · rcases hcases with ⟨-, -, hs⟩ | ⟨-, hold, -⟩ | ⟨p, b, hfound, -⟩
      · refine NoNull.setNew (fun k hk => ?_) hs
        have hk' : k ≠ env.lower legacyName := hk
        rw [hs₂, getBuddy_buddies_of_ne hk', hs₁, getBuddy_buddies_of_ne hk']
        exact h k
      · exact absurd hnew hold
      · obtain ⟨-, hk⟩ := getBuddy_of_some hfound
        rw [hs₁, getBuddy_of_none hnone] at hk
        cases hk

theorem NoNull.step (h : NoNull s) (hsound : Sound env but s) (hC : LooksUpKnown env s e)
    (hs : step env s e = some s') : NoNull s' := by
  have halive := alive_of_step hs
  unfold Roster.step at hs
  rw [if_pos halive] at hs
  cases e with
  | getBuddy name =>
    obtain ⟨p, -, hget⟩ := getBuddy_of_known h hC
    simp only [hget] at hs
    cases hs
    exact h
  | setBuddy data pushed =>
    simp only at hs
    cases hfound : (s.getBuddy env data.name).2 with
    | none =>
      rw [hfound] at hs
      refine NoNull.setNew (fun k hk => ?_) hs
      rw [getBuddy_buddies_of_ne hk]
      exact h k
    | some p =>
      rw [hfound] at hs
      cases hs
      rw [(getBuddy_of_some hfound).1]
      exact h
  | storeBuddy name f =>
    obtain ⟨p, -, hget⟩ := getBuddy_of_known h hC
    simp only [hget] at hs
    exact h.of_buddies ((storeBuddy_buddies hs).trans rfl)
  | handleBuddyPayload name payload =>
    obtain ⟨p, hk, hget⟩ := getBuddy_of_known h hC
    obtain ⟨b, hb, -⟩ := hsound.member _ p hk
    simp only [hget] at hs
    obtain ⟨s₁, -, hupdated, rfl⟩ := handleBuddyPayload_cases hsound hk hb hs
    exact h.of_buddies hupdated.buddies
  | removeBuddy name => exact h.removeBuddy hC hs
  | handleSubscription name type flags pushed => exact h.handleSubscription hsound hC hs
  | tick => exact h.of_buddies (hsound.storeBuddies_buddies hs)
  | destroy =>
    obtain ⟨s₁, -, heq⟩ := Option.bind_eq_some_iff.mp hs
    cases heq
    intro k
    nofun

theorem NoNull.load (rows : List (Int × BuddyData × Bool)) (h : NoNull s) :
    NoNull (rows.foldl (State.loadBuddy env) s) := by
  induction rows generalizing s with
  | nil => exact h
  | cons r rows ih =>
    refine ih fun k => ?_
    unfold State.loadBuddy
    split
    · change (s.buddies.set _ _).get k ≠ some none
      rw [SortedMap.get_set]
      split
      · nofun
      · exact h k
    · exact h k

theorem Sound.listed (h : Sound env but s) (hnull : NoNull s) : Listed env s := by
  intro e he
  have hget := SortedMap.mem_entries_iff.mp he
  cases hvalue : e.2 with
  | none =>
    rw [hvalue] at hget
    exact absurd hget (hnull e.1)
  | some p =>
    rw [hvalue] at hget
    obtain ⟨b, hb, hlower⟩ := h.member e.1 p hget
    exact ⟨p, b, rfl, hb, hlower⟩

theorem Listed.noNull (h : Listed env s) : NoNull s := by
  intro k hk
  obtain ⟨p, b, hvalue, -⟩ := h _ (SortedMap.mem_entries_iff.mpr hk)
  cases hvalue

/-- No buddy is listed twice. -/
theorem Listed.nodup (h : Listed env s) : (s.buddies.entries.map Prod.snd).Nodup := by
  refine List.pairwise_map.mpr (s.buddies.sorted.imp_of_mem fun {e e'} he he' hlt heq => ?_)
  obtain ⟨p, b, hvalue, hb, hlower⟩ := h e he
  obtain ⟨p', b', hvalue', hb', hlower'⟩ := h e' he'
  rw [hvalue, hvalue'] at heq
  cases heq
  rw [hb] at hb'
  cases hb'
  exact absurd (hlower.symm.trans hlower') (ne_of_lt hlt)

end Entries

/-! ## Pushes -/

section Pushes

variable {env : Env} {u : Recipient} {s s' : State} {p : Nat} {b : Buddy}

/-- The buddies of the first state are in the second one, and what is pushed of them is the same. -/
def SamePushes (s s' : State) : Prop :=
  ∀ q b, s.heap q = some b → ∃ b', s'.heap q = some b' ∧ ∀ jid, b'.push jid = b.push jid

theorem samePushes_change (p : Nat) (s : State) :
    SamePushes s (s.change p fun d => { d with ask := false }) := by
  intro q b hq
  rw [State.change]
  simp only
  by_cases hqp : q = p
  · subst hqp
    rw [if_pos rfl, hq]
    exact ⟨_, rfl, fun _ => rfl⟩
  · rw [if_neg hqp]
    exact ⟨b, hq, fun _ => rfl⟩

theorem sendBuddyRosterPush_of_heap (hmode : env.serverMode = false) (hp : s.heap p = some b) :
    ∃ s', s.sendBuddyRosterPush env u (some p) = some (s', [b.push u.bare]) ∧ SamePushes s s' := by
  unfold State.sendBuddyRosterPush
  simp only [hmode, hp, Bool.false_and, Bool.false_eq_true, if_false, Option.bind_some]
  split
  · have hsame := samePushes_change p s
    obtain ⟨b', hb', -⟩ := hsame p b hp
    obtain ⟨s', hs', hheap⟩ := storeBuddy_of_heap hb'
    refine ⟨s', by rw [hs']; rfl, ?_⟩
    unfold SamePushes
    rw [hheap]
    exact hsame
  · exact ⟨s, rfl, fun q c hq => ⟨c, hq, fun _ => rfl⟩⟩

/-- The loop sends what the first state has. -/
theorem pushAll_of_heap (hmode : env.serverMode = false) {l : List (String × Option Nat)}
    {s₀ : State} (hl : ∀ e ∈ l, ∃ p b, e.2 = some p ∧ s₀.heap p = some b) (hsame : SamePushes s₀ s) :
    ∃ s' pushes, State.pushAll env u l s = some (s', pushes) ∧
      List.Forall₂ (fun e push => ∃ p b, e.2 = some p ∧ s₀.heap p = some b ∧ push = b.push u.bare)
        l pushes := by
  induction l generalizing s with
  | nil => exact ⟨s, [], rfl, .nil⟩
  | cons e l ih =>
    obtain ⟨p, b, hvalue, hb⟩ := hl e List.mem_cons_self
    obtain ⟨b₁, hb₁, hpush⟩ := hsame p b hb
    obtain ⟨s₁, hs₁, hsame₁⟩ := sendBuddyRosterPush_of_heap (u := u) hmode hb₁
    have hsame' : SamePushes s₀ s₁ := by
      intro q c hq
      obtain ⟨c₁, hc₁, hpush₁⟩ := hsame q c hq
      obtain ⟨c₂, hc₂, hpush₂⟩ := hsame₁ q c₁ hc₁
      exact ⟨c₂, hc₂, fun jid => (hpush₂ jid).trans (hpush₁ jid)⟩
    obtain ⟨s', pushes, hs', hall⟩ := ih (fun e he => hl e (List.mem_cons_of_mem _ he)) hsame'
    refine ⟨s', b₁.push u.bare :: pushes, ?_, .cons ⟨p, b, hvalue, hb, hpush u.bare⟩ hall⟩
    rw [State.pushAll, hvalue, hs₁, Option.bind_some, hs']
    rfl

theorem Listed.pushesAll (h : Listed env s) (hmode : env.serverMode = false) : PushesAll env s := by
  refine ⟨h.nodup, fun u => ?_⟩
  unfold State.handleRemoteRosterResponse
  have hl : ∀ e ∈ s.buddies.entries, ∃ p b, e.2 = some p ∧ s.heap p = some b := by
    intro e he
    obtain ⟨p, b, hvalue, hb, -⟩ := h e he
    exact ⟨p, b, hvalue, hb⟩
  rw [if_neg Bool.false_ne_true]
  split
  · exact pushAll_of_heap hmode hl fun q b hq => ⟨b, hq, fun _ => rfl⟩
  · rename_i hempty
    have hnil : s.buddies.entries = [] := by
      by_contra hne
      exact hempty ⟨hne, rfl⟩
    rw [hnil]
    exact ⟨s, [], rfl, .nil⟩

end Pushes

/-! ## Runs -/

section Runs

variable {env : Env} {s : State} {tr : List (State × Event)}

/-- As long as only known names are looked up the roster has no other entries than its buddies, and
the full push reaches each of them once. -/
theorem listed_of_looksUpKnown (h : (machine env).Run tr s)
    (hC : Machine.Meets (LooksUpKnown env) tr) :
    Listed env s ∧ (env.serverMode = false → PushesAll env s) := by
  have hinv : (s.alive = true → ∃ but, Sound env but s) ∧ Listed env s := by
    refine Machine.Run.invariant_of_steps
      (I := fun s => (s.alive = true → ∃ but, Sound env but s) ∧ Listed env s)
      (fun s hinit => ?_) (fun s e s' hknown hs ih => ?_) h hC
    · have hsound : Sound env ∅ s := sound_of_init hinit
      obtain ⟨rows, -, -, rfl⟩ := hinit
      have hnull : NoNull (State.load env rows) := NoNull.load rows nofun
      exact ⟨fun _ => ⟨∅, hsound⟩, hsound.listed hnull⟩
    · obtain ⟨but, hsound⟩ := ih.1 (alive_of_step hs)
      by_cases hlast : e = .destroy
      · subst hlast
        obtain ⟨s₁, -, heq⟩ := Option.bind_eq_some_iff.mp (destroy_of_step hs)
        cases heq
        exact ⟨nofun, nofun⟩
      · obtain ⟨but', hsound'⟩ := (hsound.step hs hlast).1
        exact ⟨fun _ => ⟨but', hsound'⟩, hsound'.listed (ih.2.noNull.step hsound hknown hs)⟩
  exact ⟨hinv.2, hinv.2.pushesAll⟩

end Runs

namespace Sample

/-- A subscription to a new buddy, and an update of a known one. -/
def lookups : List Event :=
  [.handleSubscription "carol" .subscribe 0 false,
   .storeBuddy "bob" fun d => { d with aliasName := "Bob" }]

end Sample

theorem listed_of_looksUpKnown_carol : ∃ tr s, (machine Sample.env).Run tr s ∧
    s.buddies.entries.map Prod.fst = ["bob", "carol"] ∧ Listed Sample.env s ∧
    PushesAll Sample.env s := by
  have hexec : (((machine Sample.env).restrict (LooksUpKnown Sample.env)).exec
      (State.load Sample.env Sample.rows) Sample.lookups).any
      (fun s => decide (s.buddies.entries.map Prod.fst = ["bob", "carol"])) = true := by
    decide +kernel
  obtain ⟨s, hs, hkeys⟩ := (Option.any_eq_true _ _).mp hexec
  obtain ⟨tr, hrun, hmeets⟩ := Machine.exists_run_of_restrict Sample.init_rows hs
  obtain ⟨hlisted, hpushes⟩ := listed_of_looksUpKnown hrun hmeets
  exact ⟨tr, s, hrun, of_decide_eq_true hkeys, hlisted, hpushes rfl⟩

/-- A lookup of an unknown name, after which the push follows `NULL`. -/
theorem not_listed_of_getBuddy : ∃ tr s, (machine Sample.env).Run tr s ∧
    tr.map Prod.snd = [.getBuddy "dave"] ∧ ¬ Listed Sample.env s ∧ ¬ PushesAll Sample.env s := by
  have hexec : ((machine Sample.env).exec (State.load Sample.env Sample.rows)
      [.getBuddy "dave"]).any (fun s => decide (("dave", none) ∈ s.buddies.entries) &&
        (s.handleRemoteRosterResponse Sample.env ⟨"user@localhost", [], false⟩ false []).isNone) =
      true := by
    decide +kernel
  obtain ⟨s, hs, hfacts⟩ := (Option.any_eq_true _ _).mp hexec
  obtain ⟨tr, hrun, htr⟩ := Machine.exists_run_of_exec Sample.init_rows hs
  rw [Bool.and_eq_true, decide_eq_true_eq, Option.isNone_iff_eq_none] at hfacts
  refine ⟨tr, s, hrun, htr, fun hlisted => ?_, fun hpushes => ?_⟩
  · obtain ⟨p, b, hvalue, -⟩ := hlisted _ hfacts.1
    cases hvalue
  · obtain ⟨s', pushes, hs', -⟩ := hpushes.2 ⟨"user@localhost", [], false⟩
    rw [hfacts.2] at hs'
    cases hs'

end Spectrum.Roster
