import Spectrum.AdHoc.Sweep

/-!
# Who owns an ad-hoc command

A command belongs to the table: it is there once, under its initiator and its id, until it is
deleted. All steps keep this but two. A new command can take the place of an older one of the same id,
and a tick deletes the idle commands and leaves their pointers in the table, unless the id of a session
is the text of its JID.

* `Answered` says what a command that answers changes;
* `Owned` is the invariant, `Fits` is the condition under which a step keeps it;
* `kept_iff_meets` says that the table is right in exactly the runs of such steps.
-/

namespace Spectrum.AdHoc

open Lib

/-! ## Who holds a command -/

/-- What is known of a command between two requests. -/
structure AdHocCommand.Good (env : Env) (c : AdHocCommand) : Prop where
  dated : c.lastActivity.isSome
  stored : c.state = .waitingForResponse → env.storage = true

namespace State

/-- Every command is in the table, once, under its initiator and its id. -/
structure Placed (s : State) : Prop where
  held : ∀ jid id p, s.sessions.find jid id = some p ↔
    ∃ c, s.commands.get p = some c ∧ c.initiator = jid ∧ c.id = id
  trimmed : s.sessions.Trimmed

structure Owned (env : Env) (s : State) : Prop extends Placed s where
  good : ∀ p c, s.commands.get p = some c → c.Good env

end State

section Held

variable {env : Env} {now : Int} {s s' : State} {jid id : String} {p q : Nat} {c : AdHocCommand}

theorem State.Placed.find (h : s.Placed) (hc : s.commands.get p = some c) :
    s.sessions.find c.initiator c.id = some p := (h.held _ _ _).mpr ⟨c, hc, rfl, rfl⟩

theorem State.Placed.injective (h : s.Placed) : s.sessions.Injective := by
  intro k i k' i' p hp hp'
  obtain ⟨c, hc, rfl, rfl⟩ := (h.held k i p).mp hp
  obtain ⟨c', hc', rfl, rfl⟩ := (h.held k' i' p).mp hp'
  rw [hc] at hc'
  cases hc'
  exact ⟨rfl, rfl⟩

theorem State.Placed.mem_values (h : s.Placed) : p ∈ s.sessions.values ↔ (s.commands.get p).isSome := by
  rw [NestedMap.mem_values]
  constructor
  · rintro ⟨jid, id, hp⟩
    obtain ⟨c, hc, -⟩ := (h.held jid id p).mp hp
    rw [hc]
    rfl
  · intro hp
    obtain ⟨c, hc⟩ := Option.isSome_iff_exists.mp hp
    exact ⟨_, _, h.find hc⟩

theorem State.Owned.dated (h : s.Owned env) (hp : p ∈ s.sessions.values) : Dated s.commands p := by
  obtain ⟨c, hc⟩ := Option.isSome_iff_exists.mp (h.mem_values.mp hp)
  obtain ⟨t, ht⟩ := Option.isSome_iff_exists.mp (h.good p c hc).dated
  exact ⟨c, t, hc, ht⟩

theorem State.Owned.exists_tick (h : s.Owned env) (now : Int) :
    ∃ s', s.removeOldSessions now = some s' ∧ Ticked now s s' :=
  exists_removeOldSessions (fun _ hp => h.dated hp) h.injective.nodup_values

theorem State.Placed.exists_stop (h : s.Placed) :
    ∃ s', s.stop = some s' ∧ s'.sessions = {} ∧ ∀ p, s'.commands.get p = none := by
  obtain ⟨b, hall, hb⟩ :=
    Arena.exists_deleteAll (fun p hp => h.mem_values.mp hp) h.injective.nodup_values
  refine ⟨{ sessions := {}, commands := b }, by rw [State.stop, hall]; rfl, rfl, fun p => ?_⟩
  rw [hb.get]
  split
  · rfl
  · rename_i hp
    rw [h.mem_values] at hp
    exact Option.not_isSome_iff_eq_none.mp hp

theorem isSome_of_idle {commands : Arena AdHocCommand} (h : idle now commands p = true) :
    (commands.get p).isSome := by
  unfold idle at h
  cases hp : commands.get p with
  | none =>
    rw [hp] at h
    cases h
  | some c => rfl

theorem State.Placed.get_ticked (h : s.Placed) (ht : Ticked now s s') (p : Nat) :
    s'.commands.get p = if idle now s.commands p then none else s.commands.get p := by
  rw [ht.commands.get]
  by_cases hidle : idle now s.commands p = true
  · rw [if_pos hidle, if_pos (mem_expired.mpr ⟨h.mem_values.mpr (isSome_of_idle hidle), hidle⟩)]
  · rw [if_neg hidle, if_neg fun hgone => hidle (mem_expired.mp hgone).2]

/-- A tick after which no deleted command is left in the table. -/
theorem State.Owned.ticked (h : s.Owned env) (ht : Ticked now s s')
    (hfits : ∀ p c, s.commands.get p = some c → idle now s.commands p = true → c.id = c.initiator) :
    s'.Owned env := by
  have hget : ∀ p c, s'.commands.get p = some c ↔
      s.commands.get p = some c ∧ idle now s.commands p = false := by
    intro p c
    rw [h.get_ticked ht]
    cases idle now s.commands p with
    | false => simp
    | true => simp
  refine ⟨⟨fun jid id p => ?_, ht.trimmed⟩, fun p c hc => h.good p c ((hget p c).mp hc).1⟩
  rw [ht.find, h.held]
  constructor
  · rintro ⟨⟨c, hc, rfl, rfl⟩, hleft⟩
    refine ⟨c, (hget p c).mpr ⟨hc, ?_⟩, rfl, rfl⟩
    by_contra hidle
    have hidle := Bool.eq_true_of_not_eq_false hidle
    rw [hleft (hfits p c hc hidle) _ _ (h.find hc)] at hidle
    cases hidle
  · rintro ⟨c, hc, rfl, rfl⟩
    obtain ⟨hc, hidle⟩ := (hget p c).mp hc
    refine ⟨⟨c, hc, rfl, rfl⟩, fun hid i q hq => ?_⟩
    by_contra hother
    have hother := Bool.eq_true_of_not_eq_false hother
    obtain ⟨c', hc', hjid, rfl⟩ := (h.held _ _ _).mp hq
    -- an idle command of the JID has the id of this one
    have hsame : c'.id = c.id := (hfits q c' hc' hother).trans (hjid.trans hid.symm)
    have hfound := h.find hc'
    rw [hjid, hsame, h.find hc] at hfound
    cases hfound
    rw [hidle] at hother
    cases hother

/-- A deleted command whose pointer stays in the table. -/
theorem State.Owned.dangling (h : s.Owned env) (ht : Ticked now s s') (hc : s.commands.get p = some c)
    (hidle : idle now s.commands p = true) (hid : c.id ≠ c.initiator) :
    s'.sessions.find c.initiator c.id = some p ∧ p ∈ s'.commands.deleted := by
  refine ⟨ht.find.mpr ⟨h.find hc, fun heq => absurd heq hid⟩, Arena.mem_deleted.mpr ⟨?_, ?_⟩⟩
  · rw [ht.commands.next]
    exact Arena.lt_next hc
  · rw [h.get_ticked ht, if_pos hidle]

end Held

/-! ## Requests -/

/-- What a request leaves that the command at `p` answered, for an answer that does not finish the
command and for one that does. -/
inductive Answered (env : Env) (jid : String) (p : Nat) (c : AdHocCommand) (s s' : State) : Prop
  | executing (c' : AdHocCommand) (hid : c'.id = c.id) (hjid : c'.initiator = c.initiator)
      (hgood : c'.Good env) (hsessions : s'.sessions = s.sessions)
      (hget : ∀ q, s'.commands.get q = if q = p then some c' else s.commands.get q)
      (hnext : s'.commands.next = s.commands.next)
  | finished (hsessions : s'.sessions = s.sessions.remove jid c.id)
      (hget : ∀ q, s'.commands.get q = if q = p then none else s.commands.get q)
      (hnext : s'.commands.next = s.commands.next)

section Requests

variable {env : Env} {r : Request} {s s' : State} {jid id : String} {p q : Nat} {c : AdHocCommand}

/-- A command answers every request, and waits for another one only where there is a storage. -/
theorem exists_handleRequest (hstored : c.state = .waitingForResponse → env.storage = true) :
    ∃ status c', c.handleRequest env r = some (status, c') ∧ c'.id = c.id ∧
      c'.initiator = c.initiator ∧
      (status = .executing → c'.state = .waitingForResponse → env.storage = true) := by
  unfold AdHocCommand.handleRequest
  by_cases hcancel : r.cancel = true
  · rw [if_pos hcancel]
    exact ⟨_, _, rfl, rfl, rfl, fun h => nomatch h⟩
  · rw [if_neg hcancel]
    cases hstate : c.state with
    | init =>
      refine ⟨_, _, rfl, rfl, rfl, fun h _ => ?_⟩
      unfold AdHocCommand.getForm at h
      split at h
      · rename_i hform
        exact hform.1
      · cases h
    | waitingForResponse =>
      rw [AdHocCommand.handleResponse, if_pos (hstored hstate)]
      exact ⟨_, _, rfl, rfl, rfl, fun h => nomatch h⟩

theorem exists_answer (hc : s.commands.get p = some c)
    (hstored : c.state = .waitingForResponse → env.storage = true) :
    ∃ s' status, s.answer env r p = some (s', .command c.id status) ∧ Answered env r.jid p c s s' := by
  obtain ⟨status, c', hrequest, hid, hjid, hwaiting⟩ := exists_handleRequest (r := r) hstored
  let commands := s.commands.modify p fun _ => { c' with lastActivity := some r.now }
  have hget : ∀ q, commands.get q =
      if q = p then some { c' with lastActivity := some r.now } else s.commands.get q := by
    intro q
    rw [Arena.get_modify, hc, Option.map_some]
  unfold State.answer
  rw [hc, Option.bind_eq_bind, Option.bind_some, hrequest, Option.bind_eq_bind, Option.bind_some]
  dsimp only
  by_cases hdone : status = .completed ∨ status = .canceled
  · have hself := hget p
    rw [if_pos rfl] at hself
    obtain ⟨b, hdelete, hb⟩ := Arena.exists_delete hself
    rw [if_pos hdone, hdelete, Option.bind_eq_bind, Option.bind_some, hid]
    refine ⟨_, status, rfl, .finished rfl (fun q => ?_) hb.next⟩
    rw [hb.get, hget]
    by_cases hq : q = p
    · simp [hq]
    · simp [hq]
  · have hexecuting : status = .executing := by
      cases status with
      | executing => rfl
      | completed => exact absurd (.inl rfl) hdone
      | canceled => exact absurd (.inr rfl) hdone
    rw [if_neg hdone, ← hid]
    exact ⟨_, status, rfl, .executing { c' with lastActivity := some r.now } hid hjid
      ⟨rfl, hwaiting hexecuting⟩ rfl hget rfl⟩

/-- The answer concerns one command, and the table does not grow. -/
theorem Answered.frame (h : Answered env jid p c s s') :
    s'.commands.next = s.commands.next ∧ (∀ q, q ≠ p → s'.commands.get q = s.commands.get q) ∧
      ∀ jid id q, s'.sessions.find jid id = some q → s.sessions.find jid id = some q := by
  cases h with
  | executing c' _ _ _ hsessions hget hnext =>
    refine ⟨hnext, fun q hq => by rw [hget, if_neg hq], fun jid id q hfind => ?_⟩
    rwa [hsessions] at hfind
  | finished hsessions hget hnext =>
    refine ⟨hnext, fun q hq => by rw [hget, if_neg hq], fun jid id q hfind => ?_⟩
    rw [hsessions, NestedMap.find_remove] at hfind
    split at hfind
    · cases hfind
    · exact hfind

/-- A command that is changed keeps its place. -/
theorem State.Placed.executing (h : s.Placed) (hc : s.commands.get p = some c) {c' : AdHocCommand}
    (hid : c'.id = c.id) (hjid : c'.initiator = c.initiator) (hsessions : s'.sessions = s.sessions)
    (hget : ∀ q, s'.commands.get q = if q = p then some c' else s.commands.get q) : s'.Placed := by
  refine ⟨fun jid id q => ?_, hsessions ▸ h.trimmed⟩
  rw [hsessions, h.held, hget]
  by_cases hq : q = p
  · simp [hq, hc, hid, hjid]
  · simp [hq]

/-- A command that is deleted leaves its place. -/
theorem State.Placed.finished (h : s.Placed) (hc : s.commands.get p = some c)
    (hsessions : s'.sessions = s.sessions.remove c.initiator c.id)
    (hget : ∀ q, s'.commands.get q = if q = p then none else s.commands.get q) : s'.Placed := by
  refine ⟨fun jid id q => ?_, hsessions ▸ h.trimmed.remove⟩
  rw [hsessions, NestedMap.find_remove, hget]
  have hfind := h.find hc
  by_cases hq : q = p
  · subst hq
    rw [if_pos rfl]
    constructor
    · intro hplace
      split at hplace
      · cases hplace
      · rename_i hother
        exact absurd (h.injective _ _ _ _ _ hplace hfind) hother
    · rintro ⟨d, hd, -⟩
      cases hd
  · rw [if_neg hq, ← h.held]
    split
    · rename_i hplace
      rw [hplace.1, hplace.2, hfind]
      simp [Ne.symm hq]
    · rfl

theorem State.Placed.answered (h : s.Placed)
    (hgood : ∀ q c, q ≠ p → s.commands.get q = some c → c.Good env) (hc : s.commands.get p = some c)
    (hjid : c.initiator = jid) (hanswered : Answered env jid p c s s') : s'.Owned env := by
  subst hjid
  cases hanswered with
  | executing c' hid hinitiator hnew hsessions hget hnext =>
    refine ⟨h.executing hc hid hinitiator hsessions hget, fun q d hd => ?_⟩
    rw [hget] at hd
    split at hd
    · cases hd
      exact hnew
    · rename_i hq
      exact hgood q d hq hd
  | finished hsessions hget hnext =>
    refine ⟨h.finished hc hsessions hget, fun q d hd => ?_⟩
    rw [hget] at hd
    split at hd
    · cases hd
    · rename_i hq
      exact hgood q d hq hd

theorem State.Placed.create (h : s.Placed) (hfree : s.sessions.find r.jid (newId r.rand) = none) :
    (s.create r).Placed := by
  refine ⟨fun jid id p => ?_, h.trimmed.insert⟩
  have hnew : s.commands.get s.commands.next = none := s.commands.fresh _ (Nat.le_refl _)
  rw [State.create, NestedMap.find_insert, Arena.get_new]
  by_cases hp : p = s.commands.next
  · subst hp
    have hnowhere : s.sessions.find jid id ≠ some s.commands.next := by
      intro hfind
      obtain ⟨c, hc, -⟩ := (h.held _ _ _).mp hfind
      rw [hnew] at hc
      cases hc
    rw [if_pos rfl]
    by_cases hplace : jid = r.jid ∧ id = newId r.rand
    · simp [hplace]
    · rw [if_neg hplace]
      refine ⟨fun hfind => absurd hfind hnowhere, ?_⟩
      rintro ⟨c, hc, rfl, rfl⟩
      cases hc
      exact absurd ⟨rfl, rfl⟩ hplace
  · rw [if_neg hp, ← h.held]
    split
    · rename_i hplace
      rw [hplace.1, hplace.2, hfree]
      simp [Ne.symm hp]
    · rfl

/-- The request starts a command. -/
def State.Creates (s : State) (env : Env) (r : Request) : Prop :=
  ¬ (r.sessionId ≠ "" ∧ (s.sessions.get r.jid).isSome) ∧ r.node ∈ env.nodes

instance : Decidable (s.Creates env r) :=
  inferInstanceAs (Decidable
    (¬ (r.sessionId ≠ "" ∧ (s.sessions.get r.jid).isSome) ∧ r.node ∈ env.nodes))

/-- What a request leaves: it is refused, continues a command or starts one. -/
inductive Handled (env : Env) (r : Request) (s s' : State) : Prop
  | refused (hcreates : ¬ s.Creates env r) (h : s' = s)
  | continued (p : Nat) (c : AdHocCommand) (hcreates : ¬ s.Creates env r)
      (hc : s.commands.get p = some c) (hjid : c.initiator = r.jid) (h : Answered env r.jid p c s s')
  | started (c : AdHocCommand) (hcreates : s.Creates env r)
      (hc : (s.create r).commands.get s.commands.next = some c) (hjid : c.initiator = r.jid)
      (h : Answered env r.jid s.commands.next c (s.create r) s')

theorem State.Owned.exists_handled (h : s.Owned env) (r : Request) :
    ∃ s' a, s.handleSetRequest env r = some (s', a) ∧ Handled env r s s' := by
  unfold State.handleSetRequest
  split
  · rename_i hknown
    have hcreates : ¬ s.Creates env r := fun h => h.1 hknown
    cases hfind : s.sessions.find r.jid r.sessionId with
    | none => exact ⟨s, .badRequest, rfl, .refused hcreates rfl⟩
    | some p =>
      obtain ⟨c, hc, hjid, -⟩ := (h.held _ _ _).mp hfind
      obtain ⟨s', status, hanswer, hanswered⟩ := exists_answer (r := r) hc (h.good p c hc).stored
      exact ⟨s', _, hanswer, .continued p c hcreates hc hjid hanswered⟩
  · rename_i hunknown
    split
    · rename_i hnode
      have hc : (s.create r).commands.get s.commands.next =
          some { id := newId r.rand, initiator := r.jid } := by
        rw [State.create, Arena.get_new, if_pos rfl]
      obtain ⟨s', status, hanswer, hanswered⟩ := exists_answer (r := r) hc fun h => nomatch h
      exact ⟨s', _, hanswer, .started _ ⟨hunknown, hnode⟩ hc rfl hanswered⟩
    · rename_i hnode
      exact ⟨s, .badRequest, rfl, .refused (fun h => hnode h.2) rfl⟩

theorem State.Owned.handled (h : s.Owned env) (hhandled : Handled env r s s')
    (hfits : s.Creates env r → s.sessions.find r.jid (newId r.rand) = none) : s'.Owned env := by
  cases hhandled with
  | refused _ heq => exact heq ▸ h
  | continued p c _ hc hjid hanswered =>
    exact h.answered (fun q d _ hd => h.good q d hd) hc hjid hanswered
  | started c hcreates hc hjid hanswered =>
    refine (h.create (hfits hcreates)).answered (fun q d hq hd => ?_) hc hjid hanswered
    rw [State.create, Arena.get_new, if_neg hq] at hd
    exact h.good q d hd

/-- A command whose place is taken by a new one is not in the table any more, and was not deleted. -/
theorem State.Owned.leaked (h : s.Owned env)
    (hanswered : Answered env r.jid s.commands.next c (s.create r) s')
    (hq : s.sessions.find r.jid (newId r.rand) = some q) :
    q < s'.commands.next ∧ (∀ jid id, s'.sessions.find jid id ≠ some q) ∧
      s'.commands.deleted.count q = 0 := by
  obtain ⟨hnext, hother, hsub⟩ := hanswered.frame
  obtain ⟨d, hd, -⟩ := (h.held _ _ _).mp hq
  have hlt := Arena.lt_next hd
  refine ⟨?_, fun jid id hfind => ?_, Arena.count_deleted_of_some (x := d) ?_⟩
  · rw [hnext, State.create, Arena.next_new]
    omega
  · have hold := hsub jid id q hfind
    rw [State.create, NestedMap.find_insert] at hold
    split at hold
    · cases hold
      omega
    · rename_i hplace
      exact hplace (h.injective _ _ _ _ _ hold hq)
  · rw [hother q (by omega), State.create, Arena.get_new, if_neg (by omega)]
    exact hd

end Requests

/-! ## Runs -/

/-- The table holds commands that were not deleted, every other command was deleted once, and every
step is defined. -/
structure State.Safe (env : Env) (s : State) : Prop where
  live : ∀ jid id p, s.sessions.find jid id = some p → (s.commands.get p).isSome
  once : ∀ p, p < s.commands.next → (∀ jid id, s.sessions.find jid id ≠ some p) →
    s.commands.deleted.count p = 1
  defined : ∀ e, (step env s e).isSome

/-- A tick removes the commands that are idle and the JIDs that have no other, and keeps the rest. -/
structure Swept (now : Int) (s s' : State) : Prop where
  commands : ∀ p, s'.commands.get p = if idle now s.commands p then none else s.commands.get p
  sessions : ∀ jid id p, s'.sessions.find jid id = some p ↔
    s.sessions.find jid id = some p ∧ idle now s.commands p = false
  entries : ∀ jid, (s'.sessions.get jid).isSome ↔
    ∃ id p, s.sessions.find jid id = some p ∧ idle now s.commands p = false

/-- All states of the run are right, and so are its ticks. -/
def Kept (env : Env) (tr : List (State × Event)) (s : State) : Prop :=
  Machine.Always (State.Safe env) tr s ∧
    ∀ x ∈ tr, ∀ now, x.2 = .tick now → ∀ s', step env x.1 x.2 = some s' → Swept now x.1 s'

/-- A new command finds its place free, and the id of a command that is idle at a tick is its JID. -/
def Fits (env : Env) (s : State) : Event → Prop
  | .request r => s.Creates env r → s.sessions.find r.jid (newId r.rand) = none
  | .tick now => ∀ e ∈ s.commands.objects.entries,
      idle now s.commands e.1 = true → e.2.id = e.2.initiator
  | .stop => True

instance (env : Env) (s : State) (e : Event) : Decidable (Fits env s e) :=
  match e with
  | .request r => inferInstanceAs (Decidable
      (s.Creates env r → s.sessions.find r.jid (newId r.rand) = none))
  | .tick now => inferInstanceAs (Decidable (∀ e ∈ s.commands.objects.entries,
      idle now s.commands e.1 = true → e.2.id = e.2.initiator))
  | .stop => inferInstanceAs (Decidable True)

section Runs

variable {env : Env} {now : Int} {s s' : State} {e : Event} {tr : List (State × Event)}

theorem fits_tick : Fits env s (.tick now) ↔
    ∀ p c, s.commands.get p = some c → idle now s.commands p = true → c.id = c.initiator := by
  constructor
  · exact fun h p c hc => h (p, c) (SortedMap.mem_entries_iff.mpr hc)
  · exact fun h e he => h e.1 e.2 (SortedMap.mem_entries_iff.mp he)

theorem State.Owned.safe (h : s.Owned env) : s.Safe env := by
  constructor
  · intro jid id p hfind
    obtain ⟨c, hc, -⟩ := (h.held _ _ _).mp hfind
    exact hc ▸ rfl
  · intro p hlt hout
    refine Arena.count_deleted hlt (Option.eq_none_iff_forall_ne_some.mpr fun c hc => ?_)
    exact hout _ _ (h.find hc)
  · intro e
    cases e with
    | request r =>
      obtain ⟨s', a, heq, -⟩ := h.exists_handled r
      rw [step, heq]
      rfl
    | tick now =>
      obtain ⟨s', heq, -⟩ := h.exists_tick now
      rw [step, heq]
      rfl
    | stop =>
      obtain ⟨s', heq, -⟩ := h.exists_stop
      rw [step, heq]
      rfl

theorem State.Owned.of_empty (hsessions : s.sessions = {}) (hget : ∀ p, s.commands.get p = none) :
    s.Owned env := by
  constructor
  · constructor
    · intro jid id p
      rw [hsessions, NestedMap.find_empty, hget]
      simp
    · rw [hsessions]
      exact NestedMap.trimmed_empty
  · intro p c hc
    rw [hget] at hc
    cases hc

theorem owned_init (s : State) (h : (machine env).init s) : s.Owned env := by
  cases h
  exact .of_empty rfl fun _ => rfl

/-- A step that fits keeps the invariant. -/
theorem State.Owned.step (h : s.Owned env) (hstep : AdHoc.step env s e = some s')
    (hfits : Fits env s e) : s'.Owned env := by
  cases e with
  | request r =>
    obtain ⟨s₁, a, heq, hhandled⟩ := h.exists_handled r
    rw [AdHoc.step, heq] at hstep
    cases hstep
    exact h.handled hhandled hfits
  | tick now =>
    obtain ⟨s₁, heq, hticked⟩ := h.exists_tick now
    rw [AdHoc.step, heq] at hstep
    cases hstep
    exact h.ticked hticked (fits_tick.mp hfits)
  | stop =>
    obtain ⟨s₁, heq, hsessions, hget⟩ := h.exists_stop
    rw [AdHoc.step, heq] at hstep
    cases hstep
    exact .of_empty hsessions hget

/-- A step that does not fit breaks the table. -/
theorem State.Owned.fits (h : s.Owned env) (hstep : AdHoc.step env s e = some s')
    (hsafe : s'.Safe env) : Fits env s e := by
  cases e with
  | request r =>
    intro hcreates
    by_contra hplace
    obtain ⟨q, hq⟩ := Option.ne_none_iff_exists'.mp hplace
    obtain ⟨s₁, a, heq, hhandled⟩ := h.exists_handled r
    rw [AdHoc.step, heq] at hstep
    cases hstep
    have hstarted : ∃ c, Answered env r.jid s.commands.next c (s.create r) s₁ := by
      cases hhandled with
      | refused hnot _ => exact absurd hcreates hnot
      | continued _ _ hnot => exact absurd hcreates hnot
      | started c _ _ _ hanswered => exact ⟨c, hanswered⟩
    obtain ⟨c, hanswered⟩ := hstarted
    obtain ⟨hlt, hout, hcount⟩ := h.leaked hanswered hq
    rw [hsafe.once q hlt hout] at hcount
    cases hcount
  | tick now =>
    refine fits_tick.mpr fun p c hc hidle => ?_
    by_contra hid
    obtain ⟨s₁, heq, hticked⟩ := h.exists_tick now
    rw [AdHoc.step, heq] at hstep
    cases hstep
    obtain ⟨hfind, hdeleted⟩ := h.dangling hticked hc hidle hid
    have hlive := hsafe.live _ _ _ hfind
    rw [(Arena.mem_deleted.mp hdeleted).2] at hlive
    cases hlive
  | stop => trivial

theorem State.Owned.swept (h : s.Owned env) (ht : Ticked now s s') (h' : s'.Owned env) :
    Swept now s s' := by
  have hfind : ∀ jid id p, s'.sessions.find jid id = some p ↔
      s.sessions.find jid id = some p ∧ idle now s.commands p = false := by
    intro jid id p
    rw [h'.held, h.held, h.get_ticked ht]
    cases idle now s.commands p with
    | false => simp
    | true => simp
  refine ⟨h.get_ticked ht, hfind, fun jid => ?_⟩
  rw [h'.trimmed.isSome_get]
  simp only [hfind]

/-- A run keeps the table right exactly when all its steps fit. -/
theorem kept_iff_meets (h : (machine env).Run tr s) : Kept env tr s ↔ Machine.Meets (Fits env) tr := by
  have halways : Machine.Always (State.Safe env) tr s ↔ Machine.Meets (Fits env) tr := by
    refine h.always_iff (I := State.Owned env) owned_init (fun _ => State.Owned.safe) ?_ ?_
    · exact fun s e s' hs hI hfits => hI.step hs hfits
    · exact fun s e s' hs hI hsafe => hI.fits hs hsafe
  constructor
  · exact fun hkept => halways.mp hkept.1
  · intro hmeets
    refine ⟨halways.mpr hmeets, ?_⟩
    rintro ⟨s₀, e⟩ hx now rfl s' hs
    obtain ⟨tr₀, hrun, hsub⟩ := h.source _ hx
    have howned := hrun.invariant_of_steps (I := State.Owned env) (C := Fits env)
      owned_init (fun s e s' hfits hs hI => hI.step hs hfits) fun y hy => hmeets y (hsub hy)
    obtain ⟨s₁, heq, hticked⟩ := howned.exists_tick now
    have hs₁ : s₁ = s' := Option.some_inj.mp (heq.symm.trans hs)
    subst hs₁
    exact howned.swept hticked (howned.ticked hticked (fits_tick.mp (hmeets _ hx)))

end Runs

namespace Sample

/-- A user fills in the settings, and a server whose name is the id of its session does not. -/
def settings : List Event :=
  let id := newId fun _ => 0
  [.request { jid := "a@b", now := 0 }, .request { jid := id, now := 5 }, .tick 100,
    .request { jid := "a@b", sessionId := id, now := 120 }, .tick 906, .stop]

/-- A user does not fill in the settings. -/
def forgotten : List Event := [.request { jid := "a@b", now := 0 }, .tick 901]

end Sample

theorem kept_iff_meets_settings : ∃ tr s, (machine {}).Run tr s ∧
    s.commands.deleted = [1, 0] ∧ Kept {} tr s := by
  have hexec : (((machine {}).restrict (Fits {})).exec {} Sample.settings).any (fun s =>
      decide (s.commands.deleted = [1, 0])) = true := by
    decide +kernel
  obtain ⟨s, hs, hdeleted⟩ := (Option.any_eq_true _ _).mp hexec
  obtain ⟨tr, hrun, hmeets⟩ := Machine.exists_run_of_restrict rfl hs
  exact ⟨tr, s, hrun, of_decide_eq_true hdeleted, (kept_iff_meets hrun).mpr hmeets⟩

/-- The command that the tick deleted is still in the table. -/
theorem not_kept_forgotten : ∃ tr s, (machine {}).Run tr s ∧ ¬ Kept {} tr s := by
  have hexec : ((machine {}).exec {} Sample.forgotten).any (fun s => decide (
      s.sessions.find "a@b" (newId fun _ => 0) = some 0 ∧ s.commands.get 0 = none)) = true := by
    decide +kernel
  obtain ⟨s, hs, hfound⟩ := (Option.any_eq_true _ _).mp hexec
  obtain ⟨tr, hrun, -⟩ := Machine.exists_run_of_exec rfl hs
  obtain ⟨hfind, hget⟩ := of_decide_eq_true hfound
  refine ⟨tr, s, hrun, fun hkept => ?_⟩
  have hlive := hkept.1.1.live _ _ _ hfind
  rw [hget] at hlive
  cases hlive

end Spectrum.AdHoc
