import Spectrum.Roster.Model

/-!
# The roster, the queue, the heap and the storage

Every pointer in the queue is a live member of the roster, and a member that was set or stored is in
the queue or his row is up to date. A buddy that is removed leaves the roster, the queue, the heap
and the storage at once. The operations of the roster keep this.
-/

namespace Spectrum.Roster

open Lib Storage

/-- The buddy was set or stored since the roster was loaded. -/
def Touched (p : Nat) (s : State) : Prop := .set p ∈ s.log ∨ .stored p ∈ s.log

/-- The buddy has an id and a row with his data. -/
def Current (b : Buddy) (s : State) : Prop := b.id ≠ -1 ∧ ∃ r ∈ s.rows, r.id = b.id ∧ r.data = b.data

/-- The roster, the queue, the heap and the storage fit together. The buddies `but` may have been
changed and not stored yet. -/
structure Sound (env : Env) (but : Set Nat) (s : State) : Prop where
  member : ∀ k p, s.buddies.get k = some (some p) →
    ∃ b, s.heap p = some b ∧ env.lower b.data.name = k
  queued : ∀ n p, s.queue.get n = some p → ∃ b, s.heap p = some b ∧ b.data.name = n ∧
    s.buddies.get (env.lower n) = some (some p)
  bound : ∀ p b, s.heap p = some b → p < s.next
  hasRow : ∀ p b, s.heap p = some b → b.id ≠ -1 →
    ∃ r ∈ s.rows, r.id = b.id ∧ r.data.name = b.data.name ∧ r.owner = some p
  rowOwner : ∀ r ∈ s.rows, ∀ p, r.owner = some p → ∃ b, s.heap p = some b ∧ b.id = r.id
  distinct : s.rows.Pairwise fun r r' => r.id ≠ r'.id ∧ r.data.name ≠ r'.data.name
  ids : ∀ r ∈ s.rows, r.id ≠ -1
  current : ∀ k p b, s.buddies.get k = some (some p) → s.heap p = some b → b.data.name ≠ "" →
    Touched p s → p ∉ but → s.queue.get b.data.name = some p ∨ Current b s
  gone : ∀ p, .removed p ∈ s.log → s.heap p = none
  past : ∀ a ∈ s.log, a.pointer < s.next
  order : s.log.Pairwise fun a a' => ∀ p, a = .removed p → a' ≠ .written p

/-! ## Rows -/

section Rows

variable {env : Env} {but : Set Nat} {s s' : State} {p q : Nat} {b : Buddy} {r r' : Row}

/-- Rows with the same id or the same name are the same. -/
theorem Sound.row_eq (h : Sound env but s) (hr : r ∈ s.rows) (hr' : r' ∈ s.rows)
    (hsame : r.id = r'.id ∨ r.data.name = r'.data.name) : r = r' := by
  by_contra hne
  have hsymm : Std.Symm fun r r' : Row => r.id ≠ r'.id ∧ r.data.name ≠ r'.data.name :=
    ⟨fun _ _ h => ⟨h.1.symm, h.2.symm⟩⟩
  obtain ⟨hid, hname⟩ := h.distinct.forall hr hr' hne
  exact hsame.elim hid hname

theorem Sound.row_eq_of_id (h : Sound env but s) (hr : r ∈ s.rows) (hr' : r' ∈ s.rows)
    (hid : r.id = r'.id) : r = r' := h.row_eq hr hr' (.inl hid)

theorem Sound.row_eq_of_name (h : Sound env but s) (hr : r ∈ s.rows) (hr' : r' ∈ s.rows)
    (hname : r.data.name = r'.data.name) : r = r' := h.row_eq hr hr' (.inr hname)

/-- Two buddies do not share a row. -/
theorem Sound.id_ne (h : Sound env but s) {b' : Buddy} (hp : s.heap p = some b)
    (hq : s.heap q = some b') (hpq : q ≠ p) (hid : b.id ≠ -1) : b'.id ≠ b.id := by
  intro heq
  obtain ⟨r, hr, hrid, -, hrowner⟩ := h.hasRow p b hp hid
  obtain ⟨r', hr', hrid', -, hrowner'⟩ := h.hasRow q b' hq (heq ▸ hid)
  rw [h.row_eq_of_id hr hr' (hrid.trans (heq.symm.trans hrid'.symm))] at hrowner
  exact hpq (Option.some.inj (hrowner'.symm.trans hrowner))

theorem Sound.weaken (h : Sound env but s) {but' : Set Nat} (hsub : but ⊆ but') : Sound env but' s :=
  { h with current := fun k p b hk hp hname htouched hbut =>
      h.current k p b hk hp hname htouched fun hmem => hbut (hsub hmem) }

/-- One more buddy may have been changed. -/
theorem Sound.except (h : Sound env but s) (p : Nat) : Sound env (insert p but) s :=
  h.weaken (Set.subset_insert p but)

end Rows

/-! ## Steps -/

section Steps

variable {env : Env} {but : Set Nat} {s s' : State} {p : Nat} {b : Buddy} {name k : String}

/-- What `getBuddy` does to the roster. -/
theorem getBuddy_cases (env : Env) (name : String) (s : State) :
    (∃ p, s.buddies.get (env.lower name) = some p ∧ s.getBuddy env name = (s, p)) ∨
    s.buddies.get (env.lower name) = none ∧ s.getBuddy env name =
      ({ s with buddies := s.buddies.set (env.lower name) none }, none) := by
  unfold State.getBuddy
  cases hget : s.buddies.get (env.lower name) with
  | none => exact Or.inr ⟨rfl, rfl⟩
  | some p => exact Or.inl ⟨p, rfl, rfl⟩

/-- A buddy that is found is a member. -/
theorem getBuddy_of_some (h : (s.getBuddy env name).2 = some p) :
    (s.getBuddy env name).1 = s ∧ s.buddies.get (env.lower name) = some (some p) := by
  rcases getBuddy_cases env name s with ⟨p', hget, heq⟩ | ⟨-, heq⟩
  · rw [heq] at h ⊢
    rw [hget, ← h]
    exact ⟨rfl, rfl⟩
  · rw [heq] at h
    cases h

/-- A name that is not found has the entry `NULL`. -/
theorem getBuddy_of_none (h : (s.getBuddy env name).2 = none) :
    (s.getBuddy env name).1.buddies.get (env.lower name) = some none := by
  rcases getBuddy_cases env name s with ⟨p', hget, heq⟩ | ⟨-, heq⟩
  · rw [heq] at h ⊢
    rw [hget, ← h]
  · rw [heq]
    exact SortedMap.get_set_self _ _ _

theorem Sound.getBuddy (h : Sound env but s) (name : String) :
    Sound env but (s.getBuddy env name).1 := by
  rcases getBuddy_cases env name s with ⟨p', -, heq⟩ | ⟨hnone, heq⟩
  · rw [heq]
    exact h
  · rw [heq]
    have hold : ∀ {k p}, (s.buddies.set (env.lower name) none).get k = some (some p) ↔
        s.buddies.get k = some (some p) := by
      intro k p
      rw [SortedMap.get_set]
      split
      · rename_i hk
        rw [hk, hnone]
        simp
      · exact Iff.rfl
    exact { h with
      member := fun k p hk => h.member k p (hold.mp hk)
      queued := fun n p hn => by
        obtain ⟨b, hb, hname, hk⟩ := h.queued n p hn
        exact ⟨b, hb, hname, hold.mpr hk⟩
      current := fun k p b hk => h.current k p b (hold.mp hk) }

/-- A new buddy, who is not stored. -/
theorem Sound.alloc (h : Sound env but s) (hid : b.id = -1) : Sound env but (s.alloc b) := by
  have hnew : ∀ {q b'}, s.heap q = some b' → (s.alloc b).heap q = some b' := by
    intro q b' hq
    have hlt := h.bound q b' hq
    rw [State.alloc]
    simp only
    rw [if_neg (Nat.ne_of_lt hlt), hq]
  have hold : ∀ {q b'}, (s.alloc b).heap q = some b' →
      q = s.next ∧ b' = b ∨ s.heap q = some b' := by
    intro q b' hq
    rw [State.alloc] at hq
    simp only at hq
    split at hq
    · exact Or.inl ⟨by assumption, (Option.some.inj hq).symm⟩
    · exact Or.inr hq
  constructor
  · intro k q hk
    obtain ⟨b', hb', hlower⟩ := h.member k q hk
    exact ⟨b', hnew hb', hlower⟩
  · intro n q hn
    obtain ⟨b', hb', hrest⟩ := h.queued n q hn
    exact ⟨b', hnew hb', hrest⟩
  · intro q b' hq
    change q < s.next + 1
    rcases hold hq with ⟨rfl, -⟩ | hq
    · exact Nat.lt_succ_self _
    · exact Nat.lt_succ_of_lt (h.bound q b' hq)
  · intro q b' hq hne
    rcases hold hq with ⟨-, rfl⟩ | hq
    · exact absurd hid hne
    · exact h.hasRow q b' hq hne
  · intro r hr q hq
    obtain ⟨b', hb', hrid⟩ := h.rowOwner r hr q hq
    exact ⟨b', hnew hb', hrid⟩
  · exact h.distinct
  · exact h.ids
  · intro k q b' hk hq
    obtain ⟨b'', hb'', -⟩ := h.member k q hk
    rw [hnew hb''] at hq
    cases hq
    exact h.current k q b' hk hb''
  · intro q hq
    have hlt : q < s.next := h.past _ hq
    rw [State.alloc]
    simp only
    rw [if_neg (Nat.ne_of_lt hlt)]
    exact h.gone q hq
  · intro a ha
    exact Nat.lt_succ_of_lt (h.past a ha)
  · exact h.order

/-- The setters leave everything but the data alone. -/
theorem change_heap {f : BuddyData → BuddyData} {q : Nat} {b' : Buddy}
    (hq : (s.change p f).heap q = some b') :
    ∃ b, s.heap q = some b ∧ b'.id = b.id ∧ b'.data.name = b.data.name ∧ (q ≠ p → b' = b) := by
  rw [State.change] at hq
  simp only at hq
  split at hq
  · rename_i hqp
    obtain ⟨b, hb, rfl⟩ := Option.map_eq_some_iff.mp hq
    exact ⟨b, hqp ▸ hb, rfl, rfl, fun hne => absurd hqp hne⟩
  · exact ⟨b', hq, rfl, rfl, fun _ => rfl⟩

theorem change_heap_of_some {f : BuddyData → BuddyData} {q : Nat} (hq : s.heap q = some b) :
    ∃ b', (s.change p f).heap q = some b' ∧ b'.id = b.id ∧ b'.data.name = b.data.name ∧
      (q ≠ p → b' = b) := by
  rw [State.change]
  simp only
  by_cases hqp : q = p
  · rw [if_pos hqp, ← hqp, hq]
    exact ⟨_, rfl, rfl, rfl, fun hne => absurd rfl hne⟩
  · rw [if_neg hqp]
    exact ⟨b, hq, rfl, rfl, fun _ => rfl⟩

theorem change_heap_none {f : BuddyData → BuddyData} {q : Nat} (hq : s.heap q = none) :
    (s.change p f).heap q = none := by
  cases hchanged : (s.change p f).heap q with
  | none => rfl
  | some b' =>
    obtain ⟨b, hb, -⟩ := change_heap hchanged
    rw [hq] at hb
    cases hb

theorem Sound.change (h : Sound env (insert p but) s) (f : BuddyData → BuddyData) :
    Sound env (insert p but) (s.change p f) := by
  constructor
  · intro k q hk
    obtain ⟨b, hb, hlower⟩ := h.member k q hk
    obtain ⟨b', hb', -, hname, -⟩ := change_heap_of_some hb
    exact ⟨b', hb', hname ▸ hlower⟩
  · intro n q hn
    obtain ⟨b, hb, rfl, hk⟩ := h.queued n q hn
    obtain ⟨b', hb', -, hname, -⟩ := change_heap_of_some hb
    exact ⟨b', hb', hname, hk⟩
  · intro q b' hq
    obtain ⟨b, hb, -⟩ := change_heap hq
    exact h.bound q b hb
  · intro q b' hq hne
    obtain ⟨b, hb, hid, hname, -⟩ := change_heap hq
    rw [hid] at hne ⊢
    rw [hname]
    exact h.hasRow q b hb hne
  · intro r hr q hq
    obtain ⟨b, hb, hrid⟩ := h.rowOwner r hr q hq
    obtain ⟨b', hb', hid, -⟩ := change_heap_of_some hb
    exact ⟨b', hb', hid.trans hrid⟩
  · exact h.distinct
  · exact h.ids
  · intro k q b' hk hq hname htouched hbut
    obtain ⟨b, hb, -, -, hsame⟩ := change_heap hq
    rw [hsame fun hqp => hbut (Set.mem_insert_iff.mpr (.inl hqp))] at hname ⊢
    exact h.current k q b hk hb hname htouched hbut
  · intro q hq
    exact change_heap_none (h.gone q hq)
  · exact h.past
  · exact h.order

/-- The log of a buddy who is excepted. -/
theorem Sound.note (h : Sound env (insert p but) s) (hp : s.heap p = some b) {a : Act}
    (ha : a = .set p ∨ a = .stored p) : Sound env (insert p but) (s.note a) := by
  have hpointer : a.pointer = p := by
    rcases ha with rfl | rfl <;> rfl
  have hremoved : ∀ q, .removed q ∈ (s.note a).log → .removed q ∈ s.log := by
    intro q hq
    rcases List.mem_append.mp hq with hq | hq
    · exact hq
    · rw [List.mem_singleton] at hq
      rcases ha with rfl | rfl <;> cases hq
  refine { h with current := ?_, gone := ?_, past := ?_, order := ?_ }
  · intro k q b' hk hq hname htouched hbut
    refine h.current k q b' hk hq hname ?_ hbut
    have hqp : q ≠ p := fun hqp => hbut (Set.mem_insert_iff.mpr (.inl hqp))
    rcases htouched with hmem | hmem
    · rcases List.mem_append.mp hmem with hmem | hmem
      · exact Or.inl hmem
      · rw [← List.mem_singleton.mp hmem] at hpointer
        exact absurd hpointer hqp
    · rcases List.mem_append.mp hmem with hmem | hmem
      · exact Or.inr hmem
      · rw [← List.mem_singleton.mp hmem] at hpointer
        exact absurd hpointer hqp
  · intro q hq
    exact h.gone q (hremoved q hq)
  · intro a' ha'
    rcases List.mem_append.mp ha' with ha' | ha'
    · exact h.past a' ha'
    · rw [List.mem_singleton.mp ha', hpointer]
      exact h.bound p b hp
  · refine List.pairwise_append.mpr ⟨h.order, List.pairwise_singleton _ _, ?_⟩
    intro a₁ _ a₂ ha₂ q _ heq
    rw [List.mem_singleton.mp ha₂] at heq
    rcases ha with rfl | rfl <;> cases heq

/-- What `storeBuddy` does. -/
theorem storeBuddy_eq_some (hs : s.storeBuddy p = some s') :
    ∃ b, s.heap p = some b ∧ s' =
      if b.data.name = "" then s.note (.stored p)
      else { s.note (.stored p) with queue := s.queue.set b.data.name p } := by
  obtain ⟨b, hb, heq⟩ := Option.bind_eq_some_iff.mp hs
  exact ⟨b, hb, (Option.some.inj heq).symm⟩

/-- A member is queued, whatever was changed about him. -/
theorem Sound.storeBuddy (h : Sound env (insert p but) s) (hk : s.buddies.get k = some (some p))
    (hs : s.storeBuddy p = some s') : Sound env but s' := by
  obtain ⟨b, hb, rfl⟩ := storeBuddy_eq_some hs
  have hlower : env.lower b.data.name = k := by
    obtain ⟨b', hb', hlower⟩ := h.member k p hk
    rw [hb] at hb'
    cases hb'
    exact hlower
  have hnote := h.note hb (Or.inr rfl)
  split
  · rename_i hempty
    -- A buddy without a name is not stored.
    refine { hnote with current := ?_ }
    intro k' q b' hk' hq hname htouched hbut
    refine hnote.current k' q b' hk' hq hname htouched fun hmem => hname ?_
    obtain rfl := (Set.mem_insert_iff.mp hmem).resolve_right hbut
    rw [State.note] at hq
    simp only at hq
    rw [hb] at hq
    cases hq
    exact hempty
  · refine { hnote with queued := ?_, current := ?_ }
    · intro n q hn
      simp only [SortedMap.get_set] at hn
      split at hn
      · rename_i hname
        cases hn
        exact ⟨b, hb, hname.symm, by rw [hname, hlower]; exact hk⟩
      · exact hnote.queued n q hn
    · intro k' q b' hk' hq hname htouched hbut
      simp only [SortedMap.get_set]
      by_cases hqp : q = p
      · subst hqp
        have hq' : s.heap q = some b' := hq
        rw [hb] at hq'
        cases hq'
        exact Or.inl (if_pos rfl)
      · have hne : b'.data.name ≠ b.data.name := by
          intro heq
          obtain ⟨b'', hb'', hlower'⟩ := h.member k' q hk'
          have hq' : s.heap q = some b' := hq
          rw [hb''] at hq'
          cases hq'
          rw [heq, hlower] at hlower'
          have hold : s.buddies.get k' = some (some q) := hk'
          rw [← hlower', hk] at hold
          exact hqp (Option.some.inj (Option.some.inj hold)).symm
        rw [if_neg hne]
        exact hnote.current k' q b' hk' hq hname htouched fun hmem =>
          hbut ((Set.mem_insert_iff.mp hmem).resolve_left hqp)

theorem storeBuddy_buddies (hs : s.storeBuddy p = some s') : s'.buddies = s.buddies := by
  obtain ⟨b, -, rfl⟩ := storeBuddy_eq_some hs
  split <;> rfl

/-- A setter of a member who is then stored. -/
theorem Sound.store (h : Sound env but s) (hk : s.buddies.get k = some (some p))
    {f : BuddyData → BuddyData} (hs : (s.change p f).storeBuddy p = some s') : Sound env but s' :=
  ((h.except p).change f).storeBuddy hk hs

/-- A buddy becomes a member under a key that had none. -/
theorem Sound.enter (h : Sound env but s) (hp : s.heap p = some b)
    (hfree : ∀ q, s.buddies.get (env.lower b.data.name) ≠ some (some q)) :
    Sound env (insert p but)
      { s with buddies := s.buddies.set (env.lower b.data.name) (some p) } := by
  refine { h with member := ?_, queued := ?_, current := ?_ }
  · intro k q hk
    simp only [SortedMap.get_set] at hk
    split at hk
    · rename_i hkey
      cases hk
      exact ⟨b, hp, hkey.symm⟩
    · exact h.member k q hk
  · intro n q hn
    obtain ⟨b', hb', hname, hk⟩ := h.queued n q hn
    refine ⟨b', hb', hname, ?_⟩
    simp only [SortedMap.get_set]
    split
    · rename_i hkey
      rw [hkey] at hk
      exact absurd hk (hfree q)
    · exact hk
  · intro k q b' hk hq hname htouched hbut
    simp only [SortedMap.get_set] at hk
    split at hk
    · cases hk
      exact absurd (Set.mem_insert p but) hbut
    · exact h.current k q b' hk hq hname htouched fun hmem => hbut (Set.mem_insert_of_mem p hmem)

/-- What `setBuddy` does: the buddy is entered, perhaps pushed, and stored. -/
theorem setBuddy_eq_some {pushed : Bool} (hs : s.setBuddy env p pushed = some s') :
    ∃ b s₁, s.heap p = some b ∧ s₁ = State.note
      { s with buddies := s.buddies.set (env.lower b.data.name) (some p) } (.set p) ∧
      (s₁.storeBuddy p = some s' ∨ ∃ s₂,
        (s₁.change p fun d => { d with ask := false }).storeBuddy p = some s₂ ∧
        s₂.storeBuddy p = some s') := by
  obtain ⟨b, hb, hs⟩ := Option.bind_eq_some_iff.mp hs
  refine ⟨b, _, hb, rfl, ?_⟩
  cases hask : pushed && b.data.ask with
  | false =>
    simp only [hask] at hs
    exact Or.inl hs
  | true =>
    simp only [hask] at hs
    obtain ⟨s₂, hs₂, hs⟩ := Option.bind_eq_some_iff.mp hs
    exact Or.inr ⟨s₂, hs₂, hs⟩

theorem Sound.setBuddy (h : Sound env but s) (hp : s.heap p = some b)
    (hfree : ∀ q, s.buddies.get (env.lower b.data.name) ≠ some (some q)) {pushed : Bool}
    (hs : s.setBuddy env p pushed = some s') : Sound env but s' := by
  obtain ⟨b', s₁, hb', rfl, hs⟩ := setBuddy_eq_some hs
  rw [hp] at hb'
  cases hb'
  have henter := (h.enter hp hfree).note hp (Or.inl rfl)
  have hk : (s.buddies.set (env.lower b.data.name) (some p)).get (env.lower b.data.name) =
      some (some p) := SortedMap.get_set_self _ _ _
  rcases hs with hs | ⟨s₂, hs₂, hs⟩
  · exact henter.storeBuddy hk hs
  · have hpushed := (henter.change fun d => { d with ask := false }).storeBuddy hk hs₂
    have hk₂ : s₂.buddies.get (env.lower b.data.name) = some (some p) := by
      rw [storeBuddy_buddies hs₂]
      exact hk
    exact (hpushed.except p).storeBuddy hk₂ hs

/-- What `removeBuddy` does. -/
theorem removeBuddy_cases (hs : s.removeBuddy env name = some s') :
    s' = (s.getBuddy env (env.lower name)).1 ∨
    ∃ k p b, s.buddies.get k = some (some p) ∧ s.heap p = some b ∧
      s' = State.note { s.delete p with
        rows := if b.id = -1 then s.rows else s.rows.filter fun r => decide (r.id ≠ b.id)
        buddies := s.buddies.erase (env.lower b.data.name)
        queue := s.queue.erase b.data.name } (.removed p) := by
  unfold State.removeBuddy at hs
  simp only at hs
  cases hfound : (s.getBuddy env (env.lower name)).2 with
  | none =>
    rw [hfound] at hs
    exact Or.inl (Option.some.inj hs).symm
  | some p =>
    obtain ⟨hsame, hk⟩ := getBuddy_of_some hfound
    rw [hfound] at hs
    simp only [hsame] at hs
    obtain ⟨b, hb, heq⟩ := Option.bind_eq_some_iff.mp hs
    exact Or.inr ⟨_, p, b, hk, hb, (Option.some.inj heq).symm⟩

/-- The rows that are left when a buddy is removed. -/
theorem mem_rows_of_removed {r : Row} : (r ∈ if b.id = -1 then s.rows
    else s.rows.filter fun r => decide (r.id ≠ b.id)) ↔ r ∈ s.rows ∧ (b.id ≠ -1 → r.id ≠ b.id) := by
  split
  · rename_i hid
    exact ⟨fun hr => ⟨hr, fun hne => absurd hid hne⟩, fun hr => hr.1⟩
  · rename_i hid
    rw [List.mem_filter, decide_eq_true_eq]
    exact ⟨fun hr => ⟨hr.1, fun _ => hr.2⟩, fun hr => ⟨hr.1, hr.2 hid⟩⟩

/-- Members under the same key are the same. -/
theorem Sound.member_unique (h : Sound env but s) {q : Nat} {b' : Buddy} {k' : String}
    (hk : s.buddies.get k = some (some p)) (hp : s.heap p = some b)
    (hk' : s.buddies.get k' = some (some q)) (hq : s.heap q = some b')
    (hlower : env.lower b'.data.name = env.lower b.data.name) : q = p := by
  obtain ⟨c, hc, rfl⟩ := h.member k p hk
  obtain ⟨c', hc', rfl⟩ := h.member k' q hk'
  rw [hp] at hc
  rw [hq] at hc'
  cases hc
  cases hc'
  rw [hlower, hk] at hk'
  exact (Option.some.inj (Option.some.inj hk')).symm

/-- What is on the heap after a deletion was there before. -/
theorem heap_of_delete {q : Nat} {b' : Buddy} (hq : (s.delete p).heap q = some b') :
    q ≠ p ∧ s.heap q = some b' := by
  rw [State.delete] at hq
  simp only at hq
  split at hq
  · cases hq
  · exact ⟨by assumption, hq⟩

theorem heap_delete_of_ne {q : Nat} {b' : Buddy} (hne : q ≠ p) (hq : s.heap q = some b') :
    (s.delete p).heap q = some b' := by
  rw [State.delete]
  simp only
  rw [if_neg hne, hq]

theorem mem_log_note {a a' : Act} (h : a' ∈ (s.note a).log) : a' ∈ s.log ∨ a' = a := by
  rcases List.mem_append.mp h with h | h
  · exact Or.inl h
  · exact Or.inr (List.mem_singleton.mp h)

theorem touched_of_note {a : Act} {q : Nat} (hset : .set q ≠ a) (hstored : .stored q ≠ a)
    (h : Touched q (s.note a)) : Touched q s := by
  rcases h with h | h
  · exact Or.inl ((mem_log_note h).resolve_right hset)
  · exact Or.inr ((mem_log_note h).resolve_right hstored)

/-- What happens to a buddy who is on the heap comes before his removal. -/
theorem Sound.log_note {a : Act} (h : Sound env but s) (hp : s.heap a.pointer = some b) :
    (∀ a' ∈ (s.note a).log, a'.pointer < s.next) ∧
    (s.note a).log.Pairwise fun a a' => ∀ p, a = .removed p → a' ≠ .written p := by
  constructor
  · intro a' ha'
    rcases mem_log_note ha' with hold | rfl
    · exact h.past a' hold
    · exact h.bound _ b hp
  · refine List.pairwise_append.mpr ⟨h.order, List.pairwise_singleton _ _, ?_⟩
    rintro a₁ hmem a₂ ha₂ q rfl heq
    rw [← List.mem_singleton.mp ha₂, heq, Act.pointer, h.gone q hmem] at hp
    cases hp

theorem Sound.remove (h : Sound env but s) (hk : s.buddies.get k = some (some p))
    (hp : s.heap p = some b) :
    Sound env but (State.note { s.delete p with
      rows := if b.id = -1 then s.rows else s.rows.filter fun r => decide (r.id ≠ b.id)
      buddies := s.buddies.erase (env.lower b.data.name)
      queue := s.queue.erase b.data.name } (.removed p)) := by
  have hmember : ∀ {k' q}, (s.buddies.erase (env.lower b.data.name)).get k' = some (some q) →
      q ≠ p ∧ s.buddies.get k' = some (some q) := by
    intro k' q hk'
    rw [SortedMap.get_erase] at hk'
    split at hk'
    · cases hk'
    · rename_i hne
      refine ⟨?_, hk'⟩
      rintro rfl
      obtain ⟨b', hb', hlower⟩ := h.member k' q hk'
      rw [hp] at hb'
      cases hb'
      exact hne hlower.symm
  constructor
  case member =>
    intro k' q hk'
    obtain ⟨hne, hk'⟩ := hmember hk'
    obtain ⟨b', hb', hlower⟩ := h.member k' q hk'
    exact ⟨b', heap_delete_of_ne hne hb', hlower⟩
  case queued =>
    intro n q hn
    have hn' : (s.queue.erase b.data.name).get n = some q := hn
    rw [SortedMap.get_erase] at hn'
    split at hn'
    · cases hn'
    · rename_i hne
      obtain ⟨b', hb', rfl, hk'⟩ := h.queued n q hn'
      have hqp : q ≠ p := by
        rintro rfl
        rw [hp] at hb'
        cases hb'
        exact hne rfl
      have hlower : env.lower b'.data.name ≠ env.lower b.data.name := fun heq =>
        hqp (h.member_unique hk hp hk' hb' heq)
      refine ⟨b', heap_delete_of_ne hqp hb', rfl, ?_⟩
      change (s.buddies.erase _).get _ = _
      rw [SortedMap.get_erase_of_ne hlower, hk']
  case bound =>
    intro q b' hq
    exact h.bound q b' (heap_of_delete hq).2
  case hasRow =>
    intro q b' hq hid
    obtain ⟨hqp, hq⟩ := heap_of_delete hq
    obtain ⟨r, hr, hrid, hrest⟩ := h.hasRow q b' hq hid
    refine ⟨r, mem_rows_of_removed.mpr ⟨hr, fun hne => ?_⟩, hrid, hrest⟩
    rw [hrid]
    exact h.id_ne hp hq hqp hne
  case rowOwner =>
    intro r hr q hq
    obtain ⟨hmem, hleft⟩ := mem_rows_of_removed.mp hr
    obtain ⟨b', hb', hrid⟩ := h.rowOwner r hmem q hq
    refine ⟨b', heap_delete_of_ne ?_ hb', hrid⟩
    rintro rfl
    rw [hp] at hb'
    cases hb'
    exact hleft (hrid ▸ h.ids r hmem) hrid.symm
  case distinct =>
    change List.Pairwise _ (if b.id = -1 then s.rows else _)
    split
    · exact h.distinct
    · exact h.distinct.filter _
  case ids =>
    intro r hr
    exact h.ids r (mem_rows_of_removed.mp hr).1
  case current =>
    intro k' q b' hk' hq hname htouched hbut
    obtain ⟨hqp, hk'⟩ := hmember hk'
    obtain ⟨-, hq⟩ := heap_of_delete hq
    have htouched' : Touched q s := touched_of_note (a := .removed p) nofun nofun htouched
    have hne : b'.data.name ≠ b.data.name := fun heq =>
      hqp (h.member_unique hk hp hk' hq (congrArg env.lower heq))
    rcases h.current k' q b' hk' hq hname htouched' hbut with hqueue | ⟨hid, r, hr, hrid, hdata⟩
    · left
      change (s.queue.erase _).get _ = _
      rw [SortedMap.get_erase_of_ne hne, hqueue]
    · refine Or.inr ⟨hid, r, mem_rows_of_removed.mpr ⟨hr, fun hid' => ?_⟩, hrid, hdata⟩
      rw [hrid]
      exact h.id_ne hp hq hqp hid'
  case gone =>
    intro q hq
    change (if q = p then none else s.heap q) = none
    split
    · rfl
    · rename_i hqp
      rcases mem_log_note (s := s) hq with hq | hq
      · exact h.gone q hq
      · cases hq
        exact absurd rfl hqp
  case past => exact (h.log_note (a := .removed p) hp).1
  case order => exact (h.log_note (a := .removed p) hp).2

theorem Sound.removeBuddy (h : Sound env but s) (hs : s.removeBuddy env name = some s') :
    Sound env but s' := by
  rcases removeBuddy_cases hs with rfl | ⟨k, p, b, hk, hp, rfl⟩
  · exact h.getBuddy _
  · exact h.remove hk hp

end Steps

end Spectrum.Roster
