import Spectrum.Roster.Sound

/-!
# The write-back queue

`storeBuddies` writes every buddy of the queue. What it has written stays up to date, so after it
every member that was set or stored has his row; and a buddy that was removed is not written again.
-/

namespace Spectrum.Roster

open Lib Storage

/-! ## Writing -/

section Writing

variable {env : Env} {s s' : State} {p : Nat} {b : Buddy}

/-- What writing a buddy does besides keeping the roster sound. -/
structure Wrote (p : Nat) (s s' : State) : Prop where
  buddies : s'.buddies = s.buddies
  queue : s'.queue = s.queue
  self : ∃ b, s'.heap p = some b ∧ Current b s'
  kept : ∀ q b, q ≠ p → s.heap q = some b → Current b s → s'.heap q = some b ∧ Current b s'

/-- `updateBuddy` reaches the row of the buddy and no other. -/
theorem Sound.update (h : Sound env but s) (hp : s.heap p = some b) (hid : b.id ≠ -1) :
    let s' := { s.note (.written p) with rows := s.rows.map fun r =>
      if r.data.name = b.data.name then { r with data := b.data, owner := some p } else r }
    Sound env but s' ∧ Wrote p s s' := by
  intro s'
  obtain ⟨r₀, hr₀, hid₀, hname₀, howner₀⟩ := h.hasRow p b hp hid
  let g := fun r : Row =>
    if r.data.name = b.data.name then { r with data := b.data, owner := some p } else r
  have hgid : ∀ r, (g r).id = r.id := by
    intro r
    simp only [g]
    split <;> rfl
  have hgname : ∀ r, (g r).data.name = r.data.name := by
    intro r
    simp only [g]
    split
    · rename_i hname
      exact hname.symm
    · rfl
  have hg : ∀ r ∈ s.rows, r = r₀ ∧ g r = ⟨r.id, b.data, some p⟩ ∨ g r = r := by
    intro r hr
    by_cases hname : r.data.name = b.data.name
    · refine Or.inl ⟨h.row_eq_of_name hr hr₀ (hname.trans hname₀.symm), ?_⟩
      simp only [g, if_pos hname]
    · refine Or.inr ?_
      simp only [g, if_neg hname]
  have hself : Current b s' := by
    refine ⟨hid, g r₀, List.mem_map_of_mem hr₀, (hgid r₀).trans hid₀, ?_⟩
    simp only [g, if_pos hname₀]
  have hkept : ∀ q b', s.heap q = some b' → Current b' s → Current b' s' := by
    rintro q b' hq ⟨hid', r, hr, hrid, hdata⟩
    rcases hg r hr with ⟨rfl, -⟩ | hsame
    · by_cases hqp : q = p
      · rw [hqp, hp] at hq
        cases hq
        exact hself
      · exact absurd (hrid.symm.trans hid₀) (h.id_ne hp hq hqp hid)
    · refine ⟨hid', g r, List.mem_map_of_mem hr, (hgid r).trans hrid, ?_⟩
      rw [hsame]
      exact hdata
  obtain ⟨hpast, horder⟩ := h.log_note (a := .written p) hp
  refine ⟨⟨h.member, h.queued, h.bound, ?hasRow, ?rowOwner, ?distinct, ?ids, ?current, ?gone, hpast,
      horder⟩,
    ⟨rfl, rfl, ⟨b, hp, hself⟩, fun q b' _ hq hcurrent => ⟨hq, hkept q b' hq hcurrent⟩⟩⟩
  case hasRow =>
    intro q b' hq hid'
    obtain ⟨r, hr, hrid, hrname, hrowner⟩ := h.hasRow q b' hq hid'
    refine ⟨g r, List.mem_map_of_mem hr, (hgid r).trans hrid, (hgname r).trans hrname, ?_⟩
    rcases hg r hr with ⟨rfl, heq⟩ | hsame
    · rw [heq, ← howner₀, hrowner]
    · rw [hsame, hrowner]
  case rowOwner =>
    intro r hr q hq
    obtain ⟨r', hr', rfl⟩ := List.mem_map.mp hr
    change (g r').owner = some q at hq
    change ∃ b, s.heap q = some b ∧ b.id = (g r').id
    rw [hgid]
    rcases hg r' hr' with ⟨rfl, heq⟩ | hsame
    · rw [heq] at hq
      exact ⟨b, Option.some.inj hq ▸ hp, hid₀.symm⟩
    · rw [hsame] at hq
      exact h.rowOwner r' hr' q hq
  case distinct =>
    refine List.pairwise_map.mpr (h.distinct.imp fun {r r'} hne => ?_)
    change (g r).id ≠ (g r').id ∧ (g r).data.name ≠ (g r').data.name
    rw [hgid, hgid, hgname, hgname]
    exact hne
  case ids =>
    intro r hr
    obtain ⟨r', hr', rfl⟩ := List.mem_map.mp hr
    change (g r').id ≠ -1
    rw [hgid]
    exact h.ids r' hr'
  case current =>
    intro k q b' hk hq hname htouched hbut
    have htouched' : Touched q s := touched_of_note (a := .written p) nofun nofun htouched
    rcases h.current k q b' hk hq hname htouched' hbut with hqueue | hcurrent
    · exact Or.inl hqueue
    · exact Or.inr (hkept q b' hq hcurrent)
  case gone =>
    intro q hq
    rcases mem_log_note hq with hq | hq
    · exact h.gone q hq
    · cases hq

/-- `addBuddy` gives the buddy a new row. -/
theorem Sound.addBuddy (h : Sound env but s) (hp : s.heap p = some b) (hid : b.id = -1)
    (hnew : ∀ r ∈ s.rows, r.data.name ≠ b.data.name) :
    let s' := { s.note (.written p) with
      rows := s.rows ++ [⟨env.nextId s.rows, b.data, some p⟩]
      heap := fun q => if q = p then some { b with id := env.nextId s.rows } else s.heap q }
    Sound env but s' ∧ Wrote p s s' := by
  intro s'
  have hne := env.nextId_ne s.rows
  have hfresh := env.nextId_fresh s.rows
  have hself : s'.heap p = some { b with id := env.nextId s.rows } := if_pos rfl
  have hother : ∀ {q}, q ≠ p → s'.heap q = s.heap q := fun hqp => if_neg hqp
  have hrow : ⟨env.nextId s.rows, b.data, some p⟩ ∈ s'.rows :=
    List.mem_append_right _ (List.mem_singleton_self _)
  have hold : ∀ {q b'}, s.heap q = some b' →
      ∃ b'', s'.heap q = some b'' ∧ b''.data = b'.data := by
    intro q b' hq
    by_cases hqp : q = p
    · rw [hqp, hp] at hq
      cases hq
      exact ⟨{ b with id := env.nextId s.rows }, hqp ▸ hself, rfl⟩
    · exact ⟨b', (hother hqp).trans hq, rfl⟩
  have hcurrent : Current { b with id := env.nextId s.rows } s' := ⟨hne, _, hrow, rfl, rfl⟩
  have hkept : ∀ {b'}, Current b' s → Current b' s' := by
    rintro b' ⟨hid', r, hr, hrest⟩
    exact ⟨hid', r, List.mem_append_left _ hr, hrest⟩
  obtain ⟨hpast, horder⟩ := h.log_note (a := .written p) hp
  refine ⟨⟨?member, ?queued, ?bound, ?hasRow, ?rowOwner, ?distinct, ?ids, ?current, ?gone, hpast,
      horder⟩,
    ⟨rfl, rfl, ⟨_, hself, hcurrent⟩, fun q b' hqp hq hq' => ⟨(hother hqp).trans hq, hkept hq'⟩⟩⟩
  case member =>
    intro k q hk
    obtain ⟨b', hb', hlower⟩ := h.member k q hk
    obtain ⟨b'', hb'', hdata⟩ := hold hb'
    exact ⟨b'', hb'', by rw [hdata, hlower]⟩
  case queued =>
    intro n q hn
    obtain ⟨b', hb', hname, hk⟩ := h.queued n q hn
    obtain ⟨b'', hb'', hdata⟩ := hold hb'
    exact ⟨b'', hb'', by rw [hdata, hname], hk⟩
  case bound =>
    intro q b' hq
    by_cases hqp : q = p
    · exact hqp ▸ h.bound p b hp
    · exact h.bound q b' ((hother hqp).symm.trans hq)
  case hasRow =>
    intro q b' hq hid'
    by_cases hqp : q = p
    · rw [hqp, hself] at hq
      cases hq
      exact ⟨_, hrow, rfl, rfl, congrArg some hqp.symm⟩
    · obtain ⟨r, hr, hrest⟩ := h.hasRow q b' ((hother hqp).symm.trans hq) hid'
      exact ⟨r, List.mem_append_left _ hr, hrest⟩
  case rowOwner =>
    intro r hr q hq
    rcases List.mem_append.mp hr with hmem | hmem
    · obtain ⟨b', hb', hrid⟩ := h.rowOwner r hmem q hq
      have hqp : q ≠ p := by
        rintro rfl
        rw [hp] at hb'
        cases hb'
        exact h.ids r hmem (hrid.symm.trans hid)
      exact ⟨b', (hother hqp).trans hb', hrid⟩
    · rw [List.mem_singleton.mp hmem] at hq ⊢
      exact ⟨_, Option.some.inj hq ▸ hself, rfl⟩
  case distinct =>
    refine List.pairwise_append.mpr ⟨h.distinct, List.pairwise_singleton _ _, ?_⟩
    intro r hr r' hr'
    rw [List.mem_singleton.mp hr']
    exact ⟨hfresh r hr, hnew r hr⟩
  case ids =>
    intro r hr
    rcases List.mem_append.mp hr with hr | hr
    · exact h.ids r hr
    · rw [List.mem_singleton.mp hr]
      exact hne
  case current =>
    intro k q b' hk hq hname htouched hbut
    by_cases hqp : q = p
    · rw [hqp, hself] at hq
      cases hq
      exact Or.inr hcurrent
    · have hq' := (hother hqp).symm.trans hq
      have htouched' : Touched q s := touched_of_note (a := .written p) nofun nofun htouched
      rcases h.current k q b' hk hq' hname htouched' hbut with hqueue | hrow'
      · exact Or.inl hqueue
      · exact Or.inr (hkept hrow')
  case gone =>
    intro q hq
    rcases mem_log_note hq with hq | hq
    · have hgone := h.gone q hq
      have hqp : q ≠ p := by
        rintro rfl
        rw [hp] at hgone
        cases hgone
      exact (hother hqp).trans hgone
    · cases hq

theorem Sound.writeBuddy (h : Sound env but s) (hs : s.writeBuddy env p = some s') :
    Sound env but s' ∧ Wrote p s s' := by
  obtain ⟨b, hp, hs⟩ := Option.bind_eq_some_iff.mp hs
  simp only at hs
  split at hs
  · rename_i hid
    cases hs
    exact h.update hp hid
  · rename_i hid
    split at hs
    · cases hs
    · rename_i hany
      cases hs
      refine h.addBuddy hp (not_not.mp hid) fun r hr hname => hany ?_
      exact List.any_eq_true.mpr ⟨r, hr, decide_eq_true hname⟩

/-- The loop of `storeBuddies`. What it has written stays up to date. -/
theorem Sound.writeAll {l : List (String × Nat)} (h : Sound env but s)
    (hs : l.foldlM (fun s e => s.writeBuddy env e.2) s = some s') :
    Sound env but s' ∧ s'.buddies = s.buddies ∧ s'.queue = s.queue ∧
      (∀ e ∈ l, ∃ b, s'.heap e.2 = some b ∧ Current b s') ∧
      ∀ q b, s.heap q = some b → Current b s → ∃ b, s'.heap q = some b ∧ Current b s' := by
  induction l generalizing s with
  | nil =>
    cases hs
    exact ⟨h, rfl, rfl, nofun, fun q b hq hcurrent => ⟨b, hq, hcurrent⟩⟩
  | cons e l ih =>
    rw [List.foldlM_cons] at hs
    obtain ⟨s₁, hs₁, hs⟩ := Option.bind_eq_some_iff.mp hs
    obtain ⟨h₁, hwrote⟩ := h.writeBuddy hs₁
    obtain ⟨h', hbuddies, hqueue, hall, hkept⟩ := ih h₁ hs
    refine ⟨h', hbuddies.trans hwrote.buddies, hqueue.trans hwrote.queue, ?_, ?_⟩
    · intro e' he'
      rcases List.mem_cons.mp he' with rfl | he'
      · obtain ⟨b, hb, hcurrent⟩ := hwrote.self
        exact hkept _ b hb hcurrent
      · exact hall e' he'
    · intro q b hq hcurrent
      by_cases hqe : q = e.2
      · obtain ⟨b', hb', hcurrent'⟩ := hwrote.self
        exact hkept q b' (hqe ▸ hb') hcurrent'
      · obtain ⟨hq', hcurrent'⟩ := hwrote.kept q b hqe hq hcurrent
        exact hkept q b hq' hcurrent'

theorem Sound.storeBuddies (h : Sound env but s) (hs : s.storeBuddies env = some s') :
    Sound env but s' ∧ s'.queue = {} := by
  obtain ⟨s₁, hs₁, heq⟩ := Option.bind_eq_some_iff.mp hs
  cases heq
  obtain ⟨h₁, hbuddies, hqueue, hall, -⟩ := h.writeAll hs₁
  refine ⟨{ h₁ with queued := nofun, current := ?_ }, rfl⟩
  intro k q b hk hq hname htouched hbut
  refine Or.inr ?_
  rcases h₁.current k q b hk hq hname htouched hbut with hget | hcurrent
  · rw [hqueue] at hget
    obtain ⟨b', hb', hcurrent⟩ := hall _ (SortedMap.mem_entries_iff.mpr hget)
    have hq' : s₁.heap q = some b := hq
    rw [hq'] at hb'
    cases hb'
    exact hcurrent
  · exact hcurrent

theorem Sound.storeBuddies_buddies (h : Sound env but s) (hs : s.storeBuddies env = some s') :
    s'.buddies = s.buddies := by
  obtain ⟨s₁, hs₁, heq⟩ := Option.bind_eq_some_iff.mp hs
  cases heq
  exact (h.writeAll hs₁).2.1

end Writing

/-! ## Subscriptions -/

section Subscriptions

variable {env : Env} {s s' : State} {name legacyName : String} {type : State.Subscription}
  {flags : Int} {pushed : Bool}

/-- `JIDToLegacyName` looks the name up once. -/
theorem jidToLegacyName_fst {s₁ : State} (h : s.jidToLegacyName env name = some (s₁, legacyName)) :
    s₁ = (s.getBuddy env name).1 := by
  unfold State.jidToLegacyName at h
  simp only at h
  cases hfound : (s.getBuddy env name).2 with
  | none =>
    rw [hfound] at h
    cases h
    rfl
  | some p =>
    rw [hfound] at h
    obtain ⟨b, -, heq⟩ := Option.bind_eq_some_iff.mp h
    cases heq
    rfl

/-- What a subscription does to a buddy that is there. -/
theorem handleSubscription_known {s₂ : State} {p : Nat} {b : Buddy}
    (hs : (if env.serverMode then
        if type = .unsubscribe then s₂.removeBuddy env b.data.name else some s₂
      else
        match type with
        | .subscribe | .subscribed =>
          if b.data.ask then (s₂.change p fun d => { d with ask := false }).storeBuddy p else some s₂
        | .unsubscribe => s₂.removeBuddy env b.data.name
        | .unsubscribed => if b.data.ask then s₂.removeBuddy env b.data.name else some s₂) = some s') :
    s' = s₂ ∨ (s₂.change p fun d => { d with ask := false }).storeBuddy p = some s' ∨
      (type = .unsubscribe ∨ type = .unsubscribed) ∧ s₂.removeBuddy env b.data.name = some s' := by
  split at hs
  · split at hs
    · rename_i htype
      exact Or.inr (Or.inr ⟨Or.inl htype, hs⟩)
    · exact Or.inl (Option.some.inj hs).symm
  · cases type with
    | subscribe | subscribed =>
      simp only at hs
      split at hs
      · exact Or.inr (Or.inl hs)
      · exact Or.inl (Option.some.inj hs).symm
    | unsubscribe => exact Or.inr (Or.inr ⟨Or.inl rfl, hs⟩)
    | unsubscribed =>
      simp only at hs
      split at hs
      · exact Or.inr (Or.inr ⟨Or.inr rfl, hs⟩)
      · exact Or.inl (Option.some.inj hs).symm

/-- What `handleSubscription` does: a lookup, and unless the name is empty a second lookup and what
its result calls for. -/
theorem handleSubscription_cases
    (hs : s.handleSubscription env name type flags pushed = some s') :
    ∃ s₁ legacyName, s.jidToLegacyName env name = some (s₁, legacyName) ∧
      (legacyName = "" ∧ s' = s₁ ∨ legacyName ≠ "" ∧ ∃ s₂, s₂ = (s₁.getBuddy env legacyName).1 ∧
        ((s₁.getBuddy env legacyName).2 = none ∧
            (type = .subscribe ∨ type = .subscribed ∧ env.serverMode = false) ∧
            (s₂.alloc { id := -1, data := { name := legacyName, flags } }).setBuddy env s₂.next
              pushed = some s' ∨
          (s₁.getBuddy env legacyName).2 = none ∧
            ¬ (type = .subscribe ∨ type = .subscribed ∧ env.serverMode = false) ∧ s' = s₂ ∨
          ∃ p b, (s₁.getBuddy env legacyName).2 = some p ∧ s₂.heap p = some b ∧ (s' = s₂ ∨
            (s₂.change p fun d => { d with ask := false }).storeBuddy p = some s' ∨
            (type = .unsubscribe ∨ type = .unsubscribed) ∧
              s₂.removeBuddy env b.data.name = some s'))) := by
  obtain ⟨⟨s₁, legacyName⟩, hlegacy, hs⟩ := Option.bind_eq_some_iff.mp hs
  refine ⟨s₁, legacyName, hlegacy, ?_⟩
  simp only at hs
  split at hs
  · rename_i hempty
    exact Or.inl ⟨hempty, (Option.some.inj hs).symm⟩
  · rename_i hname
    refine Or.inr ⟨hname, _, rfl, ?_⟩
    cases hfound : (s₁.getBuddy env legacyName).2 with
    | none =>
      simp only [hfound] at hs
      split at hs
      · rename_i hnew
        exact Or.inl ⟨rfl, hnew, hs⟩
      · rename_i hnew
        exact Or.inr (Or.inl ⟨rfl, hnew, (Option.some.inj hs).symm⟩)
    | some p =>
      simp only [hfound] at hs
      obtain ⟨b, hb, hs⟩ := Option.bind_eq_some_iff.mp hs
      exact Or.inr (Or.inr ⟨p, b, rfl, hb, handleSubscription_known hs⟩)

/-- A new buddy is set under a name that was not found. -/
theorem Sound.setNew (h : Sound env but s) {data : BuddyData}
    (hfree : s.buddies.get (env.lower data.name) = some none)
    (hs : (s.alloc ⟨-1, data⟩).setBuddy env s.next pushed = some s') : Sound env but s' := by
  refine (h.alloc rfl).setBuddy (if_pos rfl) (fun q hq => ?_) hs
  have hq' : s.buddies.get (env.lower data.name) = some (some q) := hq
  rw [hfree] at hq'
  cases hq'

theorem Sound.handleSubscription (h : Sound env but s)
    (hs : s.handleSubscription env name type flags pushed = some s') : Sound env but s' := by
  obtain ⟨s₁, legacyName, hlegacy, hcases⟩ := handleSubscription_cases hs
  have h₁ : Sound env but s₁ := by
    rw [jidToLegacyName_fst hlegacy]
    exact h.getBuddy name
  rcases hcases with ⟨-, rfl⟩ | ⟨-, s₂, hs₂, hcases⟩
  · exact h₁
  have h₂ : Sound env but s₂ := by
    rw [hs₂]
    exact h₁.getBuddy legacyName
  rcases hcases with ⟨hnone, -, hs⟩ | ⟨-, -, rfl⟩ | ⟨p, b, hfound, hb, hcases⟩
  · refine h₂.setNew ?_ hs
    rw [hs₂]
    exact getBuddy_of_none hnone
  · exact h₂
  · obtain ⟨hsame, hk⟩ := getBuddy_of_some hfound
    rcases hcases with rfl | hs | ⟨-, hs⟩
    · exact h₂
    · have hk₂ : s₂.buddies.get (env.lower legacyName) = some (some p) := by
        rw [hs₂, hsame]
        exact hk
      exact h₂.store hk₂ hs
    · exact h₂.removeBuddy hs

end Subscriptions

/-! ## Changes that a backend reports -/

section Changes

variable {env : Env} {but : Set Nat} {s s₁ s' : State} {p : Nat} {b : Buddy} {d d' : BuddyData}
  {k : String} {payload : BuddyPayload}

/-- The buddy will be written by the next `storeBuddies`, unless he has no name. -/
def Waits (p : Nat) (s : State) : Prop :=
  ∀ b, s.heap p = some b → b.data.name ≠ "" → s.queue.get b.data.name = some p

/-- The buddy has the data `d` now, and he waits if that made a difference. -/
structure Updated (p : Nat) (d : BuddyData) (s s' : State) : Prop where
  buddies : s'.buddies = s.buddies
  self : ∃ b, s'.heap p = some b ∧ b.data = d
  stored : s' = s ∨ Waits p s'

theorem Updated.refl (hp : s.heap p = some b) : Updated p b.data s s :=
  ⟨rfl, ⟨b, hp, rfl⟩, .inl rfl⟩

theorem Updated.trans (h : Updated p d s s₁) (h' : Updated p d' s₁ s') : Updated p d' s s' := by
  refine ⟨h'.buddies.trans h.buddies, h'.self, ?_⟩
  rcases h'.stored with rfl | hwaits
  · exact h.stored
  · exact Or.inr hwaits

theorem storeBuddy_of_heap (hp : s.heap p = some b) :
    ∃ s', s.storeBuddy p = some s' ∧ s'.heap = s.heap := by
  unfold State.storeBuddy
  rw [hp]
  refine ⟨_, rfl, ?_⟩
  split <;> rfl

theorem waits_of_storeBuddy (hs : s.storeBuddy p = some s') : Waits p s' := by
  obtain ⟨b, hb, rfl⟩ := storeBuddy_eq_some hs
  by_cases hempty : b.data.name = ""
  · rw [if_pos hempty]
    intro b' hb' hname
    have hsame : s.heap p = some b' := hb'
    rw [hb] at hsame
    cases hsame
    exact absurd hempty hname
  · rw [if_neg hempty]
    intro b' hb' _
    have hsame : s.heap p = some b' := hb'
    rw [hb] at hsame
    cases hsame
    exact SortedMap.get_set_self _ _ _

/-- What a setter does that does not touch the name. -/
theorem updated_of_setAndStore {f : BuddyData → BuddyData} (hname : ∀ d, (f d).name = d.name)
    (hp : s.heap p = some b) (hs : s.setAndStore p f = some s') : Updated p (f b.data) s s' := by
  unfold State.setAndStore at hs
  rw [hp, Option.bind_eq_bind, Option.bind_some] at hs
  split at hs
  · rename_i hsame
    cases hs
    rw [hsame]
    exact Updated.refl hp
  · have hheap : (s.change p f).heap p = some { b with data := f b.data } := by
      unfold State.change
      simp only [if_pos, hp, Option.map_some]
      rw [← hname b.data]
    obtain ⟨s₁, hs₁, hsame⟩ := storeBuddy_of_heap hheap
    rw [hs] at hs₁
    cases hs₁
    exact ⟨(storeBuddy_buddies hs).trans rfl, ⟨_, hsame ▸ hheap, rfl⟩,
      Or.inr (waits_of_storeBuddy hs)⟩

theorem Sound.setAndStore {f : BuddyData → BuddyData} (h : Sound env but s)
    (hk : s.buddies.get k = some (some p)) (hs : s.setAndStore p f = some s') :
    Sound env but s' := by
  obtain ⟨b, -, hs⟩ := Option.bind_eq_some_iff.mp hs
  split at hs
  · cases hs
    exact h
  · exact h.store hk hs

/-- A setter that is called unless `c`. -/
theorem Sound.setter {f : BuddyData → BuddyData} {c : Prop} [Decidable c] (h : Sound env but s)
    (hname : ∀ d, (f d).name = d.name) (hk : s.buddies.get k = some (some p))
    (hp : s.heap p = some b) (hs : (if c then some s else s.setAndStore p f) = some s') :
    Sound env but s' ∧ Updated p (if c then b.data else f b.data) s s' := by
  by_cases hc : c
  · rw [if_pos hc] at hs ⊢
    cases hs
    exact ⟨h, Updated.refl hp⟩
  · rw [if_neg hc] at hs ⊢
    exact ⟨h.setAndStore hk hs, updated_of_setAndStore hname hp hs⟩

/-- The setters before the last one: they store the buddy if they change him. -/
theorem handleBuddyPayload_cases (h : Sound env but s) (hk : s.buddies.get k = some (some p))
    (hp : s.heap p = some b) (hs : s.handleBuddyPayload p payload = some s') :
    ∃ s₁, Sound env but s₁ ∧ Updated p (payload.update b.data) s s₁ ∧
      s' = s₁.setBlocked p payload.blocked := by
  unfold State.handleBuddyPayload at hs
  obtain ⟨s₁, hs₁, hs⟩ := Option.bind_eq_some_iff.mp hs
  obtain ⟨s₂, hs₂, hs⟩ := Option.bind_eq_some_iff.mp hs
  obtain ⟨s₃, hs₃, rfl⟩ := Option.map_eq_some_iff.mp hs
  unfold State.setAlias at hs₁
  unfold State.setGroups at hs₂
  unfold State.setIconHash at hs₃
  obtain ⟨h₁, hu₁⟩ := h.setter (by intro _; rfl) hk hp hs₁
  obtain ⟨b₁, hb₁, hdata₁⟩ := hu₁.self
  have hk₁ : s₁.buddies.get k = some (some p) := by
    rw [hu₁.buddies, hk]
  obtain ⟨h₂, hu₂⟩ := h₁.setter (by intro _; rfl) hk₁ hb₁ hs₂
  obtain ⟨b₂, hb₂, hdata₂⟩ := hu₂.self
  have hk₂ : s₂.buddies.get k = some (some p) := by
    rw [hu₂.buddies, hk₁]
  have hu₃ := updated_of_setAndStore (by intro _; rfl) hb₂ hs₃
  rw [hdata₂, hdata₁] at hu₃
  exact ⟨s₃, h₂.setAndStore hk₂ hs₃, (hu₁.trans hu₂).trans hu₃, rfl⟩

/-- After a report the buddy may have flags that are not stored. -/
theorem Sound.handleBuddyPayload (h : Sound env but s) (hk : s.buddies.get k = some (some p))
    (hs : s.handleBuddyPayload p payload = some s') : Sound env (insert p but) s' := by
  obtain ⟨b, hp, -⟩ := h.member k p hk
  obtain ⟨s₁, h₁, -, rfl⟩ := handleBuddyPayload_cases h hk hp hs
  exact (h₁.except p).change _

/-- A buddy is no exception if there is nothing to store of him. -/
theorem Sound.settle (h : Sound env (insert p but) s)
    (hp : ∀ b, s.heap p = some b → b.data.name ≠ "" → Touched p s →
      s.queue.get b.data.name = some p ∨ Current b s) : Sound env but s := by
  refine { h with current := fun k q b hk hq hname htouched hbut => ?_ }
  by_cases hqp : q = p
  · subst hqp
    exact hp b hq hname htouched
  · exact h.current k q b hk hq hname htouched fun hmem =>
      hbut ((Set.mem_insert_iff.mp hmem).resolve_left hqp)

/-- A change that changes nothing. -/
theorem change_eq_self {f : BuddyData → BuddyData} (hp : s.heap p = some b) (hf : f b.data = b.data) :
    s.change p f = s := by
  have hheap : (s.change p f).heap = s.heap := by
    funext q
    rw [State.change]
    simp only
    split
    · rename_i hqp
      rw [hqp, hp, Option.map_some, hf]
    · rfl
  calc s.change p f = { s with heap := (s.change p f).heap } := rfl
    _ = s := by rw [hheap]

/-- A report of the flag leaves no stale row if the buddy waits to be written, by an earlier store or
by another change of the same report, if the flag stays as it is, or if he was not set or stored. -/
def Flagged (payload : BuddyPayload) (s : State) (p : Nat) (b : Buddy) : Prop :=
  payload.update b.data ≠ b.data ∨ s.queue.get b.data.name = some p ∨
    setBlockedFlag b.data payload.blocked = b.data ∨ b.data.name = "" ∨ ¬ Touched p s

instance (p : Nat) (s : State) : Decidable (Touched p s) := inferInstanceAs (Decidable (_ ∨ _))

instance (payload : BuddyPayload) (s : State) (p : Nat) (b : Buddy) :
    Decidable (Flagged payload s p b) := inferInstanceAs (Decidable (_ ∨ _))

theorem Sound.handleBuddyPayload_of_flagged (h : Sound env but s)
    (hk : s.buddies.get k = some (some p)) (hp : s.heap p = some b)
    (hs : s.handleBuddyPayload p payload = some s') (hflag : Flagged payload s p b) :
    Sound env but s' := by
  obtain ⟨s₁, h₁, hupdated, rfl⟩ := handleBuddyPayload_cases h hk hp hs
  have hexcept : Sound env (insert p but) (s₁.setBlocked p payload.blocked) :=
    (h₁.except p).change _
  have hofWaits : Waits p s₁ → Sound env but (s₁.setBlocked p payload.blocked) := by
    intro hwaits
    refine hexcept.settle fun b' hb' hname _ => Or.inl ?_
    obtain ⟨b₁, hb₁, -, hsame, -⟩ := change_heap hb'
    rw [hsame] at hname ⊢
    exact hwaits b₁ hb₁ hname
  rcases hupdated.stored with rfl | hwaits
  · obtain ⟨b₁, hb₁, hdata⟩ := hupdated.self
    rw [hp] at hb₁
    cases hb₁
    rcases hflag with hne | hqueue | hflag | hempty | huntouched
    · exact absurd hdata.symm hne
    · refine hofWaits fun b' hb' _ => ?_
      rw [hp] at hb'
      cases hb'
      exact hqueue
    · rw [State.setBlocked, change_eq_self hp hflag]
      exact h₁
    · refine hofWaits fun b' hb' hname => ?_
      rw [hp] at hb'
      cases hb'
      exact absurd hempty hname
    · exact hexcept.settle fun _ _ _ htouched => absurd htouched huntouched
  · exact hofWaits hwaits

end Changes

/-! ## Runs -/

section Runs

variable {env : Env} {but : Set Nat} {s s' : State} {e : Event}

/-- What is promised, also once the roster is destroyed. -/
structure Kept (env : Env) (s : State) : Prop where
  queued : ∀ n p, s.queue.get n = some p →
    ∃ b, s.heap p = some b ∧ b.data.name = n ∧ s.buddies.get (env.lower n) = some (some p)
  noRow : ∀ p, .removed p ∈ s.log → ∀ r ∈ s.rows, r.owner ≠ some p
  order : s.log.Pairwise fun a a' => ∀ p, a = .removed p → a' ≠ .written p

theorem Sound.kept (h : Sound env but s) : Kept env s := by
  refine ⟨h.queued, fun p hp r hr howner => ?_, h.order⟩
  obtain ⟨b, hb, -⟩ := h.rowOwner r hr p howner
  rw [h.gone p hp] at hb
  cases hb

/-- The roster is stored before it is destroyed. -/
theorem Sound.destroy (h : Sound env but s) (hs : s.destroy env = some s') :
    s'.alive = false ∧ Kept env s' := by
  obtain ⟨s₁, hs₁, heq⟩ := Option.bind_eq_some_iff.mp hs
  cases heq
  obtain ⟨h₁, hqueue⟩ := h.storeBuddies hs₁
  refine ⟨rfl, fun n p hn => ?_, h₁.kept.noRow, h₁.order⟩
  simp only [hqueue] at hn
  cases hn

/-- The step does not change the flags of a buddy whose row is left as it is. -/
def KeepsRow (env : Env) (s : State) : Event → Prop
  | .handleBuddyPayload name payload =>
    ∀ p ∈ (s.getBuddy env name).2, ∀ b ∈ s.heap p, Flagged payload s p b
  | _ => True

instance (env : Env) (s : State) (e : Event) : Decidable (KeepsRow env s e) := by
  unfold KeepsRow
  split <;> infer_instance

/-- Every step but the last one keeps the roster sound, except for the buddy whose flags it changes. -/
theorem Sound.step (h : Sound env but s) (hs : step env s e = some s') (hlast : e ≠ .destroy) :
    (∃ but', Sound env but' s') ∧ (KeepsRow env s e → Sound env but s') := by
  have hall : Sound env but s' → (∃ but', Sound env but' s') ∧ (KeepsRow env s e → Sound env but s') :=
    fun h' => ⟨⟨but, h'⟩, fun _ => h'⟩
  unfold Roster.step at hs
  split at hs
  · cases e with
    | getBuddy name =>
      cases hs
      exact hall (h.getBuddy name)
    | setBuddy data pushed =>
      simp only at hs
      cases hfound : (s.getBuddy env data.name).2 with
      | none =>
        rw [hfound] at hs
        exact hall ((h.getBuddy data.name).setNew (getBuddy_of_none hfound) hs)
      | some p =>
        rw [hfound] at hs
        cases hs
        exact hall (h.getBuddy data.name)
    | storeBuddy name f =>
      simp only at hs
      cases hfound : (s.getBuddy env name).2 with
      | none =>
        rw [hfound] at hs
        cases hs
        exact hall (h.getBuddy name)
      | some p =>
        obtain ⟨hsame, hk⟩ := getBuddy_of_some hfound
        rw [hfound] at hs
        simp only [hsame] at hs
        exact hall (h.store hk hs)
    | handleBuddyPayload name payload =>
      simp only at hs
      cases hfound : (s.getBuddy env name).2 with
      | none =>
        rw [hfound] at hs
        cases hs
        exact hall (h.getBuddy name)
      | some p =>
        obtain ⟨hsame, hk⟩ := getBuddy_of_some hfound
        rw [hfound] at hs
        simp only [hsame] at hs
        refine ⟨⟨_, h.handleBuddyPayload hk hs⟩, fun hkeeps => ?_⟩
        obtain ⟨b, hb, -⟩ := h.member _ p hk
        exact h.handleBuddyPayload_of_flagged hk hb hs (hkeeps p hfound b hb)
    | removeBuddy name => exact hall (h.removeBuddy hs)
    | handleSubscription name type flags pushed => exact hall (h.handleSubscription hs)
    | tick => exact hall (h.storeBuddies hs).1
    | destroy => exact absurd rfl hlast
  · cases hs

/-- Loading one more row. -/
theorem Sound.loadBuddy (h : Sound env but s) (hqueue : s.queue = {}) (hlog : s.log = [])
    {r : Int × BuddyData × Bool} (hid : r.1 ≠ -1)
    (hnew : ∀ r' ∈ s.rows, r'.id ≠ r.1 ∧ r'.data.name ≠ r.2.1.name) :
    Sound env but (s.loadBuddy env r) := by
  have hdistinct : ∀ owner, (s.rows ++ [(⟨r.1, r.2.1, owner⟩ : Row)]).Pairwise fun r r' =>
      r.id ≠ r'.id ∧ r.data.name ≠ r'.data.name := by
    intro owner
    refine List.pairwise_append.mpr ⟨h.distinct, List.pairwise_singleton _ _, ?_⟩
    intro r' hr' r'' hr''
    rw [List.mem_singleton.mp hr'']
    exact hnew r' hr'
  have hids : ∀ owner, ∀ r' ∈ s.rows ++ [(⟨r.1, r.2.1, owner⟩ : Row)], r'.id ≠ -1 := by
    intro owner r' hr'
    rcases List.mem_append.mp hr' with hr' | hr'
    · exact h.ids r' hr'
    · rw [List.mem_singleton.mp hr']
      exact hid
  unfold State.loadBuddy
  split
  · have hself : (s.alloc ⟨r.1, r.2.1⟩).heap s.next = some ⟨r.1, r.2.1⟩ := if_pos rfl
    have hother : ∀ {q}, q ≠ s.next → (s.alloc ⟨r.1, r.2.1⟩).heap q = s.heap q :=
      fun hq => if_neg hq
    have hold : ∀ {q b}, s.heap q = some b → (s.alloc ⟨r.1, r.2.1⟩).heap q = some b :=
      fun hq => (hother (Nat.ne_of_lt (h.bound _ _ hq))).trans hq
    refine ⟨?_, ?_, ?_, ?_, ?_, hdistinct _, hids _, ?_, ?_, ?_, ?_⟩
    · intro k q hk
      simp only [SortedMap.get_set] at hk
      split at hk
      · rename_i hkey
        cases hk
        exact ⟨_, hself, hkey.symm⟩
      · obtain ⟨b, hb, hlower⟩ := h.member k q hk
        exact ⟨b, hold hb, hlower⟩
    · intro n q hn
      have hn' : s.queue.get n = some q := hn
      rw [hqueue] at hn'
      cases hn'
    · intro q b hq
      change q < s.next + 1
      by_cases hqp : q = s.next
      · omega
      · exact Nat.lt_succ_of_lt (h.bound q b ((hother hqp).symm.trans hq))
    · intro q b hq hid'
      by_cases hqp : q = s.next
      · rw [hqp] at hq ⊢
        have hb := hself.symm.trans hq
        cases hb
        exact ⟨_, List.mem_append_right _ (List.mem_singleton_self _), rfl, rfl, rfl⟩
      · obtain ⟨r', hr', hrest⟩ := h.hasRow q b ((hother hqp).symm.trans hq) hid'
        exact ⟨r', List.mem_append_left _ hr', hrest⟩
    · intro r' hr' q hq
      rcases List.mem_append.mp hr' with hr' | hr'
      · obtain ⟨b, hb, hrid⟩ := h.rowOwner r' hr' q hq
        exact ⟨b, hold hb, hrid⟩
      · rw [List.mem_singleton.mp hr'] at hq ⊢
        exact ⟨_, Option.some.inj hq ▸ hself, rfl⟩
    all_goals simp [State.alloc, hlog, Touched]
  · refine { h with hasRow := ?_, rowOwner := ?_, distinct := hdistinct _, ids := hids _,
                    current := ?_ }
    · intro q b hq hid'
      obtain ⟨r', hr', hrest⟩ := h.hasRow q b hq hid'
      exact ⟨r', List.mem_append_left _ hr', hrest⟩
    · intro r' hr' q hq
      rcases List.mem_append.mp hr' with hr' | hr'
      · exact h.rowOwner r' hr' q hq
      · rw [List.mem_singleton.mp hr'] at hq
        cases hq
    · simp [hlog, Touched]

theorem loadBuddy_frame (env : Env) (r : Int × BuddyData × Bool) (s : State) :
    (s.loadBuddy env r).queue = s.queue ∧ (s.loadBuddy env r).log = s.log ∧
      ∃ owner, (s.loadBuddy env r).rows = s.rows ++ [⟨r.1, r.2.1, owner⟩] := by
  unfold State.loadBuddy
  split
  · exact ⟨rfl, rfl, _, rfl⟩
  · exact ⟨rfl, rfl, _, rfl⟩

theorem Sound.load {rows : List (Int × BuddyData × Bool)} (h : Sound env but s)
    (hqueue : s.queue = {}) (hlog : s.log = [])
    (hdistinct : rows.Pairwise fun r r' => r.1 ≠ r'.1 ∧ r.2.1.name ≠ r'.2.1.name)
    (hids : ∀ r ∈ rows, r.1 ≠ -1)
    (hnew : ∀ r ∈ rows, ∀ r' ∈ s.rows, r'.id ≠ r.1 ∧ r'.data.name ≠ r.2.1.name) :
    Sound env but (rows.foldl (State.loadBuddy env) s) := by
  induction rows generalizing s with
  | nil => exact h
  | cons r rows ih =>
    obtain ⟨hfirst, hrest⟩ := List.pairwise_cons.mp hdistinct
    obtain ⟨hqueue', hlog', owner, hrows⟩ := loadBuddy_frame env r s
    have hmem := List.mem_cons_self (a := r) (l := rows)
    refine ih (h.loadBuddy hqueue hlog (hids r hmem) (hnew r hmem)) (hqueue'.trans hqueue)
      (hlog'.trans hlog) hrest (fun r' hr' => hids r' (List.mem_cons_of_mem _ hr')) ?_
    intro r' hr' row hrow
    rw [hrows] at hrow
    rcases List.mem_append.mp hrow with hrow | hrow
    · exact hnew r' (List.mem_cons_of_mem _ hr') row hrow
    · rw [List.mem_singleton.mp hrow]
      exact hfirst r' hr'

theorem Sound.empty (env : Env) : Sound env but {} := by
  constructor <;> simp [Touched]

theorem sound_of_init (hinit : (machine env).init s) : Sound env but s := by
  obtain ⟨rows, hdistinct, hids, rfl⟩ := hinit
  exact (Sound.empty env).load rfl rfl hdistinct hids (fun _ _ _ hr => nomatch hr)

/-- A roster that is destroyed takes no step. -/
theorem alive_of_step (hs : step env s e = some s') : s.alive = true := by
  unfold Roster.step at hs
  split at hs
  · assumption
  · cases hs

theorem destroy_of_step (hs : step env s .destroy = some s') : s.destroy env = some s' := by
  have halive := alive_of_step hs
  unfold Roster.step at hs
  rwa [if_pos halive] at hs

theorem sound_of_run {tr : List (State × Event)} (h : (machine env).Run tr s) :
    (s.alive = true → ∃ but, Sound env but s) ∧ Kept env s := by
  refine Machine.Run.invariant
    (I := fun s => (s.alive = true → ∃ but, Sound env but s) ∧ Kept env s)
    (fun s hinit => ?_) (fun s e s' hs ih => ?_) h
  · have hsound : Sound env ∅ s := sound_of_init hinit
    exact ⟨fun _ => ⟨∅, hsound⟩, hsound.kept⟩
  · obtain ⟨but, hsound⟩ := ih.1 (alive_of_step hs)
    by_cases hlast : e = .destroy
    · subst hlast
      obtain ⟨hdead, hkept⟩ := hsound.destroy (destroy_of_step hs)
      refine ⟨fun halive => ?_, hkept⟩
      rw [hdead] at halive
      cases halive
    · obtain ⟨but', hsound'⟩ := (hsound.step hs hlast).1
      exact ⟨fun _ => ⟨but', hsound'⟩, hsound'.kept⟩

/-- If no flags are changed apart from a row then no buddy is excepted. -/
theorem sound_of_keepsRow {tr : List (State × Event)} (h : (machine env).Run tr s)
    (hC : Machine.Meets (KeepsRow env) tr) : s.alive = true → Sound env ∅ s := by
  refine Machine.Run.invariant_of_steps (I := fun s => s.alive = true → Sound env ∅ s)
    (fun s hinit _ => sound_of_init hinit) (fun s e s' hkeeps hs ih halive => ?_) h hC
  have hsound := ih (alive_of_step hs)
  by_cases hlast : e = .destroy
  · subst hlast
    rw [(hsound.destroy (destroy_of_step hs)).1] at halive
    cases halive
  · exact (hsound.step hs hlast).2 hkeeps

/-- After `storeBuddies` the row of every member is up to date that was set or stored. -/
def WritesBack (env : Env) (s : State) : Prop :=
  ∀ s', s.storeBuddies env = some s' → ∀ k p b, s'.buddies.get k = some (some p) →
    s'.heap p = some b → b.data.name ≠ "" → Touched p s' →
    b.id ≠ -1 ∧ ∃ r ∈ s'.rows, r.id = b.id ∧ r.data = b.data

theorem Sound.writesBack (h : Sound env ∅ s) : WritesBack env s := by
  intro s' hs k p b hk hp hname htouched
  obtain ⟨h', hqueue⟩ := h.storeBuddies hs
  rcases h'.current k p b hk hp hname htouched (Set.notMem_empty p) with hget | hcurrent
  · rw [hqueue] at hget
    cases hget
  · exact hcurrent

/-- In every run the queue holds live members, and a buddy that was removed has no row and is not
written again. `storeBuddies` brings the row of every member up to date that was set or stored, if no
step changes the flags of a buddy and leaves his row as it is. -/
theorem writeBack_of_keepsRow {tr : List (State × Event)} (h : (machine env).Run tr s) :
    (∀ n p, s.queue.get n = some p → ∃ b, s.heap p = some b ∧ b.data.name = n ∧
      s.buddies.get (env.lower n) = some (some p)) ∧
    (Machine.Meets (KeepsRow env) tr → s.alive = true → WritesBack env s) ∧
    (∀ p, .removed p ∈ s.log → ∀ r ∈ s.rows, r.owner ≠ some p) ∧
    s.log.Pairwise fun a a' => ∀ p, a = .removed p → a' ≠ .written p := by
  obtain ⟨-, hkept⟩ := sound_of_run h
  exact ⟨hkept.queued, fun hC halive => (sound_of_keepsRow h hC halive).writesBack, hkept.noRow,
    hkept.order⟩

end Runs

/-! ## A run -/

namespace Sample

/-- The largest id so far. -/
def largest (rows : List Row) : Int := (rows.map Row.id).foldr max 0

theorem largest_nonneg (rows : List Row) : 0 ≤ largest rows := by
  induction rows with
  | nil => exact le_refl _
  | cons r rows ih => exact le_max_of_le_right ih

theorem id_le_largest {rows : List Row} {r : Row} (hr : r ∈ rows) : r.id ≤ largest rows := by
  induction rows with
  | nil => cases hr
  | cons r' rows ih =>
    rcases List.mem_cons.mp hr with rfl | hr
    · exact le_max_left _ _
    · exact le_max_of_le_right (ih hr)

/-- The names below are in lower case. -/
def env : Env where
  lower := id
  nextId rows := largest rows + 1
  nextId_ne rows := by
    have := largest_nonneg rows
    omega
  nextId_fresh rows r hr := by
    have := id_le_largest hr
    omega

def rows : List (Int × BuddyData × Bool) := [(1, { name := "bob", flags := 0 }, true)]

theorem init_rows : (machine env).init (State.load env rows) :=
  ⟨rows, List.pairwise_singleton _ _, by decide, rfl⟩

/-- A new buddy, a report of an alias and of the flag, a tick and a removal. -/
def events : List Event :=
  [.setBuddy { name := "carol", flags := 0 } false,
   .handleBuddyPayload "bob" { aliasName := "Bob", blocked := true }, .tick,
   .removeBuddy "bob"]

end Sample

theorem writeBack_of_keepsRow_bob : ∃ tr s, (machine Sample.env).Run tr s ∧ .removed 0 ∈ s.log ∧
    (∀ r ∈ s.rows, r.owner ≠ some 0) ∧ WritesBack Sample.env s := by
  have hexec : (((machine Sample.env).restrict (KeepsRow Sample.env)).exec
      (State.load Sample.env Sample.rows) Sample.events).any
      (fun s => decide (.removed 0 ∈ s.log) && s.alive) = true := by decide +kernel
  obtain ⟨s, hs, hfacts⟩ := (Option.any_eq_true _ _).mp hexec
  obtain ⟨tr, hrun, hmeets⟩ := Machine.exists_run_of_restrict Sample.init_rows hs
  rw [Bool.and_eq_true, decide_eq_true_eq] at hfacts
  obtain ⟨-, hwrites, hnoRow, -⟩ := writeBack_of_keepsRow hrun
  exact ⟨tr, s, hrun, hfacts.1, hnoRow 0 hfacts.1, hwrites hmeets hfacts.2⟩

/-- Carol is set and written, and then a backend reports that she is blocked. -/
theorem not_writesBack_of_blocked : ∃ tr s, (machine Sample.env).Run tr s ∧
    tr.map Prod.snd = [.handleBuddyPayload "carol" { blocked := true }, .tick,
      .setBuddy { name := "carol" } false] ∧ ¬ WritesBack Sample.env s := by
  have hexec : ((machine Sample.env).exec (State.load Sample.env Sample.rows)
      [.setBuddy { name := "carol" } false, .tick,
        .handleBuddyPayload "carol" { blocked := true }]).any (fun s =>
      (s.storeBuddies Sample.env).any fun s' =>
        decide (s'.buddies.get "carol" = some (some 1) ∧ Touched 1 s' ∧
          s'.heap 1 = some ⟨2, { name := "carol", flags := 8 }⟩ ∧
          ∀ r ∈ s'.rows, r.data ≠ { name := "carol", flags := 8 })) = true := by decide +kernel
  obtain ⟨s, hs, hstale⟩ := (Option.any_eq_true _ _).mp hexec
  obtain ⟨s', hs', hfacts⟩ := (Option.any_eq_true _ _).mp hstale
  obtain ⟨hk, htouched, hp, hrows⟩ := of_decide_eq_true hfacts
  obtain ⟨tr, hrun, htr⟩ := Machine.exists_run_of_exec Sample.init_rows hs
  refine ⟨tr, s, hrun, htr, fun hwrites => ?_⟩
  obtain ⟨-, r, hr, -, hdata⟩ := hwrites s' hs' "carol" 1 _ hk hp (by decide) htouched
  exact hrows r hr hdata

end Spectrum.Roster
