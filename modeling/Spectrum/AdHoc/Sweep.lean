import Spectrum.AdHoc.Model

/-!
# A tick of the timer of the ad-hoc commands

`removeOldSessions` deletes the idle commands in two loops over the table. What it erases from the
commands of a JID is the JID where the id of the session is meant.

* `sweepCommands_eq` and `sweepSessions_eq` say what the two loops do;
* `exists_removeOldSessions` says what is left of the commands and of the table.
-/

namespace Spectrum.AdHoc

open Lib

/-- The command at `p` was not used for more than fifteen minutes. -/
def idle (now : Int) (commands : Arena AdHocCommand) (p : Nat) : Bool :=
  (commands.get p).any fun c => c.lastActivity.any fun t => decide (now - t > 15 * 60)

/-- What a JID keeps of its commands. -/
def collected (now : Int) (commands : Arena AdHocCommand) (jid : String)
    (sessions : SortedMap String Nat) : SortedMap String Nat :=
  ((sessions.entries.filter fun e => idle now commands e.2).map fun _ => jid).foldl
    SortedMap.erase sessions

/-- The commands that the loops delete. -/
def expired (now : Int) (commands : Arena AdHocCommand) (ps : List Nat) : List Nat :=
  ps.filter (idle now commands)

/-- The last activity of the command at `p` is known. -/
def Dated (commands : Arena AdHocCommand) (p : Nat) : Prop :=
  ∃ c t, commands.get p = some c ∧ c.lastActivity = some t

section Loops

variable {now : Int} {a a₀ : Arena AdHocCommand} {p : Nat} {s : State}

theorem idle_eq (now : Int) {c : AdHocCommand} {t : Int} (hc : a.get p = some c)
    (ht : c.lastActivity = some t) : idle now a p = decide (now - t > 15 * 60) := by
  rw [idle, hc, Option.any_some, ht, Option.any_some]

/-- The loop over the commands of a JID, where `a₀` are the commands before the tick. -/
theorem sweepCommands_eq (now : Int) (jid : String) (candidates : List String)
    {l : List (String × Nat)} (hdated : ∀ e ∈ l, Dated a₀ e.2)
    (hsame : ∀ e ∈ l, a.get e.2 = a₀.get e.2) (hnodup : (l.map Prod.snd).Nodup) :
    ∃ b, a.Dropped (expired now a₀ (l.map Prod.snd)) b ∧
      State.sweepCommands now jid l a candidates =
        some (b, candidates ++ (l.filter fun e => idle now a₀ e.2).map fun _ => jid) := by
  induction l generalizing a candidates with
  | nil => exact ⟨a, .refl, by simp [State.sweepCommands]⟩
  | cons e l ih =>
    obtain ⟨id, p⟩ := e
    obtain ⟨hp, hrest⟩ := List.nodup_cons.mp hnodup
    obtain ⟨c, t, hc, ht⟩ := hdated (id, p) List.mem_cons_self
    have hget : a.get p = some c := (hsame (id, p) List.mem_cons_self).trans hc
    have hidle := idle_eq now hc ht
    have hdated' : ∀ e ∈ l, Dated a₀ e.2 := fun e he => hdated e (List.mem_cons_of_mem _ he)
    have hsame' : ∀ e ∈ l, a.get e.2 = a₀.get e.2 := fun e he => hsame e (List.mem_cons_of_mem _ he)
    by_cases hold : now - t > 15 * 60
    · obtain ⟨b, hdelete, hb⟩ := Arena.exists_delete hget
      have hleft : ∀ e ∈ l, b.get e.2 = a₀.get e.2 := by
        intro e he
        have hne : e.2 ∉ [p] := by
          intro hmem
          exact hp (List.mem_singleton.mp hmem ▸ List.mem_map.mpr ⟨e, he, rfl⟩)
        rw [hb.get, if_neg hne]
        exact hsame' e he
      obtain ⟨b', hb', heq⟩ := ih (candidates ++ [jid]) hdated' hleft hrest
      have hyes : idle now a₀ p = true := hidle.trans (decide_eq_true hold)
      refine ⟨b', ?_, ?_⟩
      · have hlist : expired now a₀ (((id, p) :: l).map Prod.snd) =
            [p] ++ expired now a₀ (l.map Prod.snd) := by
          simp [expired, hyes]
        rw [hlist]
        exact hb.trans hb'
      · rw [State.sweepCommands, hget, Option.bind_eq_bind, Option.bind_some, ht, Option.bind_eq_bind,
          Option.bind_some, if_pos hold, hdelete, Option.bind_eq_bind, Option.bind_some, heq,
          List.filter_cons, if_pos hyes, List.map_cons, List.append_assoc, List.singleton_append]
    · obtain ⟨b, hb, heq⟩ := ih candidates hdated' hsame' hrest
      have hno : idle now a₀ p = false := hidle.trans (decide_eq_false hold)
      refine ⟨b, ?_, ?_⟩
      · have hlist : expired now a₀ (((id, p) :: l).map Prod.snd) =
            expired now a₀ (l.map Prod.snd) := by
          simp [expired, hno]
        rw [hlist]
        exact hb
      · rw [State.sweepCommands, hget, Option.bind_eq_bind, Option.bind_some, ht, Option.bind_eq_bind,
          Option.bind_some, if_neg hold, heq, List.filter_cons, if_neg (ne_true_of_eq_false hno)]

theorem expired_append (ps qs : List Nat) :
    expired now a₀ (ps ++ qs) = expired now a₀ ps ++ expired now a₀ qs := List.filter_append ..

theorem mem_expired {ps : List Nat} : p ∈ expired now a₀ ps ↔ p ∈ ps ∧ idle now a₀ p = true :=
  List.mem_filter

theorem sweepSessions_eq (now : Int) (toRemove : List String)
    {l : List (String × SortedMap String Nat)}
    (hdated : ∀ p ∈ NestedMap.valuesOf l, Dated a₀ p)
    (hsame : ∀ p ∈ NestedMap.valuesOf l, s.commands.get p = a₀.get p)
    (hnodup : (NestedMap.valuesOf l).Nodup) :
    ∃ b, s.commands.Dropped (expired now a₀ (NestedMap.valuesOf l)) b ∧
      State.sweepSessions now l s toRemove = some
        ({ sessions := l.foldl (fun m e => m.set e.1 (collected now a₀ e.1 e.2)) s.sessions,
           commands := b },
          toRemove ++
            (l.filter fun e => decide ((collected now a₀ e.1 e.2).entries = [])).map Prod.fst) := by
  induction l generalizing s toRemove with
  | nil => exact ⟨s.commands, .refl, by simp [State.sweepSessions]⟩
  | cons e l ih =>
    obtain ⟨jid, sessions⟩ := e
    have hcons : NestedMap.valuesOf ((jid, sessions) :: l) =
        sessions.entries.map Prod.snd ++ NestedMap.valuesOf l :=
      List.flatMap_cons
    rw [hcons] at hdated hsame hnodup
    obtain ⟨hfirst, hrest, hapart⟩ := List.nodup_append.mp hnodup
    have hmem : ∀ e ∈ sessions.entries, e.2 ∈ sessions.entries.map Prod.snd ++ NestedMap.valuesOf l :=
      fun e he => List.mem_append_left _ (List.mem_map.mpr ⟨e, he, rfl⟩)
    obtain ⟨b, hb, heq⟩ := sweepCommands_eq now jid []
      (fun e he => hdated _ (hmem e he)) (fun e he => hsame _ (hmem e he)) hfirst
    have hleft : ∀ p ∈ NestedMap.valuesOf l, b.get p = a₀.get p := by
      intro p hp
      have hother : p ∉ expired now a₀ (sessions.entries.map Prod.snd) := by
        intro hin
        exact hapart p (mem_expired.mp hin).1 p hp rfl
      rw [hb.get, if_neg hother]
      exact hsame p (List.mem_append_right _ hp)
    obtain ⟨b', hb', heq'⟩ := ih
      (s := { sessions := s.sessions.set jid (collected now a₀ jid sessions), commands := b })
      (if (collected now a₀ jid sessions).entries = [] then toRemove ++ [jid] else toRemove)
      (fun p hp => hdated p (List.mem_append_right _ hp)) hleft hrest
    refine ⟨b', ?_, ?_⟩
    · rw [hcons, expired_append]
      exact hb.trans hb'
    · rw [State.sweepSessions, heq, List.nil_append, Option.bind_eq_bind, Option.bind_some]
      refine Eq.trans heq' ?_
      by_cases hempty : (collected now a₀ jid sessions).entries = []
      · simp [hempty]
      · simp [hempty]

end Loops

/-! ## A tick -/

section Tick

variable {now : Int} {s s' : State}

/-- What a tick leaves: no idle commands, and of the table what is not collected. -/
structure Ticked (now : Int) (s s' : State) : Prop where
  commands : s.commands.Dropped (expired now s.commands s.sessions.values) s'.commands
  sessions : ∀ jid, s'.sessions.get jid =
    ((s.sessions.get jid).map (collected now s.commands jid)).filter fun m => decide (m.entries ≠ [])

theorem exists_removeOldSessions (hdated : ∀ p ∈ s.sessions.values, Dated s.commands p)
    (hnodup : s.sessions.values.Nodup) : ∃ s', s.removeOldSessions now = some s' ∧ Ticked now s s' := by
  obtain ⟨b, hb, heq⟩ := sweepSessions_eq now [] hdated (fun p _ => rfl) hnodup
  rw [State.removeOldSessions, heq]
  refine ⟨_, rfl, ⟨hb, fun jid => ?_⟩⟩
  dsimp only
  rw [List.nil_append, SortedMap.get_foldl_erase, SortedMap.get_foldl_set_entries]
  cases hjid : s.sessions.get jid with
  | none => simp
  | some sessions =>
    have hmem := SortedMap.mem_entries_iff.mpr hjid
    rw [Option.map_some]
    by_cases hempty : (collected now s.commands jid sessions).entries = []
    · have hin : jid ∈ (s.sessions.entries.filter fun e =>
          decide ((collected now s.commands e.1 e.2).entries = [])).map Prod.fst :=
        List.mem_map.mpr ⟨_, List.mem_filter.mpr ⟨hmem, decide_eq_true hempty⟩, rfl⟩
      rw [if_pos hin]
      simp [Option.filter_some, hempty]
    · have hout : jid ∉ (s.sessions.entries.filter fun e =>
          decide ((collected now s.commands e.1 e.2).entries = [])).map Prod.fst := by
        intro hin
        obtain ⟨e, he, hkey⟩ := List.mem_map.mp hin
        obtain ⟨he, hnil⟩ := List.mem_filter.mp he
        rw [s.sessions.sorted.eq_of_key he hmem hkey] at hnil
        exact hempty (of_decide_eq_true hnil)
      rw [if_neg hout]
      simp [Option.filter_some, hempty]

theorem get_collected {commands : Arena AdHocCommand} {jid id : String}
    {sessions : SortedMap String Nat} {p : Nat} :
    (collected now commands jid sessions).get id = some p ↔ sessions.get id = some p ∧
      (id = jid → ∀ i q, sessions.get i = some q → idle now commands q = false) := by
  rw [collected, SortedMap.get_foldl_erase]
  have hmem : id ∈ (sessions.entries.filter fun e => idle now commands e.2).map (fun _ => jid) ↔
      id = jid ∧ ∃ i q, sessions.get i = some q ∧ idle now commands q = true := by
    rw [List.mem_map]
    constructor
    · rintro ⟨e, he, rfl⟩
      obtain ⟨he, hidle⟩ := List.mem_filter.mp he
      exact ⟨rfl, e.1, e.2, SortedMap.mem_entries_iff.mp he, hidle⟩
    · rintro ⟨rfl, i, q, hget, hidle⟩
      exact ⟨(i, q), List.mem_filter.mpr ⟨SortedMap.mem_entries_iff.mpr hget, hidle⟩, rfl⟩
  split
  · rename_i hin
    obtain ⟨hid, i, q, hget, hidle⟩ := hmem.mp hin
    constructor
    · intro h
      cases h
    · rintro ⟨-, hnone⟩
      rw [hnone hid i q hget] at hidle
      cases hidle
  · rename_i hout
    refine ⟨fun h => ⟨h, fun hid i q hget => ?_⟩, fun h => h.1⟩
    exact Bool.eq_false_iff.mpr fun hidle => hout (hmem.mpr ⟨hid, i, q, hget, hidle⟩)

variable {jid id : String} {p : Nat}

theorem Ticked.find (h : Ticked now s s') : s'.sessions.find jid id = some p ↔
    s.sessions.find jid id = some p ∧
      (id = jid → ∀ i q, s.sessions.find jid i = some q → idle now s.commands q = false) := by
  unfold NestedMap.find
  rw [h.sessions]
  cases hjid : s.sessions.get jid with
  | none => simp
  | some sessions =>
    simp only [Option.map_some, Option.bind_some]
    rw [← get_collected, Option.filter_some]
    by_cases hempty : (collected now s.commands jid sessions).entries = []
    · rw [if_neg (by simp [hempty]), NestedMap.get_of_entries_eq_nil hempty]
      simp
    · rw [if_pos (decide_eq_true hempty), Option.bind_some]

theorem Ticked.trimmed (h : Ticked now s s') : s'.sessions.Trimmed := by
  intro jid inner hinner
  rw [h.sessions, Option.filter_eq_some_iff] at hinner
  exact of_decide_eq_true hinner.2

end Tick

end Spectrum.AdHoc
