import Spectrum.Account.Quiet

/-!
# Looking up conversations

The entry of a name is found under the name itself if there is one. The removal of a conversation
renames the private chats of the room that goes away; the removed object is not stored any more
or it is marked as deleted.
-/

namespace Spectrum

namespace Conversations

theorem segments_ne_nil (acc cs : List Char) : segments acc cs ≠ [] := by
  induction cs generalizing acc with
  | nil => simp [segments]
  | cons c cs ih =>
    unfold segments
    split
    · simp
    · exact ih _

/-- The parts of a name make up the name. -/
theorem intercalate_segments (acc cs : List Char) :
    List.intercalate ['/'] (segments acc cs) = acc.reverse ++ cs := by
  induction cs generalizing acc with
  | nil => simp [segments]
  | cons c cs ih =>
    unfold segments
    split
    · rename_i hslash
      rw [List.intercalate_cons_of_ne_nil (segments_ne_nil [] cs), ih, hslash]
      simp
    · rw [ih]
      simp

theorem getConversation_of_find {name : String} {cs : Conversations} {kc : String × Conversation}
    (h : find name cs = some kc) : getConversation name cs = some kc := by
  unfold getConversation
  have hname : List.intercalate ['/'] (segments [] name.toList) = name.toList := by
    rw [intercalate_segments]
    rfl
  have hne := segments_ne_nil [] name.toList
  generalize segments [] name.toList = segs at hname hne
  have hfind : find (String.ofList (List.intercalate ['/'] segs)) cs = some kc := by
    rw [hname, String.ofList_toList]
    exact h
  match segs, hne with
  | [s], _ => simpa [getSegments] using hfind
  | s :: s' :: rest, _ => simp only [getSegments, hfind]

theorem mem_of_find {name : String} {cs : Conversations} {kc : String × Conversation}
    (h : find name cs = some kc) : kc ∈ cs := List.mem_of_find?_eq_some h

theorem mem_of_getSegments {cs : Conversations} {segs : List (List Char)}
    {kc : String × Conversation} (h : getSegments cs segs = some kc) : kc ∈ cs := by
  induction segs with
  | nil => cases h
  | cons s rest ih =>
    match rest with
    | [] => exact mem_of_find h
    | s' :: rest =>
      simp only [getSegments] at h
      split at h
      · rename_i hfind
        cases h
        exact mem_of_find hfind
      · split at h
        · cases h
        · exact ih h

/-- The keys alone decide which key a name stands for. -/
theorem find_keys {cs cs' : Conversations} (h : cs'.map Prod.fst = cs.map Prod.fst)
    (name : String) : (find name cs').map Prod.fst = (find name cs).map Prod.fst := by
  have hkeys : ∀ ds : Conversations,
      (find name ds).map Prod.fst = (ds.map Prod.fst).find? fun key => key = name := by
    intro ds
    rw [List.find?_map]
    rfl
  rw [hkeys, hkeys, h]

theorem getSegments_keys {cs cs' : Conversations} (h : cs'.map Prod.fst = cs.map Prod.fst)
    (segs : List (List Char)) :
    (getSegments cs' segs).map Prod.fst = (getSegments cs segs).map Prod.fst := by
  have hnone : ∀ name, find name cs' = none ↔ find name cs = none := by
    intro name
    rw [← Option.map_eq_none_iff (f := Prod.fst), find_keys h name, Option.map_eq_none_iff]
  induction segs with
  | nil => rfl
  | cons s rest ih =>
    match rest with
    | [] => exact find_keys h _
    | s' :: rest =>
      simp only [getSegments]
      generalize hname : String.ofList (List.intercalate ['/'] (s :: s' :: rest)) = name
      have hfind := find_keys h name
      cases hold : find name cs with
      | none =>
        simp only [(hnone name).mpr hold]
        cases hroom : find (String.ofList s) cs with
        | none => simp [(hnone _).mpr hroom]
        | some kc =>
          have hsome : find (String.ofList s) cs' ≠ none := fun heq => by
            rw [hnone, hroom] at heq
            cases heq
          cases hroom' : find (String.ofList s) cs' with
          | none => exact absurd hroom' hsome
          | some kd => simpa using ih
      | some kc =>
        cases hnew : find name cs' with
        | none =>
          rw [(hnone name).mp hnew] at hold
          cases hold
        | some kd =>
          rw [hold, hnew] at hfind
          exact hfind

end Conversations

namespace Account.Chats

variable {key name : String} {cs : Chats} {kc : String × Conversation}

theorem find_base (key : String) (cs : Chats) :
    Conversations.find key cs.base =
      (cs.find key).map fun kc => (kc.1, kc.2.toConversation) := by
  unfold Conversations.find base find
  rw [List.find?_map]
  rfl

theorem getConversation_of_find (h : cs.find name = some kc) :
    cs.getConversation name = some kc := by
  have hbase : Conversations.find name cs.base = some (kc.1, kc.2.toConversation) := by
    rw [find_base, h]
    rfl
  unfold getConversation
  rw [Conversations.getConversation_of_find hbase, Option.bind_some]
  dsimp only
  rw [(mem_of_find h).2]
  exact h

theorem find_eq_none (h : cs.getConversation name = none) : cs.find name = none := by
  cases hfind : cs.find name with
  | none => rfl
  | some kc =>
    rw [getConversation_of_find hfind] at h
    cases h

theorem keys_base (cs : Chats) : cs.base.map Prod.fst = cs.map Prod.fst := by
  simp [base, List.map_map, Function.comp_def]

theorem exists_find_of_mem (h : kc ∈ cs) : ∃ c, cs.find kc.1 = some (kc.1, c) := by
  cases hfind : cs.find kc.1 with
  | none =>
    unfold find at hfind
    exact absurd (List.find?_eq_none.mp hfind kc h) (by simp)
  | some kd => exact ⟨kd.2, by rw [← (mem_of_find hfind).2]⟩

theorem getConversation_base (name : String) (cs : Chats) :
    (cs.getConversation name).map Prod.fst =
      (Conversations.getConversation name cs.base).map Prod.fst := by
  unfold getConversation
  cases hbase : Conversations.getConversation name cs.base with
  | none => rfl
  | some kc =>
    have hmem : kc ∈ cs.base := Conversations.mem_of_getSegments hbase
    obtain ⟨kd, hkd, heq⟩ := List.mem_map.mp hmem
    obtain ⟨d, hfind⟩ := exists_find_of_mem hkd
    have hkey : kd.1 = kc.1 := congrArg Prod.fst heq
    rw [hkey] at hfind
    simp [hfind]

theorem getConversation_keys {cs' : Chats} (h : cs'.map Prod.fst = cs.map Prod.fst)
    (name : String) :
    (cs'.getConversation name).map Prod.fst = (cs.getConversation name).map Prod.fst := by
  rw [getConversation_base, getConversation_base]
  refine Conversations.getSegments_keys ?_ _
  rw [keys_base, keys_base, h]

theorem find_update (f : Conversation → Conversation) :
    (cs.update key f).find key = (cs.find key).map fun kc => (kc.1, f kc.2) := by
  induction cs with
  | nil => rfl
  | cons kc cs ih =>
    by_cases hkey : kc.1 = key
    · simp [update, find, hkey]
    · simpa [update, find, hkey] using ih

theorem find_addConversation (c : Conversation) (cs : Chats) :
    (cs.addConversation c).find c.legacyName = some (c.legacyName, c) := by
  unfold find addConversation
  exact Lib.find?_upsert (c.legacyName, c) cs

theorem mem_of_mem_addConversation {c : Conversation} (h : kc ∈ cs.addConversation c) :
    kc = (c.legacyName, c) ∨ kc ∈ cs := Lib.mem_of_mem_upsert h

/-! ## Removal -/

theorem mem_of_mem_resetRooms {kd : String × Conversation} (h : kd ∈ (resetRooms key name cs).2) :
    ∃ d, (kd.1, d) ∈ cs ∧ (kd.2 = d ∨ kd.2 = d.setRoom "") := by
  induction cs generalizing name with
  | nil => cases h
  | cons ke cs ih =>
    rcases List.mem_cons.mp h with rfl | h
    · refine ⟨ke.2, List.mem_cons_self, ?_⟩
      dsimp only
      split
      · exact .inr rfl
      · exact .inl rfl
    · obtain ⟨d, hd, heq⟩ := ih h
      exact ⟨d, List.mem_cons_of_mem ke hd, heq⟩

/-- What is stored after a conversation has been removed and deleted. -/
theorem mem_of_mem_delete {c : Conversation} {kd : String × Conversation}
    (h : kd ∈ (cs.removeConversation key c).delete key) :
    ∃ d, (kd.1, d) ∈ cs ∧ kd.2.muc = d.muc ∧
      (kd.2.freed = false → kd.1 ≠ key ∧ d.freed = false) := by
  obtain ⟨ke, hke, rfl⟩ := List.mem_map.mp h
  obtain ⟨d, hd, heq⟩ := mem_of_mem_resetRooms (List.mem_filter.mp hke).1
  have hsame : ke.2.muc = d.muc ∧ ke.2.freed = d.freed := by
    rcases heq with heq | heq <;> rw [heq] <;> exact ⟨rfl, rfl⟩
  refine ⟨d, ?_, ?_, ?_⟩
  · split <;> exact hd
  · split <;> exact hsame.1
  · split
    · intro hfreed
      cases hfreed
    · rename_i hkey
      intro hfreed
      exact ⟨hkey, hsame.2 ▸ hfreed⟩

/-- If no conversation has the name as its room, the loop changes nothing. -/
theorem resetRooms_of_free (hfree : ∀ kd ∈ cs, kd.2.room ≠ name)
    (hname : ∀ kd ∈ cs, kd.1 = key → kd.2.legacyName = name) :
    resetRooms key name cs = (name, cs) := by
  induction cs with
  | nil => rfl
  | cons kd cs ih =>
    have hroom := hfree kd List.mem_cons_self
    have hrest := ih (fun ke h => hfree ke (List.mem_cons_of_mem kd h))
      fun ke h => hname ke (List.mem_cons_of_mem kd h)
    unfold resetRooms
    simp only [hroom, if_false]
    by_cases hkey : kd.1 = key
    · rw [if_pos hkey, hname kd List.mem_cons_self hkey, hrest]
    · rw [if_neg hkey, hrest]

end Account.Chats

namespace Account

/-- The entry of a key after a method of its conversation has been called. -/
theorem find_call {key : String} {f : Context → Conversation → Conversation × List Output}
    {a : Account} {d : Conversation} (h : (a.call key f).convs.find key = some (key, d)) :
    ∃ c, a.convs.find key = some (key, c) ∧ (d = c ∨ d = (f a.toContext c).1) := by
  unfold call at h
  split at h
  · rename_i hnone
    rw [show a.setFault.convs = a.convs from rfl, hnone] at h
    cases h
  · rename_i key' c hfind
    have hkey := (Chats.mem_of_find hfind).2
    dsimp only at hkey
    subst hkey
    split at h
    · exact ⟨d, h, .inl rfl⟩
    · change (a.convs.update key' fun c => (f a.toContext c).1).find key' = some (key', d) at h
      rw [Chats.find_update, hfind] at h
      obtain ⟨-, rfl⟩ := Prod.mk.inj (Option.some.inj h)
      exact ⟨c, hfind, .inr rfl⟩

/-- The call of a method of a conversation that is found and has not been deleted. -/
theorem call_of_find {key : String} (f : Context → Conversation → Conversation × List Output)
    {a : Account} {c : Conversation} (hfind : a.convs.find key = some (key, c))
    (hlive : c.freed = false) :
    a.call key f = emit (f a.toContext c).2
      { a with convs := a.convs.update key fun c => (f a.toContext c).1 } := by
  unfold call
  rw [hfind]
  simp only [hlive, Bool.false_eq_true, if_false]

end Account

end Spectrum
