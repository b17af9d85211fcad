import Spectrum.Account.Steps
import Spectrum.Account.Lookup

/-!
# The names of the conversations

A conversation is stored under its legacy name, and the name of a private chat starts with the
name of its room. When a room is removed, the private chats of the room are renamed and stay
where they are, so their names and keys part. The names and keys agree in the runs in which a
room is only left when no conversation is stored that belongs to it.
-/

namespace Spectrum.Account

open Lib

/-- The entry of a key: an existing conversation of that name, and its room, if any, is the part
of the name before a slash. -/
structure Consistent (key : String) (c : Conversation) : Prop where
  live : c.freed = false
  name : c.legacyName = key
  room : c.room = "" ∨ ∃ nick, key = c.room ++ "/" ++ nick

def Keyed (cs : Chats) : Prop := ∀ kc ∈ cs, Consistent kc.1 kc.2

/-- No stored conversation belongs to the conversation that the name stands for. -/
def Unneeded (name : String) (cs : Chats) : Prop :=
  ∀ kc, cs.getConversation name = some kc → ∀ kd ∈ cs, kd.2.room ≠ kc.2.legacyName

instance (name : String) (cs : Chats) : Decidable (Unneeded name cs) :=
  decidable_of_iff
    (∀ kc ∈ (cs.getConversation name).toList, ∀ kd ∈ cs, kd.2.room ≠ kc.2.legacyName)
    (by simp [Unneeded])

/-! ## The rooms that an event leaves -/

/-- The room of an unavailable presence, if it takes away the last participant. -/
def contactLeft (p : Presence) (a : Account) : List String :=
  match a.convs.getConversation (legacyName a.env.toConfig p.toJid) with
  | none => []
  | some kc =>
    if (kc.2.toConversation.removeJid p.fromJid).jids = [] ∧ a.env.stayConnected = false then
      [legacyName a.env.toConfig p.toJid]
    else []

/-- The rooms without another participant than a resource that goes offline. -/
def deserted (j : Jid) (a : Account) : List String :=
  if a.env.stayConnected then []
  else (a.convs.filter fun kc =>
    kc.1 ≠ "" ∧ (kc.2.toConversation.removeJid j).jids = [] ∧ kc.2.muc = true).map Prod.fst

/-- A change of an occupant is an error that concerns the user himself. -/
def expels (p : ParticipantChange) (c : Conversation) : Bool :=
  (Conversation.roomError p.flag p.statusMessage).isSome &&
    (c.nickname = (if p.nickAlias = "" then p.nickname else p.nickAlias) ||
      p.newname ≠ "" && c.nickname = p.newname)

def roomsLeft (a : Account) : Event → List String
  | .presence p =>
    if p.toJid.node ≠ "" then if p.type = .unavailable then contactLeft p a else []
    else
      match (a.oracle.handleIncomingPresence p).2 with
      | none => []
      | some passed => if passed.type = .unavailable then deserted passed.fromJid a else []
  | .participant p =>
    match a.convs.getConversation p.room with
    | none => []
    | some kc => if expels p kc.2 then [kc.2.legacyName] else []
  | _ => []

/-- The condition: a room is left only when no stored conversation belongs to it. -/
def LeavesNone (a : Account) (e : Event) : Prop :=
  ∀ room ∈ roomsLeft a e, Unneeded room a.convs

instance (a : Account) (e : Event) : Decidable (LeavesNone a e) :=
  inferInstanceAs (Decidable (∀ room ∈ roomsLeft a e, Unneeded room a.convs))

/-! ## Paths that leave no room -/

theorem Keyed.of_tags {cs cs' : Chats} (hk : Keyed cs) (h : cs'.tags = cs.tags) : Keyed cs' := by
  intro kc hkc
  obtain ⟨c, hc, htag⟩ := Chats.exists_of_tags h hkc
  simp only [Conversation.tag, Tag.mk.injEq] at htag
  obtain ⟨hname, hroom, -, hfreed⟩ := htag
  obtain ⟨hlive, hkey, hprefix⟩ := hk (kc.1, c) hc
  exact ⟨hfreed ▸ hlive, hname ▸ hkey, hroom ▸ hprefix⟩

theorem Keyed.addConversation {cs : Chats} (hk : Keyed cs) {c : Conversation}
    (hc : Consistent c.legacyName c) : Keyed (cs.addConversation c) := by
  intro kc hkc
  rcases Chats.mem_of_mem_addConversation hkc with rfl | hkc
  · exact hc
  · exact hk kc hkc

theorem Newborn.consistent {env : Env} {c : Conversation} (h : Newborn env c) :
    Consistent c.legacyName c := by
  cases h with
  | chat name => exact ⟨rfl, rfl, .inl rfl⟩
  | privateChat room nick => exact ⟨rfl, rfl, .inr ⟨nick, rfl⟩⟩

theorem Path.keyed {a b : Account} (h : Path false a b) (hk : Keyed a.convs) : Keyed b.convs := by
  induction h with
  | refl => exact hk
  | quiet _ hq ih => exact ih.of_tags hq.tags
  | add _ hc ih => exact ih.addConversation hc.consistent
  | postpone _ _ ih => exact ih
  | join _ _ ih => exact ih.addConversation ⟨rfl, rfl, .inl rfl⟩
  | leave _ _ hl _ => cases hl

/-! ## Keys occur once -/

theorem keys_of_tags {cs cs' : Chats} (h : cs'.tags = cs.tags) :
    cs'.map Prod.fst = cs.map Prod.fst := by
  have hkeys : ∀ ds : Chats, ds.map Prod.fst = ds.tags.map Prod.fst := by
    intro ds
    simp [Chats.tags, List.map_map, Function.comp_def]
  rw [hkeys, h, ← hkeys]

def SortedKeys (cs : Chats) : Prop := SortedBy Prod.fst cs

theorem SortedKeys.of_keys {cs cs' : Chats} (hs : SortedKeys cs)
    (h : cs'.map Prod.fst = cs.map Prod.fst) : SortedKeys cs' := by
  have hpair : (cs'.map Prod.fst).Pairwise (· < ·) := by
    rw [h]
    exact List.pairwise_map.mpr hs
  exact List.pairwise_map.mp hpair

theorem SortedKeys.of_tags {cs cs' : Chats} (hs : SortedKeys cs) (h : cs'.tags = cs.tags) :
    SortedKeys cs' := hs.of_keys (keys_of_tags h)

theorem keys_resetRooms (key name : String) (cs : Chats) :
    (Chats.resetRooms key name cs).2.map Prod.fst = cs.map Prod.fst := by
  induction cs generalizing name with
  | nil => rfl
  | cons kd cs ih =>
    simp only [Chats.resetRooms, List.map_cons]
    rw [ih]

theorem keys_delete (key : String) (cs : Chats) :
    (cs.delete key).map Prod.fst = cs.map Prod.fst := by
  simp only [Chats.delete, Chats.update, List.map_map]
  refine List.map_congr_left fun kd _ => ?_
  simp only [Function.comp_apply]
  split <;> rfl

theorem Left.sortedKeys {room : String} {a : Account} {cs : Chats} {fault : Bool}
    (h : Left room a cs fault) (hs : SortedKeys a.convs) : SortedKeys cs := by
  cases h with
  | unknown _ => exact hs
  | @removed key c _ _ =>
    have hreset : SortedKeys (Chats.resetRooms key c.legacyName a.convs).2 :=
      hs.of_keys (keys_resetRooms _ _ _)
    have hremoved : SortedKeys (a.convs.removeConversation key c) := hreset.filter _
    exact hremoved.of_keys (keys_delete key _)
  | fault => exact hs

theorem Path.sortedKeys {leaving : Bool} {a b : Account} (h : Path leaving a b)
    (hs : SortedKeys a.convs) : SortedKeys b.convs := by
  induction h with
  | refl => exact hs
  | quiet _ hq ih => exact ih.of_tags hq.tags
  | add _ _ ih => exact SortedBy.upsert ih _
  | postpone _ _ ih => exact ih
  | join _ _ ih => exact SortedBy.upsert ih _
  | @leave b room _ _ ih => exact (left_leaveRoom room b).sortedKeys ih

/-! ## Leaving a room -/

/-- A conversation to which none belongs is removed with its entry, and nothing else changes. -/
theorem Keyed.removeConversation {cs : Chats} (hk : Keyed cs) {kc : String × Conversation}
    (hkc : kc ∈ cs) (hfree : ∀ kd ∈ cs, kd.2.room ≠ kc.2.legacyName) :
    cs.removeConversation kc.1 kc.2 = cs.filter fun kd => kd.1 ≠ kc.1 := by
  have hreset : Chats.resetRooms kc.1 kc.2.legacyName cs = (kc.2.legacyName, cs) := by
    refine Chats.resetRooms_of_free hfree fun kd hkd heq => ?_
    rw [(hk kd hkd).name, heq, (hk kc hkc).name]
  unfold Chats.removeConversation
  rw [hreset]
  simp only [(hk kc hkc).name]

theorem delete_filter (key : String) (cs : Chats) :
    Chats.delete key (cs.filter fun kd => kd.1 ≠ key) = cs.filter fun kd => kd.1 ≠ key := by
  have hid : ∀ kd ∈ cs.filter (fun kd => kd.1 ≠ key),
      (if kd.1 = key then (kd.1, { kd.2 with freed := true }) else kd) = kd := by
    intro kd hkd
    have hne : kd.1 ≠ key := by simpa using (List.mem_filter.mp hkd).2
    exact if_neg hne
  simp only [Chats.delete, Chats.update]
  rw [List.map_congr_left hid, List.map_id']

/-- Leaving a room takes away the entry that its name stands for, or nothing. -/
theorem Keyed.leaveRoom {a : Account} (hk : Keyed a.convs) {room : String}
    (hu : Unneeded room a.convs) :
    (a.leaveRoom room).convs = a.convs ∨
      ∃ kc, a.convs.getConversation room = some kc ∧
        (a.leaveRoom room).convs = a.convs.filter fun kd => kd.1 ≠ kc.1 := by
  generalize hcs : (a.leaveRoom room).convs = cs
  generalize hfault : (a.leaveRoom room).fault = fault
  have hleft := left_leaveRoom room a
  rw [hcs, hfault] at hleft
  cases hleft with
  | unknown _ => exact .inl rfl
  | @removed key c hsome _ =>
    refine .inr ⟨(key, c), hsome, ?_⟩
    rw [hk.removeConversation (Chats.mem_of_getConversation hsome).1 (hu _ hsome)]
    exact delete_filter key a.convs
  | fault => exact .inl rfl

/-- The entry of a key is free: no stored conversation belongs to it. -/
def FreeKey (key : String) (cs : Chats) : Prop := ∀ kd ∈ cs, kd.2.room ≠ key

theorem FreeKey.of_tags {key : String} {cs cs' : Chats} (hf : FreeKey key cs)
    (h : cs'.tags = cs.tags) : FreeKey key cs' := by
  intro kd hkd
  obtain ⟨d, hd, htag⟩ := Chats.exists_of_tags h hkd
  simp only [Conversation.tag, Tag.mk.injEq] at htag
  rw [← htag.2.1]
  exact hf _ hd

/-- A stored key stands for its own entry. -/
theorem Keyed.unneeded_iff {cs : Chats} (hk : Keyed cs) {kc : String × Conversation}
    (hkc : kc ∈ cs) : Unneeded kc.1 cs ↔ FreeKey kc.1 cs := by
  obtain ⟨c, hfind⟩ := Chats.exists_find_of_mem hkc
  have hlookup := Chats.getConversation_of_find hfind
  have hname := (hk _ (Chats.mem_of_find hfind).1).name
  dsimp only at hname
  constructor
  · intro hu kd hkd
    rw [← hname]
    exact hu _ hlookup kd hkd
  · intro hf kd hkd
    rw [hlookup] at hkd
    cases hkd
    rw [hname]
    exact hf

theorem Keyed.sub {cs cs' : Chats} (hk : Keyed cs) (h : cs' ⊆ cs) : Keyed cs' :=
  fun kc hkc => hk kc (h hkc)

theorem FreeKey.sub {key : String} {cs cs' : Chats} (hf : FreeKey key cs) (h : cs' ⊆ cs) :
    FreeKey key cs' := fun kd hkd => hf kd (h hkd)

/-- Leaving a room under its key takes away at most the entry of the key. -/
theorem Keyed.leave_key {a : Account} (hk : Keyed a.convs) {kc : String × Conversation}
    (hkc : kc ∈ a.convs) (hf : FreeKey kc.1 a.convs) :
    (a.leaveRoom kc.1).convs ⊆ a.convs ∧
      ∀ kd ∈ a.convs, kd.1 ≠ kc.1 → kd ∈ (a.leaveRoom kc.1).convs := by
  rcases hk.leaveRoom ((hk.unneeded_iff hkc).mpr hf) with hsame | ⟨ke, hlookup, hfilter⟩
  · rw [hsame]
    exact ⟨fun _ h => h, fun _ h _ => h⟩
  · obtain ⟨c, hfind⟩ := Chats.exists_find_of_mem hkc
    rw [Chats.getConversation_of_find hfind] at hlookup
    cases hlookup
    rw [hfilter]
    exact ⟨fun _ h => (List.mem_filter.mp h).1,
      fun kd hkd hne => List.mem_filter.mpr ⟨hkd, by simpa using hne⟩⟩

/-- The rooms are left one after the other. -/
theorem Keyed.leave_all {rooms : List String} {a : Account} (hk : Keyed a.convs)
    (hnodup : rooms.Nodup) (hstored : ∀ room ∈ rooms, ∃ c, (room, c) ∈ a.convs)
    (hfree : ∀ room ∈ rooms, FreeKey room a.convs) :
    Keyed (rooms.foldl (fun a room => a.leaveRoom room) a).convs := by
  induction rooms generalizing a with
  | nil => exact hk
  | cons room rooms ih =>
    obtain ⟨hroom, hrest⟩ := List.nodup_cons.mp hnodup
    obtain ⟨c, hc⟩ := hstored room List.mem_cons_self
    obtain ⟨hsub, hother⟩ := hk.leave_key hc (hfree room List.mem_cons_self)
    refine ih (hk.sub hsub) hrest ?_ fun r hr => (hfree r (List.mem_cons_of_mem room hr)).sub hsub
    intro r hr
    obtain ⟨d, hd⟩ := hstored r (List.mem_cons_of_mem room hr)
    refine ⟨d, hother (r, d) hd ?_⟩
    rintro rfl
    exact hroom hr

theorem Unneeded.of_tags {name : String} {cs cs' : Chats} (hu : Unneeded name cs) (hk : Keyed cs)
    (h : cs'.tags = cs.tags) : Unneeded name cs' := by
  intro kc hkc
  have hkey := Chats.getConversation_keys (keys_of_tags h) name
  rw [hkc] at hkey
  obtain ⟨kd, hkd, heq⟩ := Option.map_eq_some_iff.mp hkey.symm
  have hfree : FreeKey kc.1 cs := by
    intro ke hke
    rw [← heq, ← (hk kd (Chats.mem_of_getConversation hkd).1).name]
    exact hu kd hkd ke hke
  rw [((hk.of_tags h) kc (Chats.mem_of_getConversation hkc).1).name]
  exact hfree.of_tags h

/-! ## Presences that leave rooms -/

theorem keyed_leaveContact {p : Presence} {a : Account} (hk : Keyed a.convs)
    (hl : ∀ room ∈ contactLeft p a, Unneeded room a.convs) : Keyed (a.leaveContact p).convs := by
  unfold leaveContact
  dsimp only
  split
  · exact hk
  · rename_i key c hsome
    have hcall := Quiet.call key (fun x c => plain_removeJid (x := x) p.fromJid c) a
    have hkeyed := hk.of_tags hcall.tags
    split
    · exact hkeyed
    · rename_i hjids
      split
      · exact hkeyed
      · rename_i hstay
        have hleft : legacyName a.env.toConfig p.toJid ∈ contactLeft p a := by
          have hjids' : (c.toConversation.removeJid p.fromJid).jids = [] := by simpa using hjids
          have hstay' : a.env.stayConnected = false := by simpa [hcall.env] using hstay
          simp [contactLeft, hsome, hjids', hstay']
        have hunneeded := (hl _ hleft).of_tags hk hcall.tags
        rcases hkeyed.leaveRoom hunneeded with hsame | ⟨kc, -, hfilter⟩
        · rw [hsame]
          exact hkeyed
        · rw [hfilter]
          exact hkeyed.sub fun _ h => (List.mem_filter.mp h).1

theorem mem_deserted {j : Jid} {a : Account} {room : String} :
    room ∈ deserted j a ↔ a.env.stayConnected = false ∧ room ≠ "" ∧
      ∃ c, (room, c) ∈ a.convs ∧ (c.toConversation.removeJid j).jids = [] ∧ c.muc = true := by
  unfold deserted
  cases a.env.stayConnected with
  | true => simp
  | false =>
    simp only [Bool.false_eq_true, if_false, true_and, List.mem_map, List.mem_filter,
      decide_eq_true_eq]
    constructor
    · rintro ⟨⟨key, c⟩, ⟨hmem, hne, hjids, hmuc⟩, rfl⟩
      exact ⟨hne, c, hmem, hjids, hmuc⟩
    · rintro ⟨hne, c, hmem, hjids, hmuc⟩
      exact ⟨(room, c), ⟨hmem, hne, hjids, hmuc⟩, rfl⟩

theorem jids_removeJid {x : Context} (j : Jid) (c : Conversation) :
    (c.removeJid x j).1.jids = (c.toConversation.removeJid j).jids ∧
      (c.removeJid x j).1.muc = c.muc := by
  have hplain := (plain_removeJid (x := x) j c).tag
  simp only [Conversation.tag, Tag.mk.injEq] at hplain
  refine ⟨?_, hplain.2.2.1⟩
  unfold Conversation.removeJid
  dsimp only
  split
  · unfold Conversation.generatePresence
    dsimp only
    split
    · rfl
    · dsimp only
      split <;> rfl
  · rfl

/-- The rooms that are empty once the resource has been removed. -/
theorem emptyRooms_sub {j : Jid} {a : Account} (hstay : a.env.stayConnected = false) {room : String}
    (h : room ∈ (a.callAll fun key c =>
      if key = "" then (c, []) else c.removeJid a.toContext j).emptyRooms) :
    room ∈ deserted j a := by
  rw [mem_deserted]
  unfold emptyRooms at h
  obtain ⟨⟨key, c⟩, hc, rfl⟩ := List.mem_map.mp h
  obtain ⟨hmem, hcond⟩ := List.mem_filter.mp hc
  obtain ⟨hne, hjids, hmuc⟩ := of_decide_eq_true hcond
  refine ⟨hstay, hne, ?_⟩
  unfold callAll at hmem
  split at hmem
  · obtain ⟨⟨key', d⟩, hd, heq⟩ := List.mem_map.mp hmem
    obtain ⟨rfl, rfl⟩ := Prod.mk.inj heq
    dsimp only at hne hjids hmuc ⊢
    rw [if_neg hne] at hjids hmuc
    obtain ⟨hremoved, hsame⟩ := jids_removeJid (x := a.toContext) j d
    exact ⟨d, hd, hremoved ▸ hjids, hsame ▸ hmuc⟩
  · refine ⟨c, hmem, ?_, hmuc⟩
    dsimp only at hjids
    simp [Spectrum.Conversation.removeJid, hjids]

theorem nodup_emptyRooms {a : Account} (hs : SortedKeys a.convs) : a.emptyRooms.Nodup := by
  have hsorted : SortedKeys (a.convs.filter fun kc =>
      kc.1 ≠ "" ∧ kc.2.jids = [] ∧ kc.2.muc = true) := hs.filter _
  have hpair := List.pairwise_map.mpr hsorted
  exact hpair.imp fun hlt => hlt.ne

theorem keyed_removeJid {j : Jid} {a : Account} (hk : Keyed a.convs) (hs : SortedKeys a.convs)
    (hl : ∀ room ∈ deserted j a, FreeKey room a.convs) : Keyed (a.removeJid j).convs := by
  have hall := quiet_callAll_removeJid j a
  have hkeyed := hk.of_tags hall.tags
  have hsorted := hs.of_tags hall.tags
  unfold removeJid
  dsimp only
  split
  · exact hkeyed
  · rename_i hstay
    have hstay' : a.env.stayConnected = false := by simpa [hall.env] using hstay
    have hnodup := List.pairwise_reverse.mpr ((nodup_emptyRooms hsorted).imp Ne.symm)
    refine hkeyed.leave_all hnodup ?_ ?_
    · intro room hroom
      obtain ⟨⟨key, c⟩, hc, rfl⟩ := List.mem_map.mp (List.mem_reverse.mp hroom)
      exact ⟨c, (List.mem_filter.mp hc).1⟩
    · intro room hroom
      exact (hl room (emptyRooms_sub hstay' (List.mem_reverse.mp hroom))).of_tags hall.tags

theorem deserted_resetResources {j : Jid} {a : Account} {room : String}
    (h : room ∈ deserted j a.resetResources) : room ∈ deserted j a := by
  have henv := (quiet_resetResources a).env
  rw [mem_deserted] at h ⊢
  obtain ⟨hstay, hne, c, hc, hjids, hmuc⟩ := h
  refine ⟨henv ▸ hstay, hne, ?_⟩
  unfold resetResources callAll at hc
  split at hc
  · obtain ⟨⟨key, d⟩, hd, heq⟩ := List.mem_map.mp hc
    obtain ⟨rfl, rfl⟩ := Prod.mk.inj heq
    dsimp only at hjids hmuc
    refine ⟨d, hd, ?_⟩
    split at hjids
    · rename_i hd'
      exact ⟨hjids, hd'⟩
    · rename_i hd'
      rw [if_neg hd'] at hmuc
      exact ⟨hjids, hmuc⟩
  · exact ⟨c, hc, hjids, hmuc⟩

theorem keyed_handleTransportPresence {p : Presence} {a : Account} (hk : Keyed a.convs)
    (hs : SortedKeys a.convs)
    (hl : p.type = .unavailable → ∀ room ∈ deserted p.fromJid a, FreeKey room a.convs) :
    Keyed (a.handleTransportPresence p).convs := by
  have hreset := quiet_resetResources a
  have hremoved : Keyed (if p.type = .unavailable then a.resetResources.removeJid p.fromJid
      else a.resetResources).convs := by
    split
    · rename_i htype
      refine keyed_removeJid (hk.of_tags hreset.tags) (hs.of_tags hreset.tags) ?_
      intro room hroom
      exact (hl htype room (deserted_resetResources hroom)).of_tags hreset.tags
    · exact hk.of_tags hreset.tags
  unfold handleTransportPresence
  dsimp only
  exact hremoved.of_tags (quiet_changeLegacyPresence _).tags

@[simp] theorem convs_onConnectingTimeout (a : Account) :
    a.onConnectingTimeout.convs = a.convs := by
  unfold onConnectingTimeout
  split
  · rfl
  · dsimp only
    split <;> rfl

@[simp] theorem convs_sendCapabilitiesRequest (j : Jid) (a : Account) :
    (a.sendCapabilitiesRequest j).2.convs = a.convs := by
  unfold sendCapabilitiesRequest
  split
  · exact convs_onConnectingTimeout a
  · rfl

@[simp] theorem convs_checkReady (p : Presence) (a : Account) :
    (a.checkReady p).convs = a.convs := by
  have hcaps := convs_sendCapabilitiesRequest p.fromJid a
  unfold checkReady
  split
  · rfl
  · split
    · split
      · rename_i b heq
        rw [heq] at hcaps
        exact hcaps
      · rename_i b heq
        rw [heq] at hcaps
        exact hcaps
    · split <;> rfl

theorem deserted_congr {a b : Account} (henv : b.env = a.env) (hconvs : b.convs = a.convs)
    (j : Jid) : deserted j b = deserted j a := by
  simp [deserted, henv, hconvs]

theorem contactLeft_congr {a b : Account} (henv : b.env = a.env) (hconvs : b.convs = a.convs)
    (p : Presence) : contactLeft p b = contactLeft p a := by
  simp [contactLeft, henv, hconvs]

theorem keyed_componentPresence {p : Presence} {a : Account} (hk : Keyed a.convs)
    (hs : SortedKeys a.convs)
    (hl : p.type = .unavailable → ∀ room ∈ deserted p.fromJid a, Unneeded room a.convs) :
    Keyed (a.componentPresence p).convs := by
  by_cases htype : p.type = .unavailable
  · unfold componentPresence
    split
    · exact hk
    · rename_i hto
      have hnode : p.toJid.node = "" := by
        by_contra hne
        exact hto (.inl hne)
      have hready := quiet_checkReady p a
      simp only [htype, handlePresence, hnode, ne_eq, not_true_eq_false, false_and, if_false]
      refine keyed_handleTransportPresence (hk.of_tags hready.tags) (hs.of_tags hready.tags) ?_
      intro _ room hroom
      rw [deserted_congr hready.env (convs_checkReady p a)] at hroom
      obtain ⟨-, -, c, hc, -⟩ := mem_deserted.mp hroom
      rw [convs_checkReady]
      exact (hk.unneeded_iff hc).mp (hl htype room hroom)
  · exact (path_componentPresence p (fun h => absurd h htype) a).keyed hk

theorem keyed_presenceReceived {p : Presence} {a : Account} (hk : Keyed a.convs)
    (hs : SortedKeys a.convs) (hl : LeavesNone a (.presence p)) :
    Keyed (a.presenceReceived p).convs := by
  unfold presenceReceived
  dsimp only
  by_cases hnode : p.toJid.node = ""
  · have hpassed : ∀ passed, (a.oracle.handleIncomingPresence p).2 = some passed →
        passed.type = .unavailable → ∀ room ∈ deserted passed.fromJid a, Unneeded room a.convs := by
      intro passed hsome htype room hroom
      refine hl room ?_
      simpa [roomsLeft, hnode, hsome, htype] using hroom
    simp only [hnode, ne_eq, not_true_eq_false, false_and, if_false]
    split
    · exact hk
    · rename_i passed hsome
      refine keyed_componentPresence hk hs fun htype room hroom => ?_
      exact hpassed passed hsome htype room hroom
  · have hskip : a.oracle.handleIncomingPresence p = (a.oracle, none) := by
      simp [Oracle.handleIncomingPresence, hnode]
    rw [hskip]
    split
    · by_cases htype : p.type = .unavailable
      · have hready := quiet_checkReady p a
        have hleave : a.handlePresence p false = (a.checkReady p).leaveContact p := by
          simp [handlePresence, hnode, htype]
        have hcontact : Keyed ((a.checkReady p).leaveContact p).convs := by
          refine keyed_leaveContact (hk.of_tags hready.tags) ?_
          intro room hroom
          rw [contactLeft_congr hready.env (convs_checkReady p a)] at hroom
          rw [convs_checkReady]
          refine hl room ?_
          simpa [roomsLeft, hnode, htype] using hroom
        rw [← hleave] at hcontact
        exact hcontact
      · exact (path_handlePresence p (fun h => absurd h htype) false a).keyed hk
    · exact hk

/-! ## Occupants -/

section Occupants

variable {x : Context}

/-- An error presence is one of the user himself. -/
theorem error_of_generatePresence {nickname : String} {flag : BitVec 32} {status : StatusType}
    {statusMessage newname iconhash : String} {c : Conversation}
    (h : (c.generatePresence x nickname flag status statusMessage newname iconhash).1.type =
      .error) :
    c.nickname = nickname ∧ (Conversation.roomError flag statusMessage).isSome = true := by
  unfold Conversation.generatePresence at h
  dsimp only at h
  split at h
  · rename_i e hsome
    split at hsome
    · rename_i hown
      rw [hsome]
      exact ⟨of_decide_eq_true hown, rfl⟩
    · cases hsome
  · dsimp only at h
    split at h
    · split at h <;> cases h
    · cases h

theorem nickname_generatePresence (nickname : String) (flag : BitVec 32) (status : StatusType)
    (statusMessage newname iconhash : String) (c : Conversation) :
    (c.generatePresence x nickname flag status statusMessage newname iconhash).2.nickname =
      c.nickname := by
  rcases @generatePresence_cases x nickname flag status statusMessage newname iconhash c with
    ⟨h, -⟩ | ⟨h, -⟩
  · rw [h]
  · rw [h]

end Occupants

/-- The conversation of the key, with the nickname of the user. -/
def Nicknamed (key nickname : String) (a : Account) : Prop :=
  ∀ c, a.convs.find key = some (key, c) → c.nickname = nickname

theorem announce_error {key nickname : String} {p : ParticipantChange} {a : Account}
    (hn : Nicknamed key nickname a) (h : (a.announce key p).1 = .error) :
    nickname = (if p.nickAlias = "" then p.nickname else p.nickAlias) ∧
      (Conversation.roomError p.flag p.statusMessage).isSome = true := by
  unfold announce at h
  dsimp only at h
  split at h
  · cases h
  · rename_i key' c hfind
    have hkey := (Chats.mem_of_find hfind).2
    dsimp only at hkey
    subst hkey
    have herror := error_of_generatePresence h
    rw [hn c hfind] at herror
    exact herror

theorem nicknamed_announce {key nickname : String} (p : ParticipantChange) {a : Account}
    (hn : Nicknamed key nickname a) : Nicknamed key nickname (a.announce key p).2 := by
  unfold announce
  dsimp only
  split
  · exact hn
  · intro d hd
    obtain ⟨c, hfind, rfl | rfl⟩ := find_call hd
    · exact hn d hfind
    · exact (nickname_generatePresence ..).trans (hn c hfind)

/-- The names agree, and no conversation belongs to the key that may be left. -/
def Leavable (key : String) (a : Account) : Prop := Keyed a.convs ∧ FreeKey key a.convs

theorem Leavable.quiet {key : String} {a b : Account} (h : Leavable key a) (hq : Quiet a b) :
    Leavable key b := ⟨h.1.of_tags hq.tags, h.2.of_tags hq.tags⟩

theorem Leavable.settle {key : String} {a : Account} (h : Leavable key a) (type : PresenceType) :
    Leavable key (a.settle key type) := by
  have hsubject := Quiet.call key (fun x c => plain_sendSubject (x := x) c) a
  have hcalled := h.quiet hsubject
  unfold Account.settle
  dsimp only
  split
  · rename_i key' c hfind
    obtain ⟨hmem, hkey⟩ := Chats.mem_of_find hfind
    dsimp only at hkey
    subst hkey
    have hname := (hcalled.1 _ hmem).name
    dsimp only at hname
    rw [hname]
    obtain ⟨hsub, -⟩ := hcalled.1.leave_key hmem hcalled.2
    exact ⟨hcalled.1.sub hsub, hcalled.2.sub hsub⟩
  · exact hcalled

theorem quiet_settle {key : String} {type : PresenceType} (htype : type ≠ .error) (a : Account) :
    Quiet a (a.settle key type) := by
  have hsubject := Quiet.call key (fun x c => plain_sendSubject (x := x) c) a
  unfold Account.settle
  dsimp only
  split
  · exact absurd rfl htype
  · exact hsubject

/-- The change of the nickname that `handleParticipantChanged` makes for a new name. -/
def ParticipantChange.renamed (p : ParticipantChange) : ParticipantChange :=
  { p with nickname := p.newname, newname := "", nickAlias := "" }

/-- A change that does not expel the user sends no error presence, also for a new name. -/
theorem announce_ne_error {key : String} {c : Conversation} {p : ParticipantChange} {a : Account}
    (hfind : a.convs.find key = some (key, c)) (hexpels : ¬ expels p c = true) :
    (a.announce key p).1 ≠ .error ∧
      (p.newname ≠ "" → ((a.announce key p).2.announce key p.renamed).1 ≠ .error) := by
  have hnick : Nicknamed key c.nickname a := by
    intro d hd
    rw [hfind] at hd
    cases hd
    rfl
  constructor
  · intro herror
    obtain ⟨hown, hflag⟩ := announce_error hnick herror
    exact hexpels (by simp [expels, hflag, hown])
  · intro hnewname herror
    obtain ⟨hown, hflag⟩ := announce_error (nicknamed_announce p hnick) herror
    simp only [ParticipantChange.renamed, if_true] at hown hflag
    exact hexpels (by simp [expels, hflag, hnewname, hown])

/-- No error presence is sent, so nothing is left. -/
theorem quiet_handleParticipantChanged {key : String} {c : Conversation} {p : ParticipantChange}
    {a : Account} (hfind : a.convs.find key = some (key, c)) (hexpels : ¬ expels p c = true) :
    Quiet a (a.handleParticipantChanged key p) := by
  obtain ⟨houter, hinner⟩ := announce_ne_error hfind hexpels
  have hannounced := quiet_announce key p a
  unfold handleParticipantChanged
  dsimp only
  split
  · exact hannounced.trans (quiet_settle houter _)
  · rename_i hnewname
    have hone : Quiet (a.announce key p).2 ((a.announce key p).2.changeOne key p.renamed) :=
      (quiet_announce key p.renamed _).trans (quiet_settle (hinner hnewname) _)
    exact (hannounced.trans hone).trans (quiet_settle houter _)

theorem keyed_handleParticipantChangedPayload {p : ParticipantChange} {a : Account}
    (hk : Keyed a.convs) (hl : LeavesNone a (.participant p)) :
    Keyed (a.handleParticipantChangedPayload p).convs := by
  unfold handleParticipantChangedPayload
  split
  · exact hk
  · rename_i key c hsome
    obtain ⟨hmem, hfind⟩ := Chats.mem_of_getConversation hsome
    have hname := (hk _ hmem).name
    dsimp only at hname hfind
    by_cases hexpels : expels p c = true
    · -- the room may be left, and no conversation belongs to it
      have hunneeded : Unneeded c.legacyName a.convs := by
        refine hl _ ?_
        simp [roomsLeft, hsome, hexpels]
      rw [hname] at hunneeded
      have hleavable : Leavable key a := ⟨hk, (hk.unneeded_iff hmem).mp hunneeded⟩
      have hannounced := hleavable.quiet (quiet_announce key p a)
      have hone : ∀ q, Leavable key ((a.announce key p).2.changeOne key q) := fun q =>
        (hannounced.quiet (quiet_announce key q _)).settle _
      unfold handleParticipantChanged
      dsimp only
      split
      · exact (hannounced.settle _).1
      · exact ((hone _).settle _).1
    · exact hk.of_tags (quiet_handleParticipantChanged hfind hexpels).tags

/-! ## Every run -/

theorem keyed_run {a : Account} {e : Event} (hk : Keyed a.convs) (hs : SortedKeys a.convs)
    (hr : RoomsJoined a) (hl : LeavesNone a e) : Keyed (e.run a).convs := by
  cases e with
  | presence p => exact keyed_presenceReceived hk hs hl
  | participant p => exact keyed_handleParticipantChangedPayload hk hl
  | caps j known => exact (path_run hr (.caps j known)).keyed hk
  | connectingTimeout => exact (path_run hr .connectingTimeout).keyed hk
  | connected => exact (path_run hr .connected).keyed hk
  | convMessage payload subject => exact (path_run hr (.convMessage payload subject)).keyed hk
  | attention payload => exact (path_run hr (.attention payload)).keyed hk
  | chatState buddyname state => exact (path_run hr (.chatState buddyname state)).keyed hk
  | ack payload => exact (path_run hr (.ack payload)).keyed hk
  | roomNickname room nickname => exact (path_run hr (.roomNickname room nickname)).keyed hk
  | message m => exact (path_run hr (.message m)).keyed hk
  | sessions js => exact (path_run hr (.sessions js)).keyed hk
  | roster getBuddy => exact (path_run hr (.roster getBuddy)).keyed hk

theorem sortedKeys {tr : List (Account × Event)} {a : Account} (h : machine.Run tr a) :
    SortedKeys a.convs := by
  induction h with
  | init h0 =>
    obtain ⟨x, caps, rfl⟩ := h0
    exact List.Pairwise.nil
  | step h hs ih =>
    obtain ⟨-, rfl, -⟩ := step_eq hs
    exact (path_run (roomsJoined h) _).sortedKeys ih

/-- In every run in which rooms are left only when no conversation belongs to them, every
conversation is stored under its name, and a conversation to which none belongs is removed with
its entry. -/
theorem keyed_of_leavesNone {tr : List (Account × Event)} {a : Account} (h : machine.Run tr a)
    (hl : Machine.Meets LeavesNone tr) :
    Keyed a.convs ∧ ∀ kc ∈ a.convs, (∀ kd ∈ a.convs, kd.2.room ≠ kc.2.legacyName) →
      a.convs.removeConversation kc.1 kc.2 = a.convs.filter fun kd => kd.1 ≠ kc.1 := by
  suffices hk : Keyed a.convs from ⟨hk, fun kc hkc hfree => hk.removeConversation hkc hfree⟩
  induction h with
  | init h0 =>
    obtain ⟨x, caps, rfl⟩ := h0
    intro kc hkc
    cases hkc
  | step h hs ih =>
    obtain ⟨hcond, hrest⟩ := Machine.meets_cons.mp hl
    obtain ⟨-, rfl, -⟩ := step_eq hs
    exact keyed_run (ih hrest) (sortedKeys h) (roomsJoined h) hcond

namespace Sample

def occupant : Account :=
  start
    { env := { user := ⟨"bob", "example.org", ""⟩ }, oracle := fun _ => [], sessions := []
      getBuddy := fun _ => none, cacheMessages := false }
    fun _ => false

def roomPresence (type : PresenceType) : Presence where
  fromJid := ⟨"bob", "example.org", "home"⟩
  toJid := ⟨"#room", "localhost", "bob"⟩
  muc := some none
  type := type

/-- A private message to an occupant of the room. -/
def privateMessage : Message :=
  .plain
    { fromJid := ⟨"bob", "example.org", "home"⟩, toJid := ⟨"#room", "localhost", "carol"⟩
      body := "hi" }

end Sample

/-- A room is joined and left beside a chat. -/
theorem keyed_of_leavesNone_chat : ∃ tr a, machine.Run tr a ∧ Machine.Meets LeavesNone tr ∧
    a.convs.map Prod.fst = ["carol"] ∧ Keyed a.convs := by
  have hexec : ∃ a, (machine.restrict LeavesNone).exec Sample.occupant
      [.connected, .convMessage { buddyname := "carol", message := "hi" } false,
        .presence (Sample.roomPresence .available), .presence (Sample.roomPresence .unavailable)] =
        some a ∧ a.convs.map Prod.fst = ["carol"] := ⟨_, by rfl, by rfl⟩
  obtain ⟨a, ha, hkeys⟩ := hexec
  have hinit : machine.init Sample.occupant := ⟨_, _, rfl⟩
  obtain ⟨tr, hrun, hmeets⟩ := Machine.exists_run_of_restrict hinit ha
  exact ⟨tr, a, hrun, hmeets, hkeys, (keyed_of_leavesNone hrun hmeets).1⟩

/-- A private chat is renamed when its room is left, and stays under its old key. -/
theorem not_keyed_of_privateChat :
    ¬ ∀ (tr : List (Account × Event)) (a : Account), machine.Run tr a → Keyed a.convs := by
  intro hall
  have hexec : ∃ a, machine.exec Sample.occupant
      [.connected, .presence (Sample.roomPresence .available), .message Sample.privateMessage,
        .presence (Sample.roomPresence .unavailable)] = some a ∧
      ∃ c, a.convs = [("#room/carol", c)] ∧ c.legacyName = "/#room/carol" :=
    ⟨_, by rfl, _, by rfl, by rfl⟩
  obtain ⟨a, ha, c, hconvs, hname⟩ := hexec
  have hinit : machine.init Sample.occupant := ⟨_, _, rfl⟩
  obtain ⟨tr, hrun, -⟩ := Machine.exists_run_of_exec hinit ha
  have hkeyed : c.legacyName = "#room/carol" :=
    (hall tr a hrun ("#room/carol", c) (by simp [hconvs])).name
  rw [hname] at hkeyed
  exact absurd hkeyed (by decide)

end Spectrum.Account
