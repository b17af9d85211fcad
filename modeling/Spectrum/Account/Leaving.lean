import Spectrum.Account.Joins
import Spectrum.Account.Keys

/-!
# Leaving rooms

A room should be left only after it has been joined, and a presence that takes a resource away
should never remove a chat. The loop over the rooms of a resource that goes offline tests that a
conversation is a room. The other two ways to leave do not: an unavailable presence to a contact
leaves every conversation without participants, which a chat always is, and an error of an
occupant leaves the conversation of any name.

The runs in which only rooms are left this way keep the names of the rooms (`RoomsNamed`), so that
leaving a room takes away its own entry and nothing else.
-/

namespace Spectrum.Account

open Lib

/-! ## The property -/

/-- Every room that was left had been joined, and not left since. The log is newest first. -/
def LeftWasJoined : List Output → Prop
  | [] => True
  | .roomLeft room :: log => JoinedSince room log = true ∧ LeftWasJoined log
  | _ :: log => LeftWasJoined log

/-- The chats stay stored. -/
def KeepsChats (a b : Account) : Prop :=
  ∀ kc ∈ a.convs, kc.2.muc = false →
    ∃ c, (kc.1, c) ∈ b.convs ∧ c.muc = false ∧ c.freed = kc.2.freed

/-- Only joined rooms have been left, and no presence that takes a resource away has removed a
chat. -/
structure OnlyRoomsLeft (tr : List (Account × Event)) (a : Account) : Prop where
  joined : LeftWasJoined a.log
  chats : ∀ b p, (b, Event.presence p) ∈ tr → (Event.presence p).mayLeave = true →
    KeepsChats b ((Event.presence p).run b)

/-! ## The condition -/

/-- A room is stored under the name. -/
def RoomStored (room : String) (cs : Chats) : Prop :=
  room ≠ "" ∧ ∃ c, cs.find room = some (room, c) ∧ c.muc = true

/-- The entry of a name, as a bounded search. -/
theorem exists_find_iff {name : String} {cs : Chats} {P : Conversation → Prop} :
    (∃ kc ∈ (cs.find name).toList, P kc.2) ↔ ∃ c, cs.find name = some (name, c) ∧ P c := by
  constructor
  · rintro ⟨⟨key, c⟩, hkc, hp⟩
    rw [Option.mem_toList] at hkc
    obtain rfl : key = name := (Chats.mem_of_find hkc).2
    exact ⟨c, hkc, hp⟩
  · rintro ⟨c, hc, hp⟩
    exact ⟨(name, c), by simp [hc], hp⟩

instance (room : String) (cs : Chats) : Decidable (RoomStored room cs) :=
  decidable_of_iff (room ≠ "" ∧ ∃ kc ∈ (cs.find room).toList, kc.2.muc = true)
    (and_congr_right fun _ => exists_find_iff (P := fun c => c.muc = true))

/-- The condition: what a presence leaves is a stored room, and an error of an occupant that
concerns the user is one of a room. -/
def LeavesRooms (a : Account) : Event → Prop
  | .presence p => ∀ room ∈ roomsLeft a (.presence p), RoomStored room a.convs
  | .participant p => ∀ kc ∈ (a.convs.getConversation p.room).toList, expels p kc.2 = true →
      kc.1 ≠ "" ∧ kc.2.muc = true
  | _ => True

instance (a : Account) (e : Event) : Decidable (LeavesRooms a e) :=
  match e with
  | .presence p =>
    inferInstanceAs (Decidable (∀ room ∈ roomsLeft a (.presence p), RoomStored room a.convs))
  | .participant p =>
    inferInstanceAs (Decidable (∀ kc ∈ (a.convs.getConversation p.room).toList,
      expels p kc.2 = true → kc.1 ≠ "" ∧ kc.2.muc = true))
  | .caps _ _ | .connectingTimeout | .connected | .convMessage _ _ | .attention _
  | .chatState _ _ | .ack _ | .roomNickname _ _ | .message _ | .sessions _ | .roster _ =>
    inferInstanceAs (Decidable True)

/-! ## Rooms under their names -/

/-- A room is stored under its name, and belongs to no other. -/
def RoomsNamed (cs : Chats) : Prop :=
  ∀ kc ∈ cs, kc.2.muc = true → kc.2.legacyName = kc.1 ∧ kc.2.room = ""

theorem RoomsNamed.of_tags {cs cs' : Chats} (hn : RoomsNamed cs) (h : cs'.tags = cs.tags) :
    RoomsNamed cs' := by
  intro kc hkc hmuc
  obtain ⟨c, hc, htag⟩ := Chats.exists_of_tags h hkc
  simp only [Conversation.tag, Tag.mk.injEq] at htag
  obtain ⟨hname, hroom, hsame, -⟩ := htag
  obtain ⟨hkey, hfree⟩ := hn (kc.1, c) hc (hsame.trans hmuc)
  exact ⟨hname ▸ hkey, hroom ▸ hfree⟩

/-- The entry of a key is the one with the old tag. -/
theorem Chats.find_of_tags {name : String} {cs cs' : Chats} {c : Conversation} (hs : SortedKeys cs)
    (h : cs'.tags = cs.tags) (hfind : cs.find name = some (name, c)) :
    ∃ d, cs'.find name = some (name, d) ∧ d.tag = c.tag := by
  obtain ⟨d, hd, htag⟩ := Chats.exists_of_tags h.symm (Chats.mem_of_find hfind).1
  obtain ⟨e, he⟩ := Chats.exists_find_of_mem hd
  obtain ⟨-, rfl⟩ := Prod.mk.inj ((hs.of_tags h).eq_of_key hd (Chats.mem_of_find he).1 rfl)
  exact ⟨d, he, htag⟩

theorem RoomStored.of_tags {room : String} {cs cs' : Chats} (hr : RoomStored room cs)
    (hs : SortedKeys cs) (h : cs'.tags = cs.tags) : RoomStored room cs' := by
  obtain ⟨hne, c, hfind, hmuc⟩ := hr
  obtain ⟨d, hd, htag⟩ := Chats.find_of_tags hs h hfind
  simp only [Conversation.tag, Tag.mk.injEq] at htag
  exact ⟨hne, d, hd, htag.2.2.1.trans hmuc⟩

namespace Chats

/-- What is left of a conversation when a room goes away. -/
def released (room : String) (c : Conversation) : Conversation :=
  if c.room = room then c.setRoom "" else c

/-- A conversation that belongs to none is removed, and the others are released from it. -/
theorem resetRooms_of_own {key name : String} {cs : Chats}
    (hown : ∀ kd ∈ cs, kd.1 = key → kd.2.legacyName = name ∧ kd.2.room ≠ name) :
    resetRooms key name cs = (name, cs.map fun kd => (kd.1, released name kd.2)) := by
  induction cs with
  | nil => rfl
  | cons kd cs ih =>
    have hrest := ih fun ke h => hown ke (List.mem_cons_of_mem kd h)
    unfold resetRooms
    by_cases hkey : kd.1 = key
    · obtain ⟨hname, hroom⟩ := hown kd List.mem_cons_self hkey
      simp only [hroom, if_false, hkey, if_true, hname, hrest]
      simp [released, hroom, hkey]
    · simp only [hkey, if_false, hrest]
      simp [released]

theorem muc_released (room : String) (c : Conversation) :
    (released room c).muc = c.muc ∧ (released room c).freed = c.freed := by
  unfold released
  split <;> exact ⟨rfl, rfl⟩

theorem released_of_muc {room : String} {c : Conversation} (h : c.room = "") (hne : room ≠ "") :
    released room c = c := by
  unfold released
  rw [if_neg]
  rw [h]
  exact hne.symm

end Chats

/-- A conversation is stored under the name, and has this name itself. -/
def Own (name : String) (cs : Chats) : Prop :=
  name ≠ "" ∧ ∃ c, cs.find name = some (name, c) ∧ c.legacyName = name ∧ c.room ≠ name

instance (name : String) (cs : Chats) : Decidable (Own name cs) :=
  decidable_of_iff
    (name ≠ "" ∧ ∃ kc ∈ (cs.find name).toList, kc.2.legacyName = name ∧ kc.2.room ≠ name)
    (and_congr_right fun _ =>
      exists_find_iff (P := fun c => c.legacyName = name ∧ c.room ≠ name))

theorem RoomStored.own {room : String} {cs : Chats} (hr : RoomStored room cs)
    (hn : RoomsNamed cs) : Own room cs := by
  obtain ⟨hne, c, hfind, hmuc⟩ := hr
  obtain ⟨hname, hroom⟩ := hn _ (Chats.mem_of_find hfind).1 hmuc
  refine ⟨hne, c, hfind, hname, ?_⟩
  rw [show c.room = "" from hroom]
  exact hne.symm

theorem Own.of_tags {name : String} {cs cs' : Chats} (ho : Own name cs) (hs : SortedKeys cs)
    (h : cs'.tags = cs.tags) : Own name cs' := by
  obtain ⟨hne, c, hfind, hname, hroom⟩ := ho
  obtain ⟨d, hd, htag⟩ := Chats.find_of_tags hs h hfind
  simp only [Conversation.tag, Tag.mk.injEq] at htag
  exact ⟨hne, d, hd, htag.1.trans hname, htag.2.1 ▸ hroom⟩

/-- What leaving a conversation under its own name does to the conversations. -/
theorem convs_leaveRoom {name : String} {a : Account} (hs : SortedKeys a.convs)
    (ho : Own name a.convs) :
    (a.leaveRoom name).fault = true ∨
      a.convs.allLive = true ∧ (a.leaveRoom name).convs =
        (a.convs.filter fun kd => kd.1 ≠ name).map fun kd => (kd.1, Chats.released name kd.2) := by
  obtain ⟨-, c, hfind, hname, hroom⟩ := ho
  have hlookup := Chats.getConversation_of_find hfind
  have hmem := (Chats.mem_of_find hfind).1
  have hown : ∀ kd ∈ a.convs, kd.1 = name → kd.2.legacyName = name ∧ kd.2.room ≠ name := by
    intro kd hkd hkey
    obtain rfl := hs.eq_of_key hkd hmem hkey
    exact ⟨hname, hroom⟩
  generalize hcs : (a.leaveRoom name).convs = cs
  generalize hfault : (a.leaveRoom name).fault = fault
  have hleft := left_leaveRoom name a
  rw [hcs, hfault] at hleft
  cases hleft with
  | unknown hnone =>
    rw [hlookup] at hnone
    cases hnone
  | removed hsome hlive =>
    rw [hlookup] at hsome
    cases hsome
    refine .inr ⟨hlive, ?_⟩
    have hremoved : a.convs.removeConversation name c =
        (a.convs.map fun kd => (kd.1, Chats.released name kd.2)).filter fun kd => kd.1 ≠ name := by
      unfold Chats.removeConversation
      rw [hname, Chats.resetRooms_of_own hown]
    rw [hremoved, delete_filter, List.filter_map]
    rfl
  | fault => exact .inl rfl

/-! ## Sequences of leaves -/

/-- Quiet steps, and stored rooms that are left. -/
inductive Leaving (a₀ : Account) : Account → Prop
  | refl : Leaving a₀ a₀
  | quiet {a b : Account} (h : Leaving a₀ a) (hq : Quiet a b) : Leaving a₀ b
  | leave {a : Account} {room : String} (h : Leaving a₀ a) (hr : RoomStored room a.convs)
      (hlive : (a.leaveRoom room).fault = false) : Leaving a₀ (a.leaveRoom room)

/-- The names of the rooms agree with the keys, which occur once. -/
structure Orderly (a : Account) : Prop where
  named : RoomsNamed a.convs
  sorted : SortedKeys a.convs

theorem Orderly.quiet {a b : Account} (h : Orderly a) (hq : Quiet a b) : Orderly b :=
  ⟨h.named.of_tags hq.tags, h.sorted.of_tags hq.tags⟩

theorem Orderly.leaveRoom {room : String} {a : Account} (h : Orderly a)
    (ho : Own room a.convs) (hfault : (a.leaveRoom room).fault = false) :
    Orderly (a.leaveRoom room) := by
  refine ⟨?_, (left_leaveRoom room a).sortedKeys h.sorted⟩
  rcases convs_leaveRoom h.sorted ho with hbad | ⟨-, hconvs⟩
  · simp [hfault] at hbad
  · rw [hconvs]
    intro kc hkc hmuc
    obtain ⟨kd, hkd, rfl⟩ := List.mem_map.mp hkc
    dsimp only at hmuc ⊢
    rw [(Chats.muc_released room kd.2).1] at hmuc
    obtain ⟨hname, hroom⟩ := h.named kd (List.mem_filter.mp hkd).1 hmuc
    rw [Chats.released_of_muc hroom ho.1]
    exact ⟨hname, hroom⟩

/-- The other rooms stay stored. -/
theorem RoomStored.leaveRoom {room other : String} {a : Account} (ho : RoomStored other a.convs)
    (h : Orderly a) (hr : RoomStored room a.convs) (hne : other ≠ room)
    (hfault : (a.leaveRoom room).fault = false) : RoomStored other (a.leaveRoom room).convs := by
  have hsorted := (left_leaveRoom room a).sortedKeys h.sorted
  rcases convs_leaveRoom h.sorted (hr.own h.named) with hbad | ⟨-, hconvs⟩
  · simp [hfault] at hbad
  · obtain ⟨hempty, c, hfind, hmuc⟩ := ho
    have hmem : (other, Chats.released room c) ∈ (a.leaveRoom room).convs := by
      rw [hconvs]
      refine List.mem_map.mpr
        ⟨(other, c), List.mem_filter.mpr ⟨(Chats.mem_of_find hfind).1, ?_⟩, rfl⟩
      simpa using hne
    obtain ⟨d, hd⟩ := Chats.exists_find_of_mem hmem
    obtain ⟨-, rfl⟩ := Prod.mk.inj (hsorted.eq_of_key hmem (Chats.mem_of_find hd).1 rfl)
    exact ⟨hempty, _, hd, (Chats.muc_released room c).1.trans hmuc⟩

/-- What has been left is not stored any more. -/
theorem find_leaveRoom {room : String} {a : Account} (h : Orderly a)
    (ho : Own room a.convs) (hfault : (a.leaveRoom room).fault = false) :
    (a.leaveRoom room).convs.find room = none := by
  rcases convs_leaveRoom h.sorted ho with hbad | ⟨-, hconvs⟩
  · simp [hfault] at hbad
  · rw [hconvs]
    unfold Chats.find
    refine List.find?_eq_none.mpr fun kd hkd => ?_
    obtain ⟨ke, hke, rfl⟩ := List.mem_map.mp hkd
    simpa using (List.mem_filter.mp hke).2

namespace Leaving

variable {a b c : Account}

theorem of_quiet (h : Quiet a b) : Leaving a b := refl.quiet h

theorem trans (h : Leaving a b) (h' : Leaving b c) : Leaving a c := by
  induction h' with
  | refl => exact h
  | quiet _ hq ih => exact ih.quiet hq
  | leave _ hr hlive ih => exact ih.leave hr hlive

theorem orderly (h : Leaving a b) (ha : Orderly a) : Orderly b := by
  induction h with
  | refl => exact ha
  | quiet _ hq ih => exact ih.quiet hq
  | leave _ hr hlive ih => exact ih.leaveRoom (hr.own ih.named) hlive

theorem keepsChats (h : Leaving a b) (ha : Orderly a) : KeepsChats a b := by
  induction h with
  | refl => exact fun kc hkc hmuc => ⟨kc.2, hkc, hmuc, rfl⟩
  | quiet _ hq ih =>
    intro kc hkc hmuc
    obtain ⟨d, hd, hchat, hfreed⟩ := ih kc hkc hmuc
    obtain ⟨e, he, htag⟩ := Chats.exists_of_tags hq.tags.symm hd
    simp only [Conversation.tag, Tag.mk.injEq] at htag
    exact ⟨e, he, htag.2.2.1.trans hchat, htag.2.2.2.trans hfreed⟩
  | @leave b room h hr hlive ih =>
    intro kc hkc hmuc
    obtain ⟨d, hd, hchat, hfreed⟩ := ih kc hkc hmuc
    have horderly := h.orderly ha
    rcases convs_leaveRoom horderly.sorted (hr.own horderly.named) with hbad | ⟨-, hconvs⟩
    · simp [hlive] at hbad
    · obtain ⟨hreleased, hsame⟩ := Chats.muc_released room d
      refine ⟨Chats.released room d, ?_, hreleased.trans hchat, hsame.trans hfreed⟩
      rw [hconvs]
      refine List.mem_map.mpr ⟨(kc.1, d), List.mem_filter.mpr ⟨hd, ?_⟩, rfl⟩
      obtain ⟨-, e, hfind, hroom⟩ := hr
      -- the entry of the room is a room, so the chat has another key
      have hne : kc.1 ≠ room := by
        intro heq
        obtain ⟨-, rfl⟩ := Prod.mk.inj
          (horderly.sorted.eq_of_key hd (Chats.mem_of_find hfind).1 heq)
        rw [hchat] at hroom
        cases hroom
      simpa using hne

end Leaving

/-! ## The presences that leave rooms -/

section Presences

variable {p : Presence} {j : Jid} {a : Account}

theorem fault_leaveRooms (rooms : List String) {a : Account} (h : a.fault = true) :
    (rooms.foldl (fun a room => a.leaveRoom room) a).fault = true := by
  induction rooms generalizing a with
  | nil => exact h
  | cons room rooms ih => exact ih ((left_leaveRoom room a).of_fault h)

/-- The rooms are left one after the other. -/
theorem leaving_leaveRooms {rooms : List String} {a : Account} (h : Orderly a)
    (hnodup : rooms.Nodup) (hr : ∀ room ∈ rooms, RoomStored room a.convs) :
    (rooms.foldl (fun a room => a.leaveRoom room) a).fault = true ∨
      Leaving a (rooms.foldl (fun a room => a.leaveRoom room) a) := by
  induction rooms generalizing a with
  | nil => exact .inr .refl
  | cons room rooms ih =>
    obtain ⟨hfresh, hrest⟩ := List.nodup_cons.mp hnodup
    have hroom := hr room List.mem_cons_self
    cases hfault : (a.leaveRoom room).fault with
    | true => exact .inl (fault_leaveRooms rooms hfault)
    | false =>
      have hothers : ∀ other ∈ rooms, RoomStored other (a.leaveRoom room).convs := by
        intro other hother
        refine (hr other (List.mem_cons_of_mem room hother)).leaveRoom h hroom ?_ hfault
        rintro rfl
        exact hfresh hother
      refine (ih (h.leaveRoom (hroom.own h.named) hfault) hrest hothers).imp id fun hleaving => ?_
      exact (Leaving.refl.leave hroom hfault).trans hleaving

theorem leaving_leaveContact (h : Orderly a)
    (hr : ∀ room ∈ contactLeft p a, RoomStored room a.convs) :
    (a.leaveContact p).fault = true ∨ Leaving a (a.leaveContact p) := by
  unfold leaveContact
  dsimp only
  split
  · exact .inr .refl
  · rename_i key c hsome
    have hcall := Quiet.call key (fun x c => plain_removeJid (x := x) p.fromJid c) a
    split
    · exact .inr (.of_quiet hcall)
    · rename_i hjids
      split
      · exact .inr (.of_quiet hcall)
      · rename_i hstay
        have hleft : legacyName a.env.toConfig p.toJid ∈ contactLeft p a := by
          have hjids' : (c.toConversation.removeJid p.fromJid).jids = [] := by simpa using hjids
          have hstay' : a.env.stayConnected = false := by simpa [hcall.env] using hstay
          simp [contactLeft, hsome, hjids', hstay']
        have hstored := (hr _ hleft).of_tags h.sorted hcall.tags
        generalize hb : a.call key (fun x c => c.removeJid x p.fromJid) = b at hcall hstored ⊢
        cases hfault : (b.leaveRoom (legacyName a.env.toConfig p.toJid)).fault with
        | true => exact .inl rfl
        | false => exact .inr ((Leaving.of_quiet hcall).leave hstored hfault)

theorem leaving_removeJid (h : Orderly a)
    (hr : ∀ room ∈ deserted j a, RoomStored room a.convs) :
    (a.removeJid j).fault = true ∨ Leaving a (a.removeJid j) := by
  have hall := quiet_callAll_removeJid j a
  unfold removeJid
  dsimp only
  split
  · exact .inr (.of_quiet hall)
  · rename_i hstay
    have hstay' : a.env.stayConnected = false := by simpa [hall.env] using hstay
    have horderly := h.quiet hall
    have hnodup := List.pairwise_reverse.mpr ((nodup_emptyRooms horderly.sorted).imp Ne.symm)
    refine (leaving_leaveRooms horderly hnodup ?_).imp id (Leaving.of_quiet hall).trans
    intro room hroom
    have hdeserted := emptyRooms_sub hstay' (List.mem_reverse.mp hroom)
    exact (hr room hdeserted).of_tags h.sorted hall.tags

theorem leaving_handleTransportPresence (h : Orderly a)
    (hr : ∀ room ∈ deserted p.fromJid a, RoomStored room a.convs) :
    (a.handleTransportPresence p).fault = true ∨ Leaving a (a.handleTransportPresence p) := by
  have hreset := quiet_resetResources a
  have hresources : ∀ (b : Account) (n : Nat), Quiet b { b with resources := n } :=
    fun b n => Quiet.of_eq rfl rfl rfl rfl id
  have hremoved : ∀ (b : Account) (n : Nat), b.fault = true ∨ Leaving a b →
      (changeLegacyPresence { b with resources := n }).fault = true ∨
        Leaving a (changeLegacyPresence { b with resources := n }) := by
    intro b n hb
    have hquiet := (hresources b n).trans (quiet_changeLegacyPresence { b with resources := n })
    exact hb.imp hquiet.fault fun hl => hl.quiet hquiet
  unfold handleTransportPresence
  dsimp only
  refine hremoved _ _ ?_
  split
  · refine (leaving_removeJid (h.quiet hreset) fun room hroom => ?_).imp id
      (Leaving.of_quiet hreset).trans
    exact (hr room (deserted_resetResources hroom)).of_tags h.sorted hreset.tags
  · exact .inr (.of_quiet hreset)

theorem leaving_presenceReceived (h : Orderly a) (hp : (Event.presence p).mayLeave = true)
    (hr : LeavesRooms a (.presence p)) :
    (a.presenceReceived p).fault = true ∨ Leaving a (a.presenceReceived p) := by
  have htype : p.type = .unavailable ∨ p.type = .unsubscribe ∨ p.type = .unsubscribed :=
    of_decide_eq_true hp
  have horacle : ∀ o : Oracle, Quiet a { a with oracle := o } :=
    fun o => Quiet.of_eq rfl rfl rfl rfl id
  unfold presenceReceived
  dsimp only
  by_cases hnode : p.toJid.node = ""
  · simp only [hnode, ne_eq, not_true_eq_false, false_and, if_false]
    split
    · exact .inr (.of_quiet (horacle _))
    · rename_i passed hsome
      obtain ⟨hgone, hto⟩ : passed.type = .unavailable ∧ passed.toJid.node = "" := by
        unfold Oracle.handleIncomingPresence at hsome
        simp only [hnode, ne_eq, not_true_eq_false, if_false] at hsome
        split at hsome
        · cases hsome
        · simp only [Option.some.injEq] at hsome
          subst hsome
          split
          · exact ⟨rfl, rfl⟩
          · rename_i hsub
            exact ⟨htype.resolve_right hsub, hnode⟩
      have hrooms : ∀ room ∈ deserted passed.fromJid a, RoomStored room a.convs := by
        intro room hroom
        refine hr room ?_
        simpa [roomsLeft, hnode, hsome, hgone] using hroom
      generalize hb : { a with oracle := (a.oracle.handleIncomingPresence p).1 } = b
      have hquiet : Quiet a b := hb ▸ horacle _
      have hconvs : b.convs = a.convs := by rw [← hb]
      unfold componentPresence
      split
      · exact .inr (.of_quiet hquiet)
      · have hready := quiet_checkReady passed b
        simp only [hgone, handlePresence, hto, ne_eq, not_true_eq_false, false_and, if_false]
        have horderly := h.quiet (hquiet.trans hready)
        refine (leaving_handleTransportPresence horderly ?_).imp id
          (Leaving.of_quiet (hquiet.trans hready)).trans
        intro room hroom
        have hsame : ((b.checkReady passed).convs) = a.convs := by rw [convs_checkReady, hconvs]
        rw [deserted_congr (hquiet.trans hready).env hsame] at hroom
        rw [hsame]
        exact hrooms room hroom
  · have hskip : a.oracle.handleIncomingPresence p = (a.oracle, none) := by
      simp [Oracle.handleIncomingPresence, hnode]
    rw [hskip]
    split
    · rename_i hdirected
      have hgone : p.type = .unavailable := by
        rcases hdirected.2 with havailable | hgone
        · rw [havailable] at htype
          simp at htype
        · exact hgone
      have hready := quiet_checkReady p a
      have hleave : a.handlePresence p false = (a.checkReady p).leaveContact p := by
        simp [handlePresence, hnode, hgone]
      change (a.handlePresence p false).fault = true ∨ Leaving a (a.handlePresence p false)
      rw [hleave]
      refine (leaving_leaveContact (h.quiet hready) ?_).imp id (Leaving.of_quiet hready).trans
      intro room hroom
      rw [contactLeft_congr hready.env (convs_checkReady p a)] at hroom
      rw [convs_checkReady]
      refine hr room ?_
      simpa [roomsLeft, hnode, hgone] using hroom
    · exact .inr (.of_quiet (horacle _))

end Presences

/-! ## Errors of an occupant -/

theorem fault_settle {key : String} {type : PresenceType} {a : Account} (h : a.fault = true) :
    (a.settle key type).fault = true := by
  have hsubject := Quiet.call key (fun x c => plain_sendSubject (x := x) c) a
  unfold settle
  dsimp only
  split
  · exact (left_leaveRoom _ _).of_fault (hsubject.fault h)
  · exact hsubject.fault h

/-- The conversation does not exist any more. -/
theorem fault_settle_of_none {key : String} {type : PresenceType} {a : Account}
    (h : a.convs.find key = none) : (a.settle key type).fault = true := by
  have hcall : a.call key (fun x c => c.sendSubject x) = a.setFault := by simp [call, h]
  have hnone : a.setFault.convs.find key = none := h
  unfold settle
  dsimp only
  rw [hcall]
  split
  · rename_i hsome
    rw [hnone] at hsome
    cases hsome
  · rfl

/-- The end of a change leaves the room of the key, or nothing. -/
theorem leaving_settle {key : String} {type : PresenceType} {a : Account} (h : Orderly a)
    (hr : RoomStored key a.convs) :
    (a.settle key type).fault = true ∨ Leaving a (a.settle key type) ∧
      (RoomStored key (a.settle key type).convs ∨ (a.settle key type).convs.find key = none) := by
  have hsubject := Quiet.call key (fun x c => plain_sendSubject (x := x) c) a
  have hstored := hr.of_tags h.sorted hsubject.tags
  have horderly := h.quiet hsubject
  unfold settle
  dsimp only
  generalize a.call key (fun x c => c.sendSubject x) = b at hsubject hstored horderly
  split
  · rename_i key' c hfind
    obtain ⟨hmem, hkey⟩ := Chats.mem_of_find hfind
    dsimp only at hkey
    subst hkey
    obtain ⟨-, d, hd, hmuc⟩ := hstored
    rw [hfind] at hd
    cases hd
    have hname : c.legacyName = key' := (horderly.named _ hmem hmuc).1
    rw [hname]
    have hroom : RoomStored key' b.convs := ⟨hr.1, c, hfind, hmuc⟩
    cases hfault : (b.leaveRoom key').fault with
    | true => exact .inl rfl
    | false =>
      exact .inr ⟨(Leaving.of_quiet hsubject).leave hroom hfault,
        .inr (find_leaveRoom horderly (hroom.own horderly.named) hfault)⟩
  · exact .inr ⟨.of_quiet hsubject, .inl hstored⟩

theorem leaving_handleParticipantChangedPayload {p : ParticipantChange} {a : Account}
    (h : Orderly a) (hr : LeavesRooms a (.participant p)) :
    (a.handleParticipantChangedPayload p).fault = true ∨
      Leaving a (a.handleParticipantChangedPayload p) := by
  unfold handleParticipantChangedPayload
  split
  · exact .inr .refl
  · rename_i key c hsome
    have hfind := (Chats.mem_of_getConversation hsome).2
    dsimp only at hfind
    by_cases hexpels : expels p c = true
    · obtain ⟨hne, hmuc⟩ := hr (key, c) (by simp [hsome]) hexpels
      have hannounced := quiet_announce key p a
      have hstored : RoomStored key (a.announce key p).2.convs :=
        RoomStored.of_tags ⟨hne, c, hfind, hmuc⟩ h.sorted hannounced.tags
      have horderly := h.quiet hannounced
      unfold handleParticipantChanged
      dsimp only
      split
      · refine (leaving_settle horderly hstored).imp id fun hsettled => ?_
        exact (Leaving.of_quiet hannounced).trans hsettled.1
      · -- the change under the new name comes first, and may leave the room already
        have hrenamed := quiet_announce key p.renamed (a.announce key p).2
        have hone : ((a.announce key p).2.changeOne key p.renamed).fault = true ∨
            Leaving a ((a.announce key p).2.changeOne key p.renamed) ∧
              (RoomStored key ((a.announce key p).2.changeOne key p.renamed).convs ∨
                ((a.announce key p).2.changeOne key p.renamed).convs.find key = none) := by
          refine (leaving_settle (horderly.quiet hrenamed)
            (hstored.of_tags horderly.sorted hrenamed.tags)).imp id fun hsettled => ?_
          exact ⟨(Leaving.of_quiet (hannounced.trans hrenamed)).trans hsettled.1, hsettled.2⟩
        change (settle key _ ((a.announce key p).2.changeOne key p.renamed)).fault = true ∨
          Leaving a (settle key _ ((a.announce key p).2.changeOne key p.renamed))
        rcases hone with hfault | ⟨hleaving, hagain | hgone⟩
        · exact .inl (fault_settle hfault)
        · refine (leaving_settle (hleaving.orderly h) hagain).imp id fun hsettled => ?_
          exact hleaving.trans hsettled.1
        · exact .inl (fault_settle_of_none hgone)
    · exact .inr (.of_quiet (quiet_handleParticipantChanged hfind hexpels))

/-! ## What is sent -/

theorem leftWasJoined_append {outs log : List Output} (houts : ∀ o ∈ outs, o.isLeft = false)
    (h : LeftWasJoined log) : LeftWasJoined (outs ++ log) := by
  induction outs with
  | nil => exact h
  | cons o outs ih =>
    have hrest := ih fun o' ho' => houts o' (List.mem_cons_of_mem o ho')
    cases o with
    | roomLeft r => cases houts _ List.mem_cons_self
    | _ => exact hrest

theorem Path.leftWasJoined {a b : Account} (h : Path false a b) (ha : LeftWasJoined a.log) :
    LeftWasJoined b.log := by
  induction h with
  | refl => exact ha
  | quiet _ hq ih =>
    obtain ⟨outs, hlog, hleft⟩ := hq.log
    rw [hlog]
    exact leftWasJoined_append hleft ih
  | add _ _ ih => exact ih
  | postpone _ _ ih => exact ih
  | join _ _ ih => exact leftWasJoined_append (by simp [joinedSignal, Output.isLeft]) ih
  | leave _ _ hl _ => cases hl

theorem Path.orderly {a b : Account} (h : Path false a b) (ha : Orderly a) : Orderly b := by
  refine ⟨?_, h.sortedKeys ha.sorted⟩
  induction h with
  | refl => exact ha.named
  | quiet _ hq ih => exact ih.of_tags hq.tags
  | add _ hc ih =>
    intro kc hkc hmuc
    rcases Chats.mem_of_mem_addConversation hkc with rfl | hkc
    · cases hc <;> cases hmuc
    · exact ih kc hkc hmuc
  | postpone _ _ ih => exact ih
  | join _ _ ih =>
    intro kc hkc hmuc
    rcases Chats.mem_of_mem_addConversation hkc with rfl | hkc
    · exact ⟨rfl, rfl⟩
    · exact ih kc hkc hmuc
  | leave _ _ hl _ => cases hl

theorem Leaving.leftWasJoined {a b : Account} (h : Leaving a b) (ha : Orderly a)
    (hannounced : Announced a) (hleft : LeftWasJoined a.log) :
    Announced b ∧ LeftWasJoined b.log := by
  induction h with
  | refl => exact ⟨hannounced, hleft⟩
  | quiet _ hq ih =>
    obtain ⟨outs, hlog, houts⟩ := hq.log
    refine ⟨ih.1.quiet hq, ?_⟩
    rw [hlog]
    exact leftWasJoined_append houts ih.2
  | @leave b room h hr hlive ih =>
    have horderly := h.orderly ha
    refine ⟨(ih.1.leaveRoom room).resolve_left (by simp [hlive]), ?_⟩
    rw [log_leaveRoom]
    refine ⟨?_, ih.2⟩
    rcases convs_leaveRoom horderly.sorted (hr.own horderly.named) with hbad | ⟨hall, -⟩
    · simp [hlive] at hbad
    · obtain ⟨-, c, hfind, hmuc⟩ := hr
      have hmem := (Chats.mem_of_find hfind).1
      have hexists : c.freed = false := by simpa using List.all_eq_true.mp hall _ hmem
      exact ih.1 _ hmem hmuc hexists

/-! ## Every run -/

/-- An event leaves stored rooms, or none. -/
theorem leaving_or_path {a : Account} {e : Event} (h : Orderly a) (hjoined : RoomsJoined a)
    (hr : LeavesRooms a e) (hfault : (e.run a).fault = false) :
    Leaving a (e.run a) ∨ e.mayLeave = false ∧ Path false a (e.run a) := by
  have hpath := path_run hjoined e
  cases hmay : e.mayLeave with
  | false =>
    rw [hmay] at hpath
    exact .inr ⟨rfl, hpath⟩
  | true =>
    left
    cases e with
    | presence p =>
      refine (leaving_presenceReceived h hmay hr).resolve_left fun hbad => ?_
      rw [show (a.presenceReceived p).fault = false from hfault] at hbad
      cases hbad
    | participant p =>
      refine (leaving_handleParticipantChangedPayload h hr).resolve_left fun hbad => ?_
      rw [show (a.handleParticipantChangedPayload p).fault = false from hfault] at hbad
      cases hbad
    | _ => cases hmay

/-- In every run in which only stored rooms are left, a room is left only after it has been
joined, and no presence that takes a resource away removes a chat. -/
theorem onlyRoomsLeft_of_leavesRooms {tr : List (Account × Event)} {a : Account}
    (h : machine.Run tr a) (hr : Machine.Meets LeavesRooms tr) : OnlyRoomsLeft tr a := by
  suffices hall : Orderly a ∧ OnlyRoomsLeft tr a from hall.2
  induction h with
  | init h0 =>
    obtain ⟨x, caps, rfl⟩ := h0
    refine ⟨⟨?_, List.Pairwise.nil⟩, trivial, ?_⟩
    · intro kc hkc
      cases hkc
    · intro b p hmem
      cases hmem
  | @step tr a a' e h hs ih =>
    obtain ⟨hcond, hrest⟩ := Machine.meets_cons.mp hr
    obtain ⟨horderly, honly⟩ := ih hrest
    obtain ⟨-, rfl, hfault⟩ := step_eq hs
    rcases leaving_or_path horderly (roomsJoined h) hcond hfault with hleaving | ⟨hstay, hpath⟩
    · refine ⟨hleaving.orderly horderly,
        (hleaving.leftWasJoined horderly (announced h) honly.joined).2, ?_⟩
      intro b p hmem hmay
      rcases List.mem_cons.mp hmem with heq | hmem
      · obtain ⟨rfl, rfl⟩ := Prod.mk.inj heq
        exact hleaving.keepsChats horderly
      · exact honly.chats b p hmem hmay
    · refine ⟨hpath.orderly horderly, hpath.leftWasJoined honly.joined, ?_⟩
      intro b p hmem hmay
      rcases List.mem_cons.mp hmem with heq | hmem
      · obtain ⟨rfl, rfl⟩ := Prod.mk.inj heq
        rw [hstay] at hmay
        cases hmay
      · exact honly.chats b p hmem hmay

namespace Sample

/-- A presence of the occupant to the contact with whom he has a chat. -/
def goodbye : Presence where
  fromJid := ⟨"bob", "example.org", "home"⟩
  toJid := ⟨"carol", "localhost", ""⟩
  type := .unavailable

end Sample

/-- A room is joined and left beside a chat. -/
theorem onlyRoomsLeft_of_leavesRooms_bob : ∃ tr a, machine.Run tr a ∧
    Machine.Meets LeavesRooms tr ∧ .roomLeft "#room" ∈ a.log ∧ OnlyRoomsLeft tr a := by
  have hexec : ∃ a, (machine.restrict LeavesRooms).exec Sample.occupant
      [.connected, .convMessage { buddyname := "carol", message := "hi" } false,
        .presence (Sample.roomPresence .available), .presence (Sample.roomPresence .unavailable)] =
        some a ∧ .roomLeft "#room" ∈ a.log := ⟨_, by rfl, List.mem_cons_self⟩
  obtain ⟨a, ha, hleft⟩ := hexec
  have hinit : machine.init Sample.occupant := ⟨_, _, rfl⟩
  obtain ⟨tr, hrun, hmeets⟩ := Machine.exists_run_of_restrict hinit ha
  exact ⟨tr, a, hrun, hmeets, hleft, onlyRoomsLeft_of_leavesRooms hrun hmeets⟩

/-- An unavailable presence to a contact leaves a room that was never joined, and takes the chat
away. -/
theorem not_onlyRoomsLeft_of_chat :
    ¬ ∀ (tr : List (Account × Event)) (a : Account), machine.Run tr a → OnlyRoomsLeft tr a := by
  intro hall
  have hexec : ∃ a a', machine.exec Sample.occupant
      [.connected, .convMessage { buddyname := "carol", message := "hi" } false] = some a ∧
      step a (.presence Sample.goodbye) = some a' ∧
      ∃ log, a'.log = .roomLeft "carol" :: log ∧ JoinedSince "carol" log = false :=
    ⟨_, _, by rfl, by rfl, _, by rfl, by rfl⟩
  obtain ⟨a, a', ha, hs, log, hlog, hnever⟩ := hexec
  have hinit : machine.init Sample.occupant := ⟨_, _, rfl⟩
  obtain ⟨tr, hrun, -⟩ := Machine.exists_run_of_exec hinit ha
  have hjoined := (hall _ a' (hrun.step hs)).joined
  rw [hlog] at hjoined
  have hsince : JoinedSince "carol" log = true := hjoined.1
  rw [hnever] at hsince
  cases hsince

end Spectrum.Account
