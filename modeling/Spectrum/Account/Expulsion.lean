import Spectrum.Account.Keys

/-!
# Errors of the user in a room

An error presence of the user himself ends his stay in a room: `handleParticipantChanged` calls
`User::leaveRoom`, which deletes the conversation whose method is running. `Traced` records what the
method does with that conversation. A change of a nickname runs the method for the new name before it
goes on with the old one.
-/

namespace Spectrum.Account

/-- What `handleParticipantChanged` does with its conversation. -/
inductive Access
  | generatePresence | participants | jids | initialSubject | legacyName | leaveRoom
  deriving DecidableEq, Repr

/-- An account with the accesses to the conversation, oldest first. -/
structure Traced where
  account : Account
  trace : List Access

/-- The accesses up to the loop over the JIDs. -/
def touched : List Access := [.generatePresence, .participants, .jids]

/-- The accesses behind it, for the type of the presence. -/
def pass (type : PresenceType) : List Access :=
  .initialSubject :: if type = .error then [.legacyName, .leaveRoom] else []

namespace Traced

def announce (key : String) (p : ParticipantChange) (t : Traced) : PresenceType × Traced :=
  ((t.account.announce key p).1,
    { account := (t.account.announce key p).2, trace := t.trace ++ touched })

def settle (key : String) (type : PresenceType) (t : Traced) : Traced where
  account := t.account.settle key type
  trace := t.trace ++ pass type

def handleParticipantChanged (key : String) (p : ParticipantChange) (t : Traced) : Traced :=
  let r := t.announce key p
  let t :=
    if p.newname = "" then r.2
    else
      let r' := r.2.announce key p.renamed
      r'.2.settle key r'.1
  t.settle key r.1

end Traced

/-- The accesses of `handleParticipantChanged`. -/
def accesses (key : String) (p : ParticipantChange) (a : Account) : List Access :=
  (Traced.handleParticipantChanged key p ⟨a, []⟩).trace

/-- The room is left once at most, and nothing follows. -/
def LeavesLast (trace : List Access) : Prop :=
  trace.count .leaveRoom ≤ 1 ∧ ∀ before after, trace = before ++ .leaveRoom :: after → after = []

/-- The accesses belong to the method of the model. -/
theorem account_handleParticipantChanged (key : String) (p : ParticipantChange) (a : Account) :
    (Traced.handleParticipantChanged key p ⟨a, []⟩).account = a.handleParticipantChanged key p := by
  unfold Traced.handleParticipantChanged Account.handleParticipantChanged
  dsimp only
  split
  · rfl
  · rfl

section Traces

theorem not_mem_pass {type : PresenceType} (h : type ≠ .error) : Access.leaveRoom ∉ pass type := by
  rw [pass, if_neg h]
  decide

theorem leavesLast_append {trace : List Access} (h : Access.leaveRoom ∉ trace) (type : PresenceType) :
    LeavesLast (trace ++ pass type) := by
  by_cases htype : type = .error
  · have hsplit : trace ++ pass type = (trace ++ [.initialSubject, .legacyName]) ++ [.leaveRoom] := by
      rw [pass, if_pos htype, List.append_assoc]
      rfl
    have hbefore : Access.leaveRoom ∉ trace ++ [.initialSubject, .legacyName] := by
      simp [h]
    rw [hsplit]
    refine ⟨?_, fun before after heq => ?_⟩
    · rw [List.count_append, List.count_eq_zero_of_not_mem hbefore]
      decide
    · by_contra hne
      obtain ⟨after', a, rfl⟩ := List.eq_nil_or_concat' after |>.resolve_left hne
      rw [← List.cons_append, ← List.append_assoc] at heq
      obtain ⟨heq, -⟩ := List.append_inj' heq rfl
      rw [heq] at hbefore
      exact hbefore (List.mem_append_right _ List.mem_cons_self)
  · have hnone : Access.leaveRoom ∉ trace ++ pass type := by
      simp [h, not_mem_pass htype]
    refine ⟨?_, fun before after heq => ?_⟩
    · rw [List.count_eq_zero_of_not_mem hnone]
      decide
    · rw [heq] at hnone
      exact absurd (List.mem_append_right _ List.mem_cons_self) hnone

theorem not_leavesLast_append {trace : List Access} (h : Access.leaveRoom ∈ trace)
    (type : PresenceType) : ¬ LeavesLast (trace ++ pass type) := by
  intro hlast
  obtain ⟨before, after, rfl⟩ := List.append_of_mem h
  have hnil := hlast.2 before (after ++ pass type) (by rw [List.append_assoc]; rfl)
  exact absurd (List.append_eq_nil_iff.mp hnil).2 (List.cons_ne_nil _ _)

end Traces

/-- The type of the presence under the new name, if there is one. -/
def innerType (key : String) (p : ParticipantChange) (a : Account) : PresenceType :=
  ((a.announce key p).2.announce key p.renamed).1

theorem accesses_eq (key : String) (p : ParticipantChange) (a : Account) :
    accesses key p a =
      (if p.newname = "" then touched else touched ++ touched ++ pass (innerType key p a)) ++
        pass (a.announce key p).1 := by
  unfold accesses Traced.handleParticipantChanged
  dsimp only
  split
  · rfl
  · rfl

theorem leavesLast_accesses_iff (key : String) (p : ParticipantChange) (a : Account) :
    LeavesLast (accesses key p a) ↔ ¬ (p.newname ≠ "" ∧ innerType key p a = .error) := by
  rw [accesses_eq]
  by_cases hnewname : p.newname = ""
  · rw [if_pos hnewname]
    refine ⟨fun _ h => h.1 hnewname, fun _ => leavesLast_append ?_ _⟩
    decide
  · rw [if_neg hnewname]
    by_cases herror : innerType key p a = .error
    · refine ⟨fun h => absurd h (not_leavesLast_append ?_ _), fun h => absurd ⟨hnewname, herror⟩ h⟩
      rw [herror]
      decide
    · refine ⟨fun _ h => herror h.2, fun _ => leavesLast_append ?_ _⟩
      rw [List.mem_append]
      exact not_or.mpr ⟨by decide, not_mem_pass herror⟩

section Live

variable {key : String} {a : Account} {c : Conversation} {p : ParticipantChange}

/-- A call of an object that exists. -/
theorem call_of_live (f : Context → Conversation → Conversation × List Output)
    (hfind : a.convs.find key = some (key, c)) (hlive : c.freed = false) :
    (a.call key f).convs.find key = some (key, (f a.toContext c).1) ∧
      (a.call key f).fault = a.fault := by
  rw [call_of_find f hfind hlive]
  refine ⟨?_, rfl⟩
  change (a.convs.update key fun c => (f a.toContext c).1).find key = _
  rw [Chats.find_update, hfind]
  rfl

theorem announce_of_live (hfind : a.convs.find key = some (key, c)) (hlive : c.freed = false) :
    (∃ d, (a.announce key p).2.convs.find key = some (key, d) ∧ d.nickname = c.nickname ∧
      d.freed = false) ∧ (a.announce key p).2.fault = a.fault := by
  unfold Account.announce
  simp only [hfind]
  obtain ⟨hafter, hfault⟩ := call_of_live (fun x (c : Conversation) =>
    (c.changeParticipant x p.nickname p.flag p.status p.statusMessage p.newname p.iconHash
      p.nickAlias).2) hfind hlive
  refine ⟨⟨_, hafter, nickname_generatePresence .., ?_⟩, hfault⟩
  have htag := (plain_changeParticipant (x := a.toContext) p.nickname p.flag p.status p.statusMessage
    p.newname p.iconHash p.nickAlias c).tag
  exact (congrArg Tag.freed htag).trans hlive

theorem type_generatePresence {x : Context} {nickname : String} {flag : BitVec 32}
    {status : StatusType} {statusMessage newname iconhash : String} {c : Conversation}
    (hown : c.nickname = nickname)
    (herror : (Conversation.roomError flag statusMessage).isSome = true) :
    (c.generatePresence x nickname flag status statusMessage newname iconhash).1.type = .error := by
  obtain ⟨e, he⟩ := Option.isSome_iff_exists.mp herror
  unfold Conversation.generatePresence
  simp only [hown, decide_true, if_true, he]

/-- The presence is an error exactly for an error flag of the user himself. -/
theorem announce_eq_error_iff (hfind : a.convs.find key = some (key, c)) :
    (a.announce key p).1 = .error ↔
      c.nickname = (if p.nickAlias = "" then p.nickname else p.nickAlias) ∧
        (Conversation.roomError p.flag p.statusMessage).isSome = true := by
  unfold Account.announce
  simp only [hfind]
  constructor
  · exact error_of_generatePresence
  · rintro ⟨hown, herror⟩
    exact type_generatePresence hown herror

theorem innerType_eq_error_iff (hfind : a.convs.find key = some (key, c)) (hlive : c.freed = false) :
    innerType key p a = .error ↔
      c.nickname = p.newname ∧ (Conversation.roomError p.flag p.statusMessage).isSome = true := by
  obtain ⟨⟨d, hafter, hnickname, -⟩, -⟩ := announce_of_live (p := p) hfind hlive
  rw [innerType, announce_eq_error_iff hafter, hnickname]
  rfl

theorem allLive_of_tags {cs cs' : Chats} (h : cs'.tags = cs.tags) : cs'.allLive = cs.allLive := by
  have hall : ∀ cs : Chats, cs.allLive = cs.tags.all fun kt => !kt.2.freed := by
    intro cs
    rw [Chats.allLive, Chats.tags, List.all_map]
    rfl
  rw [hall, hall, h]

theorem fault_leaveRoom (hall : a.convs.allLive = true) (room : String) :
    (a.leaveRoom room).fault = a.fault := by
  unfold leaveRoom
  dsimp only [emit]
  split
  · rfl
  · rw [if_pos hall]

/-- Nothing that has been deleted is used at the end of a change. -/
theorem fault_settle_of_live (hfind : a.convs.find key = some (key, c)) (hlive : c.freed = false)
    (hall : a.convs.allLive = true) (type : PresenceType) :
    (a.settle key type).fault = a.fault := by
  have htags := (Quiet.call key (fun x c => plain_sendSubject (x := x) c) a).tags
  obtain ⟨-, hfault⟩ := call_of_live (fun x (c : Conversation) => c.sendSubject x) hfind hlive
  rw [← hfault]
  unfold Account.settle
  dsimp only
  split
  · exact fault_leaveRoom ((allLive_of_tags htags).trans hall) _
  · rfl

theorem settle_of_ne_error (key : String) {type : PresenceType} (h : type ≠ .error) (a : Account) :
    a.settle key type = a.call key fun x c => c.sendSubject x := by
  unfold Account.settle
  dsimp only
  split
  · exact absurd rfl h
  · rfl

theorem fault_handleParticipantChanged (hfind : a.convs.find key = some (key, c))
    (hlive : c.freed = false) (hall : a.convs.allLive = true)
    (hinner : ¬ (p.newname ≠ "" ∧ innerType key p a = .error)) :
    (a.handleParticipantChanged key p).fault = a.fault := by
  obtain ⟨⟨d, hafter, -, hd⟩, hfault⟩ := announce_of_live (p := p) hfind hlive
  have hall₁ := (allLive_of_tags (quiet_announce key p a).tags).trans hall
  unfold Account.handleParticipantChanged
  dsimp only
  split
  · exact (fault_settle_of_live hafter hd hall₁ _).trans hfault
  · rename_i hnewname
    -- the change under the new name leaves nothing, so the conversation is there
    have htype : innerType key p a ≠ .error := fun h => hinner ⟨hnewname, h⟩
    obtain ⟨⟨e, hafter', -, he⟩, hfault'⟩ := announce_of_live (p := p.renamed) hafter hd
    have hall' := (allLive_of_tags (quiet_announce key p.renamed _).tags).trans hall₁
    obtain ⟨hfind', hfault''⟩ := call_of_live (fun x (c : Conversation) => c.sendSubject x) hafter' he
    rw [← settle_of_ne_error key htype] at hfind' hfault''
    have htag := (plain_sendSubject (x := ((a.announce key p).2.announce key p.renamed).2.toContext) e).tag
    have hlast := (congrArg Tag.freed htag).trans he
    have hquiet : Quiet ((a.announce key p).2.announce key p.renamed).2
        (((a.announce key p).2.announce key p.renamed).2.settle key (innerType key p a)) :=
      quiet_settle htype _
    have hall'' := (allLive_of_tags hquiet.tags).trans hall'
    exact (fault_settle_of_live hfind' hlast hall'' _).trans
      (hfault''.trans (hfault'.trans hfault))

end Live

/-- `leaveRoom` is the last access to the conversation exactly if the new name of an error is not the
nickname of the user. Then no object is used that has been deleted. -/
theorem leavesLast_iff (key : String) (p : ParticipantChange) (a : Account) (c : Conversation)
    (hfind : a.convs.find key = some (key, c)) (hlive : c.freed = false) :
    (LeavesLast (accesses key p a) ↔
      ¬ (p.newname ≠ "" ∧ p.newname = c.nickname ∧
        (Conversation.roomError p.flag p.statusMessage).isSome = true)) ∧
      (LeavesLast (accesses key p a) → a.convs.allLive = true →
        (a.handleParticipantChanged key p).fault = a.fault) := by
  rw [leavesLast_accesses_iff]
  refine ⟨?_, fun hinner hall => fault_handleParticipantChanged hfind hlive hall hinner⟩
  rw [innerType_eq_error_iff hfind hlive, eq_comm (a := c.nickname)]

namespace Sample

/-- A conflict that is reported for a change to a nickname. -/
def conflict (newname : String) : ParticipantChange where
  room := "#room"
  nickname := "robert"
  flag := 2
  status := .ofShow .online
  newname := newname

end Sample

/-- Another occupant takes a new name. -/
theorem leavesLast_iff_other : ∃ a c, machine.exec Sample.occupant
      [.connected, .presence (Sample.roomPresence .available)] = some a ∧
    a.convs.find "#room" = some ("#room", c) ∧
    LeavesLast (accesses "#room" (Sample.conflict "carol") a) := by
  have hexec : ∃ a c, machine.exec Sample.occupant
      [.connected, .presence (Sample.roomPresence .available)] = some a ∧
      a.convs.find "#room" = some ("#room", c) ∧ c.freed = false ∧ c.nickname = "bob" :=
    ⟨_, _, by rfl, by rfl, by rfl, by rfl⟩
  obtain ⟨a, c, ha, hfind, hlive, hnickname⟩ := hexec
  refine ⟨a, c, ha, hfind, (leavesLast_iff "#room" _ a c hfind hlive).1.mpr ?_⟩
  rw [hnickname]
  rintro ⟨-, hname, -⟩
  exact absurd hname (by decide)

/-- The new name is the nickname of the user: the room is left, and the conversation is used again. -/
theorem not_leavesLast_own : ∃ a c, machine.exec Sample.occupant
      [.connected, .presence (Sample.roomPresence .available)] = some a ∧
    a.convs.find "#room" = some ("#room", c) ∧ c.freed = false ∧
    ¬ LeavesLast (accesses "#room" (Sample.conflict "bob") a) ∧
    (a.handleParticipantChanged "#room" (Sample.conflict "bob")).fault = true := by
  have hexec : ∃ a c, machine.exec Sample.occupant
      [.connected, .presence (Sample.roomPresence .available)] = some a ∧
      a.convs.find "#room" = some ("#room", c) ∧ c.freed = false ∧
      accesses "#room" (Sample.conflict "bob") a =
        touched ++ touched ++ pass .error ++ pass .available ∧
      (a.handleParticipantChanged "#room" (Sample.conflict "bob")).fault = true :=
    ⟨_, _, by rfl, by rfl, by rfl, by rfl, by rfl⟩
  obtain ⟨a, c, ha, hfind, hlive, haccesses, hfault⟩ := hexec
  refine ⟨a, c, ha, hfind, hlive, ?_, hfault⟩
  rw [haccesses]
  exact not_leavesLast_append (by decide) _

end Spectrum.Account
