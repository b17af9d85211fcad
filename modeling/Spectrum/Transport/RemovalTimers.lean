import Spectrum.Transport.Answers
import Spectrum.Transport.Password

/-!
# The removal timers

The two timers through which logins and users are removed, and the result: in every run whose steps
all are careful, every pending login can be answered.
-/

namespace Spectrum

open World NetworkPluginServer

/-! ## The timer of the registry -/

/-- A tick answers logins and changes nothing else of the desk. -/
theorem registryTick_rest (w : World) :
    (UserRegistry.removeTick w).users = w.users ∧ (UserRegistry.removeTick w).cfg = w.cfg ∧
      (UserRegistry.removeTick w).nextUser = w.nextUser ∧
      (UserRegistry.removeTick w).removeSlots = w.removeSlots ∧
      (UserRegistry.removeTick w).removeTimer = w.removeTimer := by
  have hone : ∀ (user : Jid) (w : World),
      { UserRegistry.handleRemoveTimeout user w with
        registry := w.registry, inRemoveLater := w.inRemoveLater }.desk = w.desk := by
    intro user w
    unfold UserRegistry.handleRemoveTimeout UserRegistry.onPasswordInvalid
    split
    · rfl
    · have hcall := fun e : Sess => desk_callSession { w with inRemoveLater := true } e.session
        (Session.handlePasswordInvalid "")
      exact congrArg (fun d : Desk => { d with registry := w.registry }) (hcall _)
  have hloop : ∀ (users : List Jid) (w : World),
      { users.foldl (fun w user => UserRegistry.handleRemoveTimeout user w) w with
        registry := w.registry, inRemoveLater := w.inRemoveLater }.desk = w.desk := by
    intro users
    induction users with
    | nil => exact fun _ => rfl
    | cons user users ih =>
      intro w
      have hrest := ih (UserRegistry.handleRemoveTimeout user w)
      exact (congrArg (fun d : Desk => { d with registry := w.registry }) hrest).trans (hone user w)
  have hdesk := hloop w.registrySlots { w with registryTimer := false }
  exact ⟨congrArg Desk.users hdesk, congrArg Desk.cfg hdesk, congrArg Desk.nextUser hdesk,
    congrArg Desk.removeSlots hdesk, congrArg Desk.removeTimer hdesk⟩

theorem attended_registryTick {w : World} (h : Attended w) :
    Attended (UserRegistry.removeTick w) := by
  obtain ⟨husers, hcfg, hnext, hslots, htimer⟩ := registryTick_rest w
  have hregistry : (UserRegistry.removeTick w).registry = w.userRegistry.tick.1.users :=
    congrArg Registry.users (UserRegistry.userRegistry_removeTick w)
  have hfewer : ∀ j, (UserRegistry.removeTick w).registry j ≠ none → w.registry j ≠ none := by
    intro j hpending
    rw [hregistry] at hpending
    obtain ⟨e, he⟩ := Option.ne_none_iff_exists'.mp hpending
    have hold : w.registry j = some e := Registry.fewer_runSlots _ _ j e he
    rw [hold]
    exact Option.some_ne_none e
  refine ⟨⟨?_, ?_, ?_⟩, fun j hpending => ?_⟩
  · rw [husers, hnext]
    exact h.sound.users
  · rw [hslots, hnext]
    exact h.sound.slots
  · rw [hcfg]
    exact fun j hj => h.sound.logins j (hfewer j hj)
  · rcases h.resolvable j (hfewer j hpending) with hsome | ⟨-, user, hmem, rfl⟩ | hrecalled
    · rw [husers]
      exact .inl hsome
    · -- the slot has just rejected the login
      have hnone : (UserRegistry.removeTick w).registry user.toBare = none := by
        rw [hregistry]
        exact Registry.users_runSlots hmem _
      exact absurd hnone hpending
    · refine .inr (.inr ?_)
      unfold Recalled
      rw [hslots, htimer]
      exact hrecalled

/-! ## The timer of the removals -/

section Ticks

variable {w : World}

/-- What the run of one slot can change. -/
structure Serves (slot : RemoveSlot) (w w' : World) : Prop where
  cfg : w'.cfg = w.cfg
  users : ∀ j, j ≠ slot.jid → w'.users j = w.users j
  answered : ∀ j, w.registry j = none → w'.registry j = none
  stored : ∀ j, j ≠ slot.jid → UserManager.stored j w' = UserManager.stored j w
  removeSlots : ∀ s ∈ w.removeSlots, s ≠ slot → s ∈ w'.removeSlots
  dismissed : ∀ j, Dismissed j w → Dismissed j w'
  nextUser : w.nextUser ≤ w'.nextUser
  sound : Sound w → Sound w'

theorem serves_dropSlot (slot : RemoveSlot) : Serves slot w (UserManager.dropSlot slot w) where
  cfg := rfl
  users := fun _ _ => rfl
  answered := fun _ h => h
  stored := fun _ _ => rfl
  removeSlots := fun _ hs hne => List.mem_filter.mpr ⟨hs, decide_eq_true hne⟩
  dismissed := fun _ h => h
  nextUser := le_refl _
  sound := fun h => ⟨h.users, fun s hs => h.slots s (List.mem_filter.mp hs).1, h.logins⟩

/-- The user the slot was armed for is removed. -/
theorem serves_removeUser {slot : RemoveSlot} {u : UserId} {w₁ : World}
    (h : Serves slot w w₁) (hjid : (w₁.user u).jid.toBare = slot.jid) :
    Serves slot w (UserManager.removeUser u w₁) := by
  have herases := erases_removeUser u w₁
  have hdesk := desk_removeUser u w₁
  have hstorage : (UserManager.removeUser u w₁).storage = w₁.storage :=
    (congrArg Desk.storage hdesk :)
  refine ⟨(congrArg Desk.cfg hdesk :).trans h.cfg, fun j hj => ?_, fun j hj => ?_, fun j hj => ?_,
    fun s hs hne => ?_, fun j hj => herases.dismissed.mpr (h.dismissed j hj), ?_,
    fun hs => sound_removeUser (h.sound hs) u⟩
  · rw [users_removeUser, hjid, Function.update_of_ne hj]
    exact h.users j hj
  · rw [herases.registry]
    exact h.answered j hj
  · rw [← h.stored j hj]
    exact stored_congr hstorage j
  · rw [show (UserManager.removeUser u w₁).removeSlots = w₁.removeSlots from
      congrArg Desk.removeSlots hdesk]
    exact h.removeSlots s hs hne
  · rw [show (UserManager.removeUser u w₁).nextUser = w₁.nextUser from
      congrArg Desk.nextUser hdesk]
    exact h.nextUser

theorem Serves.touches {slot : RemoveSlot} {w₁ w' : World} (h : Serves slot w w₁)
    (ht : Touches slot.jid w₁ w') : Serves slot w w' where
  cfg := ht.cfg.trans h.cfg
  users := fun j hj => (ht.users j hj).trans (h.users j hj)
  answered := fun j hj => ht.registry_none (h.answered j hj)
  stored := fun j hj => (ht.stored j hj).trans (h.stored j hj)
  removeSlots := fun s hs hne => ht.removeSlots (h.removeSlots s hs hne)
  dismissed := fun j hj => (h.dismissed j hj).touches ht
  nextUser := le_trans h.nextUser ht.nextUser
  sound := fun hs => ht.sound (h.sound hs)

/-- A slot finds another user or none, or removes the user it was armed for. A reconnect then
connects him again. -/
theorem handleRemoveTimeout_cases (hlink : Link none none w) (slot : RemoveSlot) :
    (w.users slot.jid ≠ some slot.user ∧
      UserManager.handleRemoveTimeout slot w = UserManager.dropSlot slot w) ∨
    w.users slot.jid = some slot.user ∧
      ∃ w₁, Serves slot w w₁ ∧ w₁.users slot.jid = none ∧ w₁.nextUser = w.nextUser ∧
        w₁.storage = w.storage ∧ w₁.registry = w.registry ∧
        UserManager.handleRemoveTimeout slot w = if slot.reconnect then
          presenceReceived { fromJid := slot.jid, toJid := w₁.cfg.jid, type := .available } w₁
        else w₁ := by
  by_cases hu : w.users slot.jid = some slot.user
  · obtain ⟨hjid, hbare, -⟩ := hlink.keys slot.jid slot.user hu
    have hkey : ((UserManager.dropSlot slot w).user slot.user).jid.toBare = slot.jid := by
      show (w.user slot.user).jid.toBare = slot.jid
      rw [hjid, hbare]
    have hdesk := desk_removeUser slot.user (UserManager.dropSlot slot w)
    have hnone : (UserManager.removeUser slot.user (UserManager.dropSlot slot w)).users slot.jid =
        none := by
      rw [users_removeUser, hkey, Function.update_self]
    refine .inr ⟨hu, _, serves_removeUser (serves_dropSlot slot) hkey, hnone,
      (congrArg Desk.nextUser hdesk :), (congrArg Desk.storage hdesk :),
      (congrArg Desk.registry hdesk :), ?_⟩
    unfold UserManager.handleRemoveTimeout
    dsimp only
    rw [if_neg (not_not.mpr (show (UserManager.dropSlot slot w).users slot.jid = some slot.user
      from hu))]
    unfold UserManager.connectUser
    rw [hbare, hnone]
  · refine .inl ⟨hu, ?_⟩
    exact if_pos hu

theorem serves_handleRemoveTimeout (hlink : Link none none w) (slot : RemoveSlot) :
    Serves slot w (UserManager.handleRemoveTimeout slot w) := by
  rcases handleRemoveTimeout_cases hlink slot with ⟨-, heq⟩ | ⟨hu, w₁, hserves, -, -, -, -, heq⟩
  · rw [heq]
    exact serves_dropSlot slot
  · rw [heq]
    split
    · have ht := touches_presenceReceived (w := w₁)
        { fromJid := slot.jid, toJid := w₁.cfg.jid, type := .available }
      rw [show ({ fromJid := slot.jid, toJid := w₁.cfg.jid, type := .available } :
        Presence).fromJid.toBare = slot.jid from (hlink.keys slot.jid slot.user hu).2.1] at ht
      exact hserves.touches ht
    · exact hserves

/-- While the slots `l` are still to run: the login is answered or will be rejected, or its user is
there and the first of the slots that finds him connects him again. -/
def Safe (j : Jid) (l : List RemoveSlot) (w : World) : Prop :=
  w.registry j = none ∨ Dismissed j w ∨ ∃ u, w.users j = some u ∧
    (∀ slot ∈ l, slot.jid = j → slot.user = u → slot ∈ w.removeSlots) ∧
    ∀ slot, l.find? (fun slot => decide (slot.jid = j ∧ slot.user = u)) = some slot →
      slot.reconnect = true ∧ Admits j w

variable {j : Jid} {slot : RemoveSlot} {l : List RemoveSlot}

/-- A slot that does not find the user of the JID. -/
theorem Safe.pass {u : UserId} {w' : World} (hother : ¬ (slot.jid = j ∧ slot.user = u))
    (hmem : ∀ s ∈ slot :: l, s.jid = j → s.user = u → s ∈ w.removeSlots)
    (hfind : ∀ s, (slot :: l).find? (fun s => decide (s.jid = j ∧ s.user = u)) = some s →
      s.reconnect = true ∧ Admits j w)
    (husers : w'.users j = some u)
    (hslots : ∀ s ∈ w.removeSlots, s.jid = j → s.user = u → s ∈ w'.removeSlots)
    (hadmits : Admits j w → Admits j w') : Safe j l w' := by
  refine .inr (.inr ⟨u, husers, fun s hs hjid huser => ?_, fun s hs => ?_⟩)
  · exact hslots s (hmem s (List.mem_cons_of_mem slot hs) hjid huser) hjid huser
  · obtain ⟨hreconnect, ha⟩ := hfind s (by rwa [List.find?_cons_of_neg (by simpa using hother)])
    exact ⟨hreconnect, hadmits ha⟩

/-- The slot of a reconnect connects the user again, under a new number. -/
theorem safe_reconnect (hlink : Link none none w) (hsound : Sound w)
    (hmode : w.cfg.serverMode = true) (hl : ∀ s ∈ l, s.user < w.nextUser)
    (hu : w.users slot.jid = some slot.user) (hreconnect : slot.reconnect = true)
    (hadmits : Admits slot.jid w) :
    Safe slot.jid l (UserManager.handleRemoveTimeout slot w) := by
  rcases handleRemoveTimeout_cases hlink slot with
    ⟨hother, -⟩ | ⟨-, w₁, hserves, hfree, hnext, hstorage, hregistry, heq⟩
  · exact absurd hu hother
  · have hbare : slot.jid.toBare = slot.jid := (hlink.keys slot.jid slot.user hu).2.1
    have ht := touches_presenceReceived (w := w₁)
      { fromJid := slot.jid, toJid := w₁.cfg.jid, type := .available }
    have hresolved : w.registry slot.jid ≠ none → Resolved slot.jid.toBare
        (presenceReceived { fromJid := slot.jid, toJid := w₁.cfg.jid, type := .available } w₁) := by
      intro hpending
      refine resolved_presenceReceived (w := w₁)
        (p := { fromJid := slot.jid, toJid := w₁.cfg.jid, type := .available }) ?_ ?_ rfl rfl ?_
      · rw [hserves.cfg]
        exact hmode
      · show slot.jid.toBare ∉ w₁.cfg.adminJids
        rw [hserves.cfg, hbare]
        exact hsound.logins slot.jid hpending
      · exact hadmits.congr hserves.cfg (stored_congr hstorage _)
    rw [heq, if_pos hreconnect]
    dsimp only at ht
    rw [hbare] at ht hresolved
    by_cases hpending : w.registry slot.jid = none
    · refine .inl (ht.registry_none ?_)
      rw [hregistry]
      exact hpending
    · rcases hresolved hpending with hanswered | hsome
      · exact .inl hanswered
      · obtain ⟨v, hv⟩ := Option.ne_none_iff_exists'.mp hsome
        have hnew : ∀ s ∈ l, s.user ≠ v := by
          intro s hs
          have hfresh : w₁.nextUser ≤ v := ht.fresh hfree v hv
          have hold : s.user < w.nextUser := hl s hs
          rw [hnext] at hfresh
          exact Nat.ne_of_lt (Nat.lt_of_lt_of_le hold hfresh)
        refine .inr (.inr ⟨v, hv, fun s hs _ huser => absurd huser (hnew s hs), fun s hs => ?_⟩)
        have huser : s.jid = slot.jid ∧ s.user = v := by simpa using List.find?_some hs
        exact absurd huser.2 (hnew s (List.mem_of_find?_eq_some hs))

theorem safe_run (hlink : Link none none w) (hsound : Sound w)
    (hmode : w.cfg.serverMode = true) (hl : ∀ s ∈ l, s.user < w.nextUser)
    (h : Safe j (slot :: l) w) :
    Safe j l (if slot ∈ w.removeSlots then UserManager.handleRemoveTimeout slot w else w) := by
  have hserves := serves_handleRemoveTimeout hlink slot
  rcases h with hnone | hdismissed | ⟨u, hu, hmem, hfind⟩
  · split
    · exact .inl (hserves.answered j hnone)
    · exact .inl hnone
  · split
    · exact .inr (.inl (hserves.dismissed j hdismissed))
    · exact .inr (.inl hdismissed)
  · by_cases hfound : slot.jid = j ∧ slot.user = u
    · obtain ⟨rfl, rfl⟩ := hfound
      obtain ⟨hreconnect, hadmits⟩ := hfind slot (by simp)
      rw [if_pos (hmem slot List.mem_cons_self rfl rfl)]
      exact safe_reconnect hlink hsound hmode hl hu hreconnect hadmits
    · split
      · by_cases hjid : slot.jid = j
        · -- the slot was armed for an earlier user of the JID
          have huser : w.users slot.jid ≠ some slot.user := by
            rw [hjid, hu]
            exact fun heq => hfound ⟨hjid, (Option.some.inj heq).symm⟩
          rcases handleRemoveTimeout_cases hlink slot with ⟨-, heq⟩ | ⟨hlive, -⟩
          · refine Safe.pass hfound hmem hfind (heq ▸ hu) (fun s hs _ huser' => ?_) ?_
            · refine hserves.removeSlots s hs ?_
              rintro rfl
              exact hfound ⟨hjid, huser'⟩
            · rw [heq]
              exact id
          · exact absurd hlive huser
        · have hne : j ≠ slot.jid := fun heq => hjid heq.symm
          refine Safe.pass hfound hmem hfind ((hserves.users j hne).trans hu)
            (fun s hs hsjid _ => ?_) fun hadmits => ?_
          · refine hserves.removeSlots s hs ?_
            rintro rfl
            exact hjid hsjid
          · have hbare := (hlink.keys j u hu).2.1
            exact hadmits.congr hserves.cfg (by rw [hbare, hserves.stored j hne])
      · exact Safe.pass hfound hmem hfind hu (fun _ hs _ _ => hs) id

/-- All slots have run. -/
theorem safe_runAll (hlink : Link none none w) (hsound : Sound w)
    (hmode : w.cfg.serverMode = true) (hl : ∀ s ∈ l, s.user < w.nextUser) :
    Sound (l.foldl (fun w slot =>
        if slot ∈ w.removeSlots then UserManager.handleRemoveTimeout slot w else w) w) ∧
      ∀ j, Safe j l w → Safe j [] (l.foldl (fun w slot =>
        if slot ∈ w.removeSlots then UserManager.handleRemoveTimeout slot w else w) w) := by
  induction l generalizing w with
  | nil => exact ⟨hsound, fun _ h => h⟩
  | cons slot l ih =>
    have hserves := serves_handleRemoveTimeout hlink slot
    have hrest : ∀ s ∈ l, s.user < w.nextUser := fun s hs => hl s (List.mem_cons_of_mem slot hs)
    have hsafe : ∀ j, Safe j (slot :: l) w → Safe j l
        (if slot ∈ w.removeSlots then UserManager.handleRemoveTimeout slot w else w) :=
      fun j => safe_run hlink hsound hmode hrest
    rw [List.foldl_cons]
    by_cases hmem : slot ∈ w.removeSlots
    · simp only [if_pos hmem] at hsafe ⊢
      have htalk : Talk False w (UserManager.handleRemoveTimeout slot w) :=
        talk_handleRemoveTimeout w slot
      have hlink' := hlink.front htalk.front
      obtain ⟨hs, hall⟩ := ih hlink' (hserves.sound hsound) (by rw [hserves.cfg]; exact hmode)
        fun s hs => Nat.lt_of_lt_of_le (hrest s hs) hserves.nextUser
      exact ⟨hs, fun j h => hall j (hsafe j h)⟩
    · simp only [if_neg hmem] at hsafe ⊢
      obtain ⟨hs, hall⟩ := ih hlink hsound hmode hrest
      exact ⟨hs, fun j h => hall j (hsafe j h)⟩

theorem attended_removeTick (hlink : Link none none w) (hmode : w.cfg.serverMode = true)
    (h : Attended w) (hcareful : Careful w .removeTick) :
    Attended (UserManager.removeTick w) := by
  have hstart : ∀ j, Safe j w.removeSlots { w with removeTimer := false } := by
    intro j
    by_cases hpending : w.registry j = none
    · exact .inl hpending
    · rcases hcareful j hpending with hdismissed | hlive
      · exact .inr (.inl hdismissed)
      · have hsome : w.users j ≠ none := by
          unfold liveSlot at hlive
          split at hlive
          · exact hlive
          · rename_i s hfound
            have huser : s.jid = j ∧ w.users j = some s.user := by
              simpa using List.find?_some hfound
            rw [huser.2]
            exact Option.some_ne_none _
        obtain ⟨u, hu⟩ := Option.ne_none_iff_exists'.mp hsome
        refine .inr (.inr ⟨u, hu, fun s hs _ _ => hs, fun s hs => ?_⟩)
        have hslot : liveSlot j w = some s := by
          unfold liveSlot
          rw [hu, ← hs]
          simp only [Option.some.injEq, eq_comm]
        rw [hslot] at hlive
        exact hlive
  have hlink' : Link none none { w with removeTimer := false } := hlink.of_same (.of_links rfl)
  have hsound : Sound { w with removeTimer := false } :=
    ⟨h.sound.users, h.sound.slots, h.sound.logins⟩
  obtain ⟨hs, hall⟩ := safe_runAll (l := w.removeSlots) hlink' hsound hmode h.sound.slots
  refine ⟨hs, fun j hpending => ?_⟩
  rcases hall j (hstart j) with hnone | hdismissed | ⟨u, hu, -⟩
  · exact absurd hnone hpending
  · exact .inr (.inl hdismissed)
  · refine .inl ?_
    rw [show (UserManager.removeTick w).users j = some u from hu]
    exact Option.some_ne_none u

end Ticks

/-! ## Every run -/

section Runs

variable {w : World}

theorem attended_run (hlink : Link none none w) (hmode : w.cfg.serverMode = true)
    (h : Attended w) (e : Event) (hcareful : Careful w e) : Attended (e.run w) := by
  cases e with
  | clock now => exact h.of_desk rfl
  | backendConnected =>
    refine h.of_desk ?_
    show (handleNewClientConnection w).desk = w.desk
    simp only [handleNewClientConnection, desk_modBackend, desk_sendPing]
    rfl
  | backendLost b => exact attended_finished hlink h b hcareful
  | received b m =>
    have hnote := h.of_desk (desk_noteData w b)
    cases m with
    | connected user password => exact attended_connectedPayload hnote user
    | disconnected user error message =>
      exact attended_disconnectedPayload (hlink.noteData b) hnote user error message
    | pong => exact hnote.of_desk (desk_handlePongReceived _ b)
    | stats res id => exact hnote.of_desk rfl
    | other => exact hnote
  | pingTimeout => exact attended_pingTimeout hlink h hcareful
  | loginDelay => exact h.of_desk (desk_connectWaitingUsers { w with loginTimer := false })
  | collect => exact h.of_desk (desk_collectBackend w)
  | presence p => exact h.touches (touches_presenceReceived p)
  | caps j known =>
    have hset : Attended { w with caps := Function.update w.caps j known } := h.of_desk rfl
    cases known with
    | true => exact hset.of_desk (desk_handleDiscoInfo _ j)
    | false => exact hset
  | connectingTimeout u =>
    exact h.of_desk (desk_onConnectingTimeout u
      (w.modUser u fun x => { x with reconnectTimer := false }))
  | activity u => exact h.of_desk rfl
  | removeTick => exact attended_removeTick hlink hmode h hcareful
  | unregister j => exact attended_unregister hlink h j hcareful
  | registryTick => exact attended_registryTick h
  | openSession tlsLayer => exact h.of_desk rfl
  | streamStart s toJid =>
    refine attended_runSession h s fun x o ho user password => ?_
    simp only [Session.handleStreamStart, List.mem_cons, List.not_mem_nil, or_false] at ho
    rcases ho with rfl | rfl
    · simp
    · split <;> simp
  | element s e uuid => exact attended_element hmode h s e uuid hcareful
  | closeSession s => exact attended_closeSession h s

/-- In every run of server mode whose steps all are careful, every pending login can be
answered. -/
theorem resolvable_of_careful {tr : List (World × Event)} (h : machine.Run tr w)
    (hmode : w.cfg.serverMode = true) (hcareful : Lib.Machine.Meets Careful tr) :
    Resolvable w := by
  have hinvariant : Link none none w ∧ (w.cfg.serverMode = true → Attended w) := by
    refine h.invariant_of_steps
      (I := fun w => Link none none w ∧ (w.cfg.serverMode = true → Attended w))
      (C := Careful) ?_ ?_ hcareful
    · rintro w ⟨cfg, now, storage, rfl⟩
      refine ⟨link_start cfg now storage, fun _ => ⟨⟨?_, ?_, ?_⟩, ?_⟩⟩
      · intro j u hu
        cases hu
      · intro slot hslot
        cases hslot
      · intro j hpending
        exact absurd rfl hpending
      · intro j hpending
        exact absurd rfl hpending
    · rintro w e w' hc hs ⟨hlink, hattended⟩
      obtain ⟨-, -, rfl⟩ := step_eq_some hs
      refine ⟨hlink.run e, fun hmode' => ?_⟩
      rw [run_cfg] at hmode'
      exact attended_run hlink hmode' (hattended hmode') e hc
  exact (hinvariant.2 hmode).resolvable

end Runs

namespace Sample

/-- The database of a server on which alice has disabled the transport. -/
def disabled (j : Jid) : Option UserInfo :=
  if j = alice then some { jid := alice, enableTransport := false } else none

end Sample

/-- The login of alice waits for her user. -/
theorem resolvable_of_careful_alice : ∃ tr w, machine.Run tr w ∧ w.cfg.serverMode = true ∧
    Lib.Machine.Meets Careful tr ∧ w.registry Sample.alice ≠ none ∧ Resolvable w := by
  have h0 : machine.Run [] (World.start Sample.serverCfg 0 none) :=
    .init (init_start Sample.serverCfg 0 none)
  have h1 := h0.step (e := .openSession false) rfl
  have h2 := h1.step (e := .streamStart 0 ⟨"", "localhost", ""⟩) rfl
  have h3 : ∃ tr w, machine.Run tr w ∧ w.cfg.serverMode = true ∧ Lib.Machine.Meets Careful tr ∧
      w.registry Sample.alice ≠ none := by
    refine ⟨_, _, h2.step (e := Sample.auth 0 "one") rfl, rfl, Lib.Machine.meets_cons.mpr ⟨?_,
      Lib.Machine.meets_cons.mpr ⟨trivial, Lib.Machine.meets_cons.mpr
        ⟨trivial, Lib.Machine.meets_nil⟩⟩⟩, fun hnone => nomatch hnone⟩
    intro x hx user password hmem _
    cases hx
    cases List.mem_singleton.mp hmem
    refine .inr (.inr (.inr ⟨.inr rfl, fun info hinfo => ?_⟩))
    cases hinfo
  obtain ⟨tr, w, hrun, hmode, hmeets, hpending⟩ := h3
  exact ⟨tr, w, hrun, hmode, hmeets, hpending, resolvable_of_careful hrun hmode hmeets⟩

/-- A user who has disabled the transport logs in, and nobody answers. -/
theorem not_resolvable_of_disabled :
    ¬ ∀ (tr : List (World × Event)) (w : World), machine.Run tr w → w.cfg.serverMode = true →
      Resolvable w := by
  intro hall
  have h0 : machine.Run [] (World.start Sample.serverCfg 0 (some Sample.disabled)) :=
    .init (init_start Sample.serverCfg 0 (some Sample.disabled))
  have h1 := h0.step (e := .openSession false) rfl
  have h2 := h1.step (e := .streamStart 0 ⟨"", "localhost", ""⟩) rfl
  have h3 := h2.step (e := Sample.auth 0 "one") rfl
  rcases hall _ _ h3 rfl Sample.alice (fun hnone => nomatch hnone) with
    husers | ⟨htimer, -⟩ | ⟨htimer, -⟩
  · exact husers rfl
  · cases htimer
  · cases htimer

end Spectrum
