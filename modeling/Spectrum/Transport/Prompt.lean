import Spectrum.Transport.Connected
import Spectrum.Transport.Lines

/-!
# One LOGIN for each assignment

A backend gets at most one LOGIN for a user between his assignment and the moment he is logged
out, moved or assigned again, and none before the user is ready. Three places break this:
a presence whose known capabilities make its user ready twice, and the two places that send a
LOGIN without a look at `isReadyToConnect`: the automatic reconnect and the move of an idle user.
`Prompt` is the condition on a step under which none of them does.
-/

namespace Spectrum

open World NetworkPluginServer

/-- No assignment of the run saw two LOGINs, and every LOGIN went to the backend of a user who is
ready, as the first one of his assignment. -/
def OneLogin (w : World) : Prop := LoginsInOrder w.user w.log

/-- A disconnection does not reconnect the user, or he is ready. -/
def User.orderly (x : User) (e : ConnectionError) : Bool :=
  x.ignoreDisconnect || !x.reconnects e || x.readyForConnect

/-- The users who are reconnected by the event are ready, and so are the idle users it moves. -/
def Unhurried (w : World) : Event → Prop
  | .received _ (.disconnected j error _) => ∀ u ∈ w.users j, (w.user u).orderly error = true
  | .backendLost b => ∀ u ∈ (w.backends b).users, (w.user u).orderly .otherError = true
  | .pingTimeout =>
    (w.cfg.idleReconnectTime ≠ 0 → (getFreeClient false true false w).1 ≠ none →
      ∀ u ∈ usersToMove w, (w.user u).readyForConnect = true) ∧
    ∀ b ∈ w.clients, (w.backends b).pongReceived = 0 →
      ∀ u ∈ (w.backends b).users, (w.user u).orderly .otherError = true
  | _ => True

instance (w : World) (e : Event) : Decidable (Unhurried w e) :=
  match e with
  | .received _ (.disconnected j error _) => inferInstanceAs (Decidable (∀ u ∈ w.users j,
      (w.user u).orderly error = true))
  | .backendLost b => inferInstanceAs (Decidable (∀ u ∈ (w.backends b).users,
      (w.user u).orderly .otherError = true))
  | .pingTimeout => inferInstanceAs (Decidable
      ((w.cfg.idleReconnectTime ≠ 0 → (getFreeClient false true false w).1 ≠ none →
        ∀ u ∈ usersToMove w, (w.user u).readyForConnect = true) ∧
      ∀ b ∈ w.clients, (w.backends b).pongReceived = 0 →
        ∀ u ∈ (w.backends b).users, (w.user u).orderly .otherError = true))
  | .received _ (.connected ..) | .received _ .pong | .received _ (.stats ..)
  | .received _ .other | .clock _ | .backendConnected | .loginDelay | .collect | .presence _
  | .caps .. | .connectingTimeout _ | .activity _ | .removeTick | .unregister _ | .registryTick
  | .openSession _ | .streamStart .. | .element .. | .closeSession _ => isTrue trivial

/-- The condition on a step. Nor does the presence it brings make a user ready twice. -/
def Prompt (w : World) (e : Event) : Prop :=
  (∀ p ∈ e.presence? w, doubles p w = false) ∧ Unhurried w e

instance (w : World) (e : Event) : Decidable (Prompt w e) :=
  inferInstanceAs (Decidable ((∀ p ∈ e.presence? w, doubles p w = false) ∧ Unhurried w e))

/-! ## Users stay orderly -/

/-- Nobody who was orderly before the operation is hurried after it. -/
def StaysOrderly (w w' : World) : Prop :=
  ∀ v, (w.user v).orderly .otherError = true → (w'.user v).orderly .otherError = true

namespace StaysOrderly

variable {w w₁ w' : World} {u : UserId}

theorem trans (h : StaysOrderly w w₁) (h' : StaysOrderly w₁ w') : StaysOrderly w w' :=
  fun v hv => h' v (h v hv)

theorem of_user (h : w'.user = w.user) : StaysOrderly w w' := by
  intro v hv
  rw [h]
  exact hv

theorem modUser {f : User → User}
    (hf : ∀ x, x.orderly .otherError = true → (f x).orderly .otherError = true) :
    StaysOrderly w (w.modUser u f) := by
  intro v hv
  by_cases hvu : v = u
  · subst hvu
    simpa [World.modUser] using hf _ hv
  · simpa [World.modUser, Function.update_of_ne hvu] using hv

theorem of_idle (h : Idle w w') : StaysOrderly w w' := by
  intro v hv
  have hcore := h.quiet.user v
  have hignore : (w'.user v).ignoreDisconnect = (w.user v).ignoreDisconnect :=
    (congrArg User.ignoreDisconnect hcore :)
  have hrec : (w'.user v).reconnects .otherError = (w.user v).reconnects .otherError :=
    (congrArg (fun y => User.reconnects y .otherError) hcore :)
  unfold User.orderly at hv ⊢
  rw [hignore, hrec, h.ready]
  exact hv

/-- A counted reconnect brings the limit nearer. -/
theorem count : StaysOrderly w (w.modUser u fun x =>
    { x with reconnectCounter := x.reconnectCounter + 1 }) := by
  refine .modUser fun x hx => ?_
  have hless : User.reconnects { x with reconnectCounter := x.reconnectCounter + 1 } .otherError =
      true → User.reconnects x .otherError = true := by
    simp only [User.reconnects, Bool.and_eq_true, decide_eq_true_eq]
    rintro ⟨he, hcount⟩
    exact ⟨he, by omega⟩
  have hcases : x.ignoreDisconnect = true ∨ x.reconnects .otherError = false ∨
      x.readyForConnect = true := by
    simpa [User.orderly, or_assoc] using hx
  rcases hcases with h | h | h
  · simp [User.orderly, h]
  · cases hrec : User.reconnects { x with reconnectCounter := x.reconnectCounter + 1 } .otherError
      with
    | false => simp [User.orderly, hrec]
    | true =>
      rw [hless hrec] at h
      cases h
  · simp [User.orderly, h]

theorem destroyed (u : UserId) (w : World) : StaysOrderly w (handleUserDestroyed u w) := by
  have hd := handleUserDestroyed_spec u w
  have hslots : StaysOrderly w (w.modUser u fun x => { x with slots := 0 }) :=
    .modUser fun _ hx => hx
  exact hslots.trans (.of_user hd.user)

theorem attach (how : Assignment) (u : UserId) (c : BackendId) (w : World) :
    StaysOrderly w (attach how u c w) := by
  have hdata : StaysOrderly w (w.setData u (some c)) := .modUser fun _ hx => hx
  exact hdata.trans (.of_user rfl)

theorem created (u : UserId) (w : World) : StaysOrderly w (handleUserCreated u w) := by
  obtain ⟨w₁, hs, ⟨-, heq⟩ | ⟨c, -, -, heq⟩⟩ := handleUserCreated_cases u w
  · rw [heq]
    exact .of_user hs.user
  · have hslots : StaysOrderly (NetworkPluginServer.attach .created u c w₁)
        (connectSlots u (NetworkPluginServer.attach .created u c w₁)) := .modUser fun _ hx => hx
    rw [heq]
    exact (StaysOrderly.of_user hs.user).trans ((attach .created u c w₁).trans hslots)

theorem removeUser (u : UserId) (w : World) : StaysOrderly w (UserManager.removeUser u w) := by
  obtain ⟨w₁, hq, hq'⟩ := removeUser_steps w u
  have herase : StaysOrderly w
      { w with users := Function.update w.users (w.user u).jid.toBare none } := .of_user rfl
  exact (herase.trans (.of_idle hq)).trans ((destroyed u w₁).trans (.of_idle hq'))

theorem disconnected (u : UserId) (error : String) (e : ConnectionError) (w : World) :
    StaysOrderly w (User.handleDisconnected u error e w) := by
  have hemit : StaysOrderly w (w.emit (.disconnected u)) := .of_user rfl
  rcases handleDisconnected_cases u error e w with ⟨-, heq⟩ | ⟨-, -, heq⟩ | ⟨-, -, heq⟩
  · rw [heq]
    exact hemit
  · rw [heq]
    simp only [User.reconnect]
    exact hemit.trans (count.trans ((destroyed u _).trans
      ((created u _).trans (.of_idle (idle_onReadyToConnect u _)))))
  · have hreport := hemit.trans (.of_idle (idle_reportError u error _))
    rw [heq]
    simp only [User.giveUp]
    split
    · exact hreport
    · exact hreport.trans (removeUser u _)

theorem dropUser (u : UserId) (w : World) : StaysOrderly w (dropUser w u) := by
  have hdata : StaysOrderly w (w.setData u none) := .modUser fun _ hx => hx
  exact hdata.trans (disconnected u _ _ _)

theorem dropUsers (us : List UserId) (w : World) :
    StaysOrderly w (us.foldl NetworkPluginServer.dropUser w) := by
  induction us generalizing w with
  | nil => exact .of_user rfl
  | cons u us ih => exact (dropUser u w).trans (ih _)

theorem noteCrash (c : BackendId) (w : World) :
    StaysOrderly w (noteCrash c (markDying c w)) := by
  refine .of_user ?_
  unfold Spectrum.noteCrash
  split
  · rfl
  · rfl

theorem finished (c : BackendId) (w : World) : StaysOrderly w (handleSessionFinished c w) := by
  by_cases hc : c ∈ w.clients
  · have hloop := (noteCrash c w).trans (dropUsers (w.backends c).users _)
    have hsend := hloop.trans (.of_idle (idle_send _ c (m := .exit) trivial))
    rw [handleSessionFinished_eq hc]
    exact hsend.trans (.of_user rfl)
  · unfold handleSessionFinished
    rw [if_pos hc]
    exact .of_user rfl

end StaysOrderly

/-! ## The end of a backend -/

section Finish

variable {x : Option BackendId} {w : World} {u : UserId} {c : BackendId}

/-- A change of a backend other than its list of users. -/
theorem Lines.modBackend (h : Lines x w) (b : BackendId) {f : Backend → Backend}
    (hf : ∀ c, (f c).users = c.users) : Lines x (w.modBackend b f) := by
  have hback : ∀ c, ((w.modBackend b f).backends c).users = (w.backends c).users := by
    intro c
    by_cases hc : c = b
    · subst hc
      simp [World.modBackend, hf]
    · simp [World.modBackend, Function.update_of_ne hc]
  refine ⟨h.slots, h.waiting, h.assigned, h.fresh, ?_, ?_, ?_, h.order⟩
  · intro c hc hcx v hv
    rw [hback] at hv
    exact h.phase c hc hcx v hv
  · intro v c n ho hc hcx
    rw [hback]
    exact h.listed v c n ho hc hcx
  · intro v c hm hslots hdata hc hcx
    rw [hback]
    exact h.wired v c hm hslots hdata hc hcx

theorem Lines.markDying (h : Lines none w) (c : BackendId) : Lines (some c) (markDying c w) := by
  have hemit : Still w (w.emit (.sessionFinished c)) := .emit trivial
  exact Lines.modBackend (h.weaken.still hemit) c fun _ => rfl

theorem still_noteCrash (c : BackendId) (w : World) : Still w (noteCrash c w) := by
  unfold noteCrash
  split
  · exact .refl w
  · exact .of_same rfl

theorem Lines.dropBackend (h : Lines (some c) w) :
    Lines none { w.modBackend c (fun b => { b with connection := false }) with
      clients := w.clients.filter fun b => b ≠ c } := by
  have h₁ := h.modBackend c (f := fun b => { b with connection := false }) fun _ => rfl
  have hmem : ∀ b ∈ w.clients.filter (fun b => b ≠ c), b ∈ w.clients ∧ some b ≠ some c := by
    intro b hb
    simpa using hb
  refine ⟨h₁.slots, h₁.waiting, h₁.assigned, h₁.fresh, ?_, ?_, ?_, h₁.order⟩
  · intro b hb _
    exact h₁.phase b (hmem b hb).1 (hmem b hb).2
  · intro v b n ho hb _
    exact h₁.listed v b n ho (hmem b hb).1 (hmem b hb).2
  · intro v b hm hslots hdata hb _
    exact h₁.wired v b hm hslots hdata (hmem b hb).1 (hmem b hb).2

theorem orderly_iff {y : User} {e : ConnectionError} : y.orderly e = true ↔
    (y.ignoreDisconnect = false → y.reconnects e = true → y.readyForConnect = true) := by
  unfold User.orderly
  cases y.ignoreDisconnect <;> cases y.reconnects e <;> simp

/-- The loop of `handleSessionFinished`, over users that are all orderly. -/
theorem Lines.finished (h : Lines none w) (hlink : Link none none w)
    (hprompt : ∀ v ∈ (w.backends c).users, (w.user v).orderly .otherError = true) :
    Lines none (handleSessionFinished c w) := by
  by_cases hc : c ∈ w.clients
  · have hcrash := still_noteCrash c (Spectrum.markDying c w)
    have hstep : ∀ v us w, v ∉ us → Link (some c) none w → Pending (some c) v w →
        (∀ v ∈ us, Pending (some c) v w) →
        (Lines (some c) w ∧ ∀ v' ∈ v :: us, (w.user v').orderly .otherError = true) →
        Lines (some c) (NetworkPluginServer.dropUser w v) ∧
          ∀ v' ∈ us, ((NetworkPluginServer.dropUser w v).user v').orderly .otherError = true := by
      intro v us w _ hlink hv _ hinv
      obtain ⟨hlines, horder⟩ := hinv
      refine ⟨hlines.dropUser hlink hv (orderly_iff.mp (horder v List.mem_cons_self)), ?_⟩
      intro v' hv'
      exact StaysOrderly.dropUser v w v' (horder v' (List.mem_cons_of_mem v hv'))
    obtain ⟨-, hloop, -⟩ := dropUsers_induction
      (I := fun us w => Lines (some c) w ∧ ∀ v ∈ us, (w.user v).orderly .otherError = true)
      hstep (hlink.users_nodup c hc (by simp)) ((hlink.markDying c).of_same hcrash.sameLinks)
      (fun v hv => (pending_markDying hlink hc v hv).of_same hcrash.sameLinks)
      ⟨(h.markDying c).still hcrash, fun v hv => StaysOrderly.noteCrash c w v (hprompt v hv)⟩
    rw [handleSessionFinished_eq hc]
    exact (hloop.still (still_send _ c (m := .exit) trivial)).dropBackend
  · unfold handleSessionFinished
    rw [if_pos hc]
    exact h.still (.of_same rfl)

/-- A user who comes to a backend while another one is finished was one of its users. -/
theorem listed_finished (hlink : Link none none w) {b : BackendId} {v : UserId}
    (hv : v ∈ ((handleSessionFinished c w).backends b).users) :
    v ∈ (w.backends b).users ∨ v ∈ (w.backends c).users := by
  by_cases hc : c ∈ w.clients
  · by_cases hmem : v ∈ (w.backends c).users
    · exact .inr hmem
    · exact .inl ((((finished_user v hlink hc).2 hmem).listed b).mp hv)
  · unfold handleSessionFinished at hv
    rw [if_pos hc] at hv
    exact .inl hv

theorem Lines.finishAll {bs : List BackendId} (h : Lines none w) (hlink : Link none none w)
    (hprompt : ∀ b ∈ bs, ∀ v ∈ (w.backends b).users, (w.user v).orderly .otherError = true) :
    Lines none (bs.foldl (fun w b => handleSessionFinished b w) w) := by
  induction bs generalizing w with
  | nil => exact h
  | cons c bs ih =>
    have hc := hprompt c List.mem_cons_self
    refine ih (h.finished hlink hc) (hlink.finished c) fun b hb v hv => ?_
    refine StaysOrderly.finished c w v ?_
    rcases listed_finished hlink hv with hv | hv
    · exact hprompt b (List.mem_cons_of_mem c hb) v hv
    · exact hc v hv

end Finish

/-! ## The queue and new backends -/

section Queue

variable {w : World} {u : UserId}

/-- The head of the queue is assigned, and logged in if he is ready. -/
theorem Lines.serve (h : Lines none w) (hlink : Link none none w) {rest : List UserId}
    {c : BackendId} (hwait : w.waitingUsers = u :: rest) (hpost : loginPostponed w = false)
    (hfind : findFree true false w = some c) : Lines none (serve u rest w) := by
  obtain ⟨hlink₁, hun, hm⟩ := hlink.dequeue hwait
  have h₁ : Lines none { w with waitingUsers := rest } := by
    refine ⟨h.slots, fun v hv => h.waiting v ?_, h.assigned, h.fresh, h.phase, h.listed, h.wired,
      h.order⟩
    rw [hwait]
    exact List.mem_cons_of_mem u hv
  have hslots : (w.user u).slots = 0 := by
    apply h.waiting
    rw [hwait]
    exact List.mem_cons_self
  obtain ⟨h₂, hunserved⟩ := h₁.created hlink₁ hun (hlink₁.keys _ u hm).2.2 hslots
  have hlink₂ := hlink₁.created hun hm
  -- the check was successful, so the user does not go back to the queue
  have hne : ((handleUserCreated u { w with waitingUsers := rest }).user u).slots ≠ 0 := by
    obtain ⟨w₁, -, heq⟩ := handleUserCreated_of_free (u := u)
      (w := { w with waitingUsers := rest }) (c := c) hpost hfind
    rw [heq]
    simp [connectSlots, modUser]
  simp only [Spectrum.serve]
  split
  · rename_i hready
    refine h₂.readyToConnect (hlink₂.alone ?_) hready (hunserved hne)
    exact (created_managed u u _).mpr hm
  · exact h₂

theorem Lines.connectWaitingUsers (h : Lines none w) (hlink : Link none none w) :
    Lines none (connectWaitingUsers w) := by
  have hemit : Still w (w.emit .connectWaitingUsers) := .emit trivial
  have hloop : Lines none (NetworkPluginServer.connectWaitingUsers w) ∧
      Link none none (NetworkPluginServer.connectWaitingUsers w) := by
    refine drain_induction (I := fun w => Lines none w ∧ Link none none w) ?_ ?_ _ _
      ⟨h.still hemit, hlink.of_same hemit.sameLinks⟩
    · intro w w' hs hinv
      exact ⟨hinv.1.still (.of_searched hs), hinv.2.of_same hs.sameLinks⟩
    · intro w u rest c hwait hpost hfind hinv
      exact ⟨hinv.1.serve hinv.2 hwait hpost hfind, hinv.2.serve hwait⟩
  exact hloop.1

theorem still_startComponent (w : World) : Still w (startComponent w) := by
  unfold startComponent
  split
  · exact .of_links rfl rfl (.emit trivial)
  · exact .refl w

theorem Lines.pong (h : Lines none w) (hlink : Link none none w) (b : BackendId) :
    Lines none (handlePongReceived b w) := by
  have hemit : Still w (w.emit (.pong b)) := .emit trivial
  have h₁ := h.still hemit
  have hlink₁ := hlink.of_same hemit.sameLinks
  simp only [handlePongReceived]
  split
  · refine Lines.modBackend (Lines.connectWaitingUsers ?_ ?_) b fun _ => rfl
    · refine Lines.still (h₁.modBackend b ?_) (still_startComponent _)
      exact fun _ => rfl
    · refine Link.startComponent (hlink₁.modBackend b ?_)
      exact fun _ => rfl
  · exact h₁.modBackend b fun _ => rfl

theorem Lines.loginDelay (h : Lines none w) (hlink : Link none none w) :
    Lines none (loginDelayFinished w) := by
  have htimer : Still w { w with loginTimer := false } :=
    .of_same rfl
  exact (h.still htimer).connectWaitingUsers (hlink.of_same htimer.sameLinks)

theorem Lines.noteData (h : Lines none w) (b : BackendId) : Lines none (noteData b w) := by
  obtain ⟨v, hv⟩ := noteData_eq b w
  rw [hv]
  exact h.modBackend b fun _ => rfl

theorem Lines.collect (h : Lines none w) : Lines none (collectBackend w) := by
  unfold collectBackend
  split
  · exact h
  · exact h.modBackend _ fun _ => rfl

theorem Lines.sendPing (h : Lines none w) (b : BackendId) : Lines none (sendPing b w) := by
  unfold NetworkPluginServer.sendPing
  split
  · exact (h.still (still_send w b (m := .ping) trivial)).modBackend b fun _ => rfl
  · exact h

/-- A new backend is a new number, so no assignment to it is open. -/
theorem Lines.withBackend (h : Lines none w) : Lines none (withBackend w) := by
  have hnew : ((Spectrum.withBackend w).backends w.nextBackend).users = [] := by
    simp [Spectrum.withBackend]
  have hold : ∀ b, b ≠ w.nextBackend →
      (Spectrum.withBackend w).backends b = w.backends b := by
    intro b hb
    simp [Spectrum.withBackend, Function.update_of_ne hb]
  refine ⟨h.slots, h.waiting, ?_, ?_, ?_, ?_, ?_, h.order⟩
  · intro how v b state hmem
    obtain ⟨hv, hb⟩ := h.assigned how v b state hmem
    exact ⟨hv, Nat.lt_succ_of_lt hb⟩
  · intro v b hdata
    exact Nat.lt_succ_of_lt (h.fresh v b hdata)
  · intro b hb _ v hv
    by_cases hbn : b = w.nextBackend
    · rw [hbn, hnew] at hv
      cases hv
    · rw [hold b hbn] at hv
      exact h.phase b ((List.mem_cons.mp hb).resolve_left hbn) (by simp) v hv
  · intro v b n ho hb _
    obtain ⟨how, state, hmem⟩ := mem_of_openLogins ho
    have hbn := Nat.ne_of_lt (h.assigned how v b state hmem).2
    rw [hold b hbn]
    exact h.listed v b n ho ((List.mem_cons.mp hb).resolve_left hbn) (by simp)
  · intro v b hm hslots hdata hb _
    have hbn := Nat.ne_of_lt (h.fresh v b hdata)
    rw [hold b hbn]
    exact h.wired v b hm hslots hdata ((List.mem_cons.mp hb).resolve_left hbn) (by simp)

theorem Lines.newBackend (h : Lines none w) : Lines none (handleNewClientConnection w) := by
  rw [handleNewClientConnection_eq]
  exact (h.withBackend.sendPing _).modBackend _ fun _ => rfl

end Queue

/-! ## Moves -/

/-- What the moves of idle users leave of the sweep's condition: users come to a backend only by
a move, and a moved user ignores the end of his old backend. -/
structure Shifted (w w' : World) : Prop where
  clients : w'.clients = w.clients
  pongReceived : ∀ b, (w'.backends b).pongReceived = (w.backends b).pongReceived
  ready : ∀ v, (w'.user v).readyForConnect = (w.user v).readyForConnect
  orderly : StaysOrderly w w'
  listed : ∀ b, ∀ v ∈ (w'.backends b).users,
    v ∈ (w.backends b).users ∨ (w'.user v).orderly .otherError = true

section Move

variable {w w' : World} {u : UserId} {old c : BackendId}

theorem Shifted.refl (w : World) : Shifted w w :=
  ⟨rfl, fun _ => rfl, fun _ => rfl, fun _ h => h, fun _ _ h => .inl h⟩

theorem Shifted.trans {w₁ : World} (h : Shifted w w₁) (h' : Shifted w₁ w') : Shifted w w' := by
  refine ⟨h'.clients.trans h.clients, fun b => (h'.pongReceived b).trans (h.pongReceived b),
    fun v => (h'.ready v).trans (h.ready v), h.orderly.trans h'.orderly, fun b v hv => ?_⟩
  rcases h'.listed b v hv with hv | hv
  · exact (h.listed b v hv).imp_right (h'.orderly v)
  · exact .inr hv

theorem Shifted.of_searched (h : Searched w w') : Shifted w w' := by
  refine ⟨h.clients, h.pongReceived, fun v => by rw [h.user], .of_user h.user, fun b v hv => ?_⟩
  rw [h.usersOf] at hv
  exact .inl hv

theorem shifted_move (u : UserId) (w : World) : Shifted w (moveToLongRunBackend u w).2 := by
  rcases moveToLongRunBackend_cases u w with heq | ⟨w₁, hs, heq⟩ | heq |
    ⟨w₁, old, c, hs, -, -, -, -, -, heq⟩
  · rw [heq]
    exact .refl w
  · rw [heq]
    exact .of_searched hs
  · rw [heq]
    exact ⟨rfl, fun _ => rfl, fun _ => rfl, fun _ h => h, fun _ _ h => .inl h⟩
  · rw [heq]
    have hidle := idle_handleUserReadyToConnect u (attach .moved u c (removeFrom u old
      (w₁.modUser u fun x => { x with ignoreDisconnect := true })))
    have hignore : StaysOrderly w₁ (w₁.modUser u fun x => { x with ignoreDisconnect := true }) :=
      .modUser fun _ _ => by simp [User.orderly]
    have hattach := StaysOrderly.attach .moved u c (removeFrom u old
      (w₁.modUser u fun x => { x with ignoreDisconnect := true }))
    have hback : ∀ b, ((removeFrom u old (w₁.modUser u fun x =>
        { x with ignoreDisconnect := true })).backends b).pongReceived =
          (w₁.backends b).pongReceived := by
      intro b
      by_cases hb : b = old
      · subst hb
        simp [removeFrom, World.modBackend, modUser]
      · simp [removeFrom, World.modBackend, modUser, Function.update_of_ne hb]
    refine (Shifted.of_searched hs).trans ⟨hidle.quiet.clients, fun b => ?_, fun v => ?_, ?_,
      fun b v hv => ?_⟩
    · rw [hidle.quiet.backends, attach_pongReceived, hback]
    · rw [hidle.ready, (attach_line v).2]
      by_cases hv : v = u
      · subst hv
        simp [removeFrom, modBackend, modUser]
      · simp [removeFrom, modBackend, modUser, Function.update_of_ne hv]
    · exact (hignore.trans hattach).trans (.of_idle hidle)
    · rw [hidle.quiet.backends] at hv
      rcases mem_attach hv with hv | ⟨-, rfl⟩
      · exact .inl ((removeFrom_subset old b).subset hv)
      · refine .inr (StaysOrderly.of_idle hidle v (hattach v ?_))
        simp [User.orderly, removeFrom, modBackend, modUser]

theorem shifted_moveUsers (us : List UserId) (w : World) : Shifted w (moveUsers us w) := by
  induction us generalizing w with
  | nil => exact .refl w
  | cons u us ih =>
    have hmove := shifted_move u w
    unfold moveUsers
    generalize moveToLongRunBackend u w = r at hmove
    obtain ⟨ok, w₁⟩ := r
    cases ok with
    | false => exact hmove
    | true => exact hmove.trans (ih w₁)

theorem placed_moved (hlinked : ∀ b ∈ w.clients, u ∈ (w.backends b).users → b = old) :
    Placed none u c w (attach .moved u c (removeFrom u old w)) := by
  refine ⟨rfl, rfl, rfl, rfl, rfl, ?_, ?_, ?_, ?_, ?_, ⟨.moved, _, rfl⟩⟩
  · intro b hb _ v
    have hrest : v ∈ ((removeFrom u old w).backends b).users ↔
        v ≠ u ∧ v ∈ (w.backends b).users := by
      rw [removeFrom_usersOf]
      split
      · rw [List.mem_filter, and_comm, decide_eq_true_eq]
      · rename_i hne
        refine ⟨fun hv => ⟨?_, hv⟩, fun hv => hv.2⟩
        rintro rfl
        exact hne (hlinked b hb hv)
    rw [attach_usersOf]
    split
    · rename_i hbc
      rw [List.mem_append, hrest, List.mem_singleton]
      simp [hbc]
    · rename_i hbc
      rw [hrest]
      simp [hbc]
  · intro v hv
    rw [attach_user, Function.update_of_ne hv]
    rfl
  · exact attach_jid u
  · exact (attach_line u).2
  · rw [attach_data, if_pos rfl]

/-- A ready user who is moved gets one LOGIN at his new backend. -/
theorem Lines.move (h : Lines none w) (hlink : Link none none w) (hwait : u ∉ w.waitingUsers)
    (hm : w.Managed u) (hready : (w.user u).readyForConnect = true) :
    Lines none (moveToLongRunBackend u w).2 := by
  rcases moveToLongRunBackend_cases u w with heq | ⟨w₁, hs, heq⟩ | heq |
    ⟨w₁, old, c, hs, hdata, -, -, hc, -, heq⟩
  · rw [heq]
    exact h
  · rw [heq]
    exact h.still (.of_searched hs)
  · rw [heq]
    exact h.still (.of_same rfl)
  · rw [heq]
    have hignore : Still w₁ (w₁.modUser u fun y => { y with ignoreDisconnect := true }) :=
      Still.modUser u fun _ => rfl
    have hstill := (Still.of_searched hs).trans hignore
    have h₁ := h.still hstill
    have hlink₁ := hlink.of_same hstill.sameLinks
    have hready₁ := (hstill.ready u).trans hready
    have hdata₁ := (hstill.data u).trans hdata
    have hm₁ := hstill.sameLinks.managed.mpr hm
    have hwait₁ : u ∉ w₁.waitingUsers := by
      rw [hs.waitingUsers]
      exact hwait
    have hc₁ : c ∈ w₁.clients := by
      rw [hs.clients]
      exact hc
    generalize (w₁.modUser u fun y => { y with ignoreDisconnect := true }) = w₂
      at h₁ hlink₁ hready₁ hdata₁ hm₁ hignore
    rw [← hignore.clients] at hc₁
    rw [← hignore.waitingUsers] at hwait₁
    have hp : Placed none u c w₂ (attach .moved u c (removeFrom u old w₂)) := by
      refine placed_moved fun b hb hmem => ?_
      have hb' := hlink₁.linked b hb (by simp) u hmem
      rw [hdata₁] at hb'
      exact (Option.some.inj hb').symm
    have h₂ := h₁.placed hp (hlink₁.fresh c hc₁) (hlink₁.keys _ u hm₁).2.2 hwait₁
      (by rw [(attach_line u).1]; exact h₁.slots u)
    exact h₂.readyToConnect ((hlink₁.alone hm₁).placed hp) (hp.ready.trans hready₁)
      (hp.unserved hc₁ (by simp))

theorem Lines.moveUsers {us : List UserId} (h : Lines none w) (hlink : Link none none w)
    (hus : ∀ v ∈ us, v ∉ w.waitingUsers ∧ w.Managed v ∧ (w.user v).readyForConnect = true) :
    Lines none (moveUsers us w) := by
  induction us generalizing w with
  | nil => exact h
  | cons u us ih =>
    obtain ⟨hwait, hm, hready⟩ := hus u List.mem_cons_self
    have hlines := h.move hlink hwait hm hready
    have hlink₁ := hlink.move hwait hm
    have hshift := shifted_move u w
    obtain ⟨hqueue, hmanaged⟩ := move_keeps u w
    unfold NetworkPluginServer.moveUsers
    generalize moveToLongRunBackend u w = r at hlines hlink₁ hshift hqueue hmanaged
    obtain ⟨ok, w₁⟩ := r
    cases ok with
    | false => exact hlines
    | true =>
      refine ih hlines hlink₁ fun v hv => ?_
      obtain ⟨hv₁, hv₂, hv₃⟩ := hus v (List.mem_cons_of_mem u hv)
      exact ⟨by rw [hqueue]; exact hv₁, (hmanaged v).mpr hv₂, (hshift.ready v).trans hv₃⟩

/-- Without a long-running backend the first idle user ends the moves. -/
theorem moveUsers_of_none (hlink : Link none none w)
    (hfree : (getFreeClient false true false w).1 = none) :
    moveUsers (usersToMove w) w = w ∨ Searched w (moveUsers (usersToMove w) w) := by
  have hsearch := searched_getFreeClient false true false w
  cases hus : usersToMove w with
  | nil => exact .inl rfl
  | cons u us =>
    obtain ⟨b, hb, hmem⟩ := List.mem_flatMap.mp (hus ▸ List.mem_cons_self : u ∈ usersToMove w)
    unfold idleUsersOf at hmem
    split at hmem
    · cases hmem
    · rename_i hlong
      have hdata := hlink.linked b hb (by simp) u (List.mem_filter.mp hmem).1
      unfold moveUsers moveToLongRunBackend
      rw [hdata]
      dsimp only
      rw [if_neg (not_not.mpr hb), if_neg hlong]
      generalize getFreeClient false true false w = r at hsearch hfree
      obtain ⟨found, w₁⟩ := r
      cases hfree
      exact .inr hsearch

theorem Lines.moveIdleUsers (h : Lines none w) (hlink : Link none none w)
    (hprompt : w.cfg.idleReconnectTime ≠ 0 → (getFreeClient false true false w).1 ≠ none →
      ∀ u ∈ usersToMove w, (w.user u).readyForConnect = true) :
    Lines none (moveIdleUsers w) := by
  unfold NetworkPluginServer.moveIdleUsers
  split
  · exact h
  · rename_i htime
    by_cases hfree : (getFreeClient false true false w).1 = none
    · rcases moveUsers_of_none hlink hfree with heq | hs
      · rw [heq]
        exact h
      · exact h.still (.of_searched hs)
    · refine h.moveUsers hlink fun v hv => ?_
      obtain ⟨b, hb, hmem⟩ := mem_usersToMove hv
      exact ⟨hlink.not_waiting b hb (by simp) v hmem,
        hlink.listed_managed b hb (by simp) v hmem (by simp), hprompt htime hfree v hv⟩

theorem shifted_moveIdleUsers (w : World) : Shifted w (moveIdleUsers w) := by
  unfold moveIdleUsers
  split
  · exact .refl w
  · exact shifted_moveUsers _ w

end Move

/-! ## The sweep -/

section Sweep

variable {w : World}

theorem Lines.checkBackends (h : Lines none w) (bs : List BackendId) :
    Lines none (checkBackends bs w).2 := by
  induction bs generalizing w with
  | nil => exact h
  | cons b bs ih =>
    simp only [NetworkPluginServer.checkBackends]
    split
    · exact ih h
    · exact ih (h.sendPing b)

/-- The backends the sweep removes have missed a PONG or are empty. -/
theorem orderly_of_toRemove (hnodup : w.clients.Nodup)
    (hprompt : ∀ b ∈ w.clients, (w.backends b).pongReceived = 0 →
      ∀ u ∈ (w.backends b).users, (w.user u).orderly .otherError = true) {b : BackendId}
    (hb : b ∈ toRemove w) : ∀ u ∈ (w.backends b).users, (w.user u).orderly .otherError = true := by
  intro u hu
  have hclient := mem_toRemove hnodup hb
  rw [toRemove_eq hnodup] at hb
  obtain ⟨c, -, hbc⟩ := List.mem_flatMap.mp hb
  obtain rfl := mem_expired hbc
  unfold expired at hbc
  rcases List.mem_append.mp hbc with h | h
  · split at h
    · rename_i hlate
      exact hprompt b hclient (by simpa using hlate) u hu
    · cases h
  · split at h
    · rename_i hidle
      have hempty : (w.backends b).users = [] := by simpa using hidle
      rw [hempty] at hu
      cases hu
    · cases h

theorem Lines.pingTimeout (h : Lines none w) (hlink : Link none none w)
    (hprompt : Unhurried w .pingTimeout) : Lines none (pingTimeout w) := by
  obtain ⟨hmoves, hlate⟩ := hprompt
  have h₁ := h.moveIdleUsers hlink hmoves
  have hlink₁ := hlink.moveIdleUsers
  have hshift := shifted_moveIdleUsers w
  have hlate₁ : ∀ b ∈ (NetworkPluginServer.moveIdleUsers w).clients,
      ((NetworkPluginServer.moveIdleUsers w).backends b).pongReceived = 0 →
      ∀ u ∈ ((NetworkPluginServer.moveIdleUsers w).backends b).users,
        ((NetworkPluginServer.moveIdleUsers w).user u).orderly .otherError = true := by
    intro b hb hpong u hu
    rw [hshift.clients] at hb
    rw [hshift.pongReceived] at hpong
    rcases hshift.listed b u hu with hu | hu
    · exact hshift.orderly u (hlate b hb hpong u hu)
    · exact hu
  unfold NetworkPluginServer.pingTimeout
  generalize NetworkPluginServer.moveIdleUsers w = w₁ at h₁ hlink₁ hlate₁
  have hstart : Still w₁ { w₁ with startingBackend := false } :=
    .of_same rfl
  have hping := pinged_checkBackends w₁.clients { w₁ with startingBackend := false }
  rw [sweep_eq]
  refine Lines.finishAll ((h₁.still hstart).checkBackends _)
    ((hlink₁.of_same hstart.sameLinks).checkBackends _) fun b hb v hv => ?_
  rw [hping.usersOf] at hv
  rw [hping.user]
  exact orderly_of_toRemove hlink₁.nodup hlate₁ hb v hv

end Sweep

/-! ## Every run -/

section Run

variable {w : World} {tr : List (World × Event)}

theorem Lines.connected (h : Lines none w) (hlink : Link none none w) (j : Jid) :
    Lines none (handleConnectedPayload j w) := by
  unfold handleConnectedPayload
  split
  · exact h
  · rename_i u hu
    exact (h.dial hlink (dial_setConnected hu)).1.still (still_onPasswordValid _ j)

theorem Lines.disconnectedPayload (h : Lines none w) (hlink : Link none none w) {j : Jid}
    {error : ConnectionError} (message : String)
    (hprompt : ∀ u ∈ w.users j, (w.user u).orderly error = true) :
    Lines none (handleDisconnectedPayload j error message w) := by
  have hstill := still_onPasswordInvalid w j message
  have haside := aside_onPasswordInvalid w j message
  have h₁ := h.still hstill
  have hlink₁ := hlink.of_same hstill.sameLinks
  simp only [handleDisconnectedPayload]
  split
  · exact h₁
  · rename_i u hu
    refine h₁.disconnected hlink₁ (hlink₁.managed_of_users hu) (by simp) message ?_
    rw [hstill.users] at hu
    rw [haside.user]
    exact orderly_iff.mp (hprompt u hu)

theorem Lines.run (h : Lines none w) (hlink : Link none none w) (haware : Aware w) {e : Event}
    (henabled : e.enabled w = true) (hp : Prompt w e) : Lines none (e.run w) := by
  obtain ⟨hpresence, hunhurried⟩ := hp
  have hfront : e.isFront = true → Lines none (e.run w) := by
    intro hfront
    refine (h.dial hlink (dial_run w hfront hpresence ?_)).1
    rintro u rfl
    exact ⟨_, haware.timed u henabled⟩
  cases e with
  | clock now => exact h.still (.of_same rfl)
  | backendConnected => exact h.newBackend
  | backendLost b => exact h.finished hlink hunhurried
  | received b m =>
    have h₁ := h.noteData b
    have hlink₁ := hlink.noteData b
    cases m with
    | connected j _ => exact h₁.connected hlink₁ j
    | disconnected j error message =>
      refine h₁.disconnectedPayload hlink₁ message ?_
      obtain ⟨v, hv⟩ := noteData_eq b w
      rw [hv]
      exact hunhurried
    | pong => exact h₁.pong hlink₁ b
    | stats res id =>
      simp only [Event.run, handleMessage, handleStatsPayload]
      exact h₁.modBackend b fun _ => rfl
    | other => exact h₁
  | pingTimeout => exact h.pingTimeout hlink hunhurried
  | loginDelay => exact h.loginDelay hlink
  | collect => exact h.collect
  | activity u =>
    simp only [Event.run]
    exact h.still (Still.modUser u fun _ => rfl)
  | _ => exact hfront rfl

/-- In every run whose steps all meet the condition, no assignment sees two LOGINs, and a LOGIN
only goes to the backend of a user who is ready, as the first one of his assignment. -/
theorem oneLogin_of_prompt (h : machine.Run tr w) (hp : Lib.Machine.Meets Prompt tr) :
    OneLogin w := by
  have hinv : Lines none w ∧ Link none none w ∧ Aware w := by
    refine h.invariant_of_steps (I := fun w => Lines none w ∧ Link none none w ∧ Aware w) ?_ ?_ hp
    · rintro s ⟨cfg, now, storage, rfl⟩
      exact ⟨lines_start cfg now storage, link_start cfg now storage, aware_start cfg now storage⟩
    · rintro s e s' he hs ⟨hlines, hlink, haware⟩
      obtain ⟨henabled, -, rfl⟩ := step_eq_some hs
      exact ⟨hlines.run hlink haware henabled he, hlink.run e, haware.run hlink henabled⟩
  exact hinv.1.order

end Run

/-- Alice is logged in, loses the connection and is logged in again. -/
theorem oneLogin_of_prompt_alice :
    ∃ tr w, machine.Run tr w ∧ Lib.Machine.Meets Prompt tr ∧
      w.log.count (.send 0 (.login (Sample.jid "alice") "alice@example.org/home" "")) = 2 ∧
      OneLogin w := by
  have hexec : ∃ w, (machine.restrict Prompt).exec (World.start Sample.cfg 0 none)
      [.backendConnected, .received 0 .pong, .presence (Sample.available "alice"),
        .connectingTimeout 0, .received 0 (.disconnected (Sample.jid "alice") .networkError "")] =
          some w ∧
      w.log.count (.send 0 (.login (Sample.jid "alice") "alice@example.org/home" "")) = 2 :=
    ⟨_, by rfl, by rfl⟩
  obtain ⟨w, hw, hcount⟩ := hexec
  obtain ⟨tr, hrun, hmeets⟩ :=
    Lib.Machine.exists_run_of_restrict (init_start Sample.cfg 0 none) hw
  exact ⟨tr, w, hrun, hmeets, hcount, oneLogin_of_prompt hrun hmeets⟩

/-- The backend of alice crashes before she is ready: she is logged in at the other backend at
once, and once more when she becomes ready. -/
theorem not_oneLogin_of_crash :
    ¬ ∀ (tr : List (World × Event)) (w : World), machine.Run tr w → OneLogin w := by
  intro hall
  have hexec : ∃ w, machine.exec (World.start Sample.cfg 0 none)
      [.backendConnected, .received 0 .pong, .presence (Sample.available "alice"),
        .backendConnected, .received 1 .pong, .backendLost 0, .connectingTimeout 0] = some w ∧
      openLogins 0 (w.user 0).jid.toBare w.log = some (1, 2) := ⟨_, by rfl, by rfl⟩
  obtain ⟨w, hw, hopen⟩ := hexec
  obtain ⟨tr, hrun, -⟩ := Lib.Machine.exists_run_of_exec (init_start Sample.cfg 0 none) hw
  exact absurd ((hall tr w hrun).last hopen) (by decide)

end Spectrum
