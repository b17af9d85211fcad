import Spectrum.Transport.Connected

/-!
# The calls of `User::handleDisconnected`

`User::handleDisconnected` is called for a DISCONNECTED, and for every user of a backend that ends.
`calls` lists the calls of one event. Between them an event is a sequence of inert operations, of
searches for a backend and of creations of users (`Proceeds`).
-/

namespace Spectrum

open World NetworkPluginServer

/-! ## Calls -/

/-- A call, with the state in which it is made. -/
structure Call where
  world : World
  user : UserId
  error : ConnectionError
  message : String

namespace Call

variable (c : Call)

def after : World := User.handleDisconnected c.user c.message c.error c.world

def ignored : Bool := (c.world.user c.user).ignoreDisconnect

/-- `onUserDestroyed` is followed by `onUserCreated`. -/
def recreates : Bool := !c.ignored && (c.world.user c.user).reconnects c.error

/-- A call is ignored, re-creates the assignment of the user, or gives him up. -/
theorem after_cases :
    (c.ignored = true ∧ c.recreates = false ∧ c.after = c.world.emit (.disconnected c.user)) ∨
    (c.ignored = false ∧ c.recreates = true ∧
      c.after = User.reconnect c.user (c.world.emit (.disconnected c.user))) ∨
    (c.ignored = false ∧ c.recreates = false ∧
      c.after = User.giveUp c.user c.message (c.world.emit (.disconnected c.user))) := by
  unfold recreates ignored after
  rcases handleDisconnected_cases c.user c.message c.error c.world with
    ⟨hignore, heq⟩ | ⟨hignore, hrec, heq⟩ | ⟨hignore, hrec, heq⟩
  · exact .inl ⟨hignore, by simp [hignore], heq⟩
  · exact .inr (.inl ⟨hignore, by simp [hignore, hrec], heq⟩)
  · exact .inr (.inr ⟨hignore, by simp [hignore, hrec], heq⟩)

end Call

/-- One round of the loop of `handleSessionFinished`. -/
def dropCall (w : World) (u : UserId) : Call where
  world := w.setData u none
  user := u
  error := .otherError
  message := "Internal Server Error, please reconnect."

def dropCalls : List UserId → World → List Call
  | [], _ => []
  | u :: us, w => dropCall w u :: dropCalls us (dropUser w u)

def finishCalls (b : BackendId) (w : World) : List Call :=
  if b ∈ w.clients then dropCalls (w.backends b).users (noteCrash b (markDying b w)) else []

/-- The backends that `pingTimeout` ends, one after the other. -/
def sweepCalls : List BackendId → World → List Call
  | [], _ => []
  | b :: bs, w => finishCalls b w ++ sweepCalls bs (handleSessionFinished b w)

/-- The calls of one event, oldest first. -/
def calls (w : World) : Event → List Call
  | .received b (.disconnected j error message) =>
    let w := UserRegistry.onPasswordInvalid j message (noteData b w)
    match w.users j with
    | none => []
    | some u => [⟨w, u, error, message⟩]
  | .backendLost b => finishCalls b w
  | .pingTimeout =>
    let w := moveIdleUsers w
    sweepCalls (toRemove w) (checkBackends w.clients { w with startingBackend := false }).2
  | _ => []

/-! ## Everything else -/

/-- The counter of the reconnects and its limit. -/
def User.tally (x : User) : Int × Int := (x.reconnectCounter, x.reconnectLimit)

/-- The effects of an operation that disconnects nobody and starts no process. -/
def Effect.Silent : Effect → Prop
  | .disconnected _ | .exec _ => False
  | _ => True

theorem Effect.Mild.silent {e : Effect} (h : e.Mild) : e.Silent := by
  cases e <;> trivial

theorem Effect.Plain.silent {e : Effect} (h : e.Plain) : e.Silent := h.tame.mild.silent

/-- The operation created nobody, counted no reconnect and started no process. -/
structure Inert (w w' : World) : Prop where
  cfg : w'.cfg = w.cfg
  nextUser : w'.nextUser = w.nextUser
  next : w'.isNextLongRun = w.isNextLongRun
  tally : ∀ v, (w'.user v).tally = (w.user v).tally
  log : Logs Effect.Silent w w'

namespace Inert

variable {P : Effect → Prop} {w w' : World} {u : UserId}

theorem of_log (hcfg : w'.cfg = w.cfg) (hnextUser : w'.nextUser = w.nextUser)
    (hnext : w'.isNextLongRun = w.isNextLongRun) (huser : w'.user = w.user)
    (hlog : Logs Effect.Silent w w') : Inert w w' :=
  ⟨hcfg, hnextUser, hnext, fun v => by rw [huser], hlog⟩

theorem of_quiet (h : Quiet P w w') (hP : ∀ e, P e → e.Silent) : Inert w w' where
  cfg := h.cfg
  nextUser := h.nextUser
  next := (congrArg Core.isNextLongRun h.core :)
  tally v := (congrArg User.tally (h.user v) :)
  log := h.log.mono hP

theorem of_idle (h : Idle w w') : Inert w w' := of_quiet h.quiet fun _ he => he.mild.silent

theorem of_pinged (h : Pinged w w') : Inert w w' :=
  of_log h.cfg h.nextUser (congrArg World.isNextLongRun h.rest :) h.user
    (h.log.mono fun _ he => Effect.Plain.silent he)

theorem modUser {f : User → User} (hf : ∀ x, (f x).tally = x.tally) :
    Inert w (w.modUser u f) := by
  refine ⟨rfl, rfl, rfl, fun v => ?_, .of_eq rfl⟩
  by_cases hv : v = u
  · subst hv
    simp [World.modUser, hf]
  · simp [World.modUser, Function.update_of_ne hv]

theorem modBackend {b : BackendId} {f : Backend → Backend} : Inert w (w.modBackend b f) :=
  of_log rfl rfl rfl rfl (.of_eq rfl)

theorem noteData (b : BackendId) (w : World) : Inert w (noteData b w) := by
  obtain ⟨v, hv⟩ := noteData_eq b w
  rw [hv]
  exact modBackend

theorem destroyed (u : UserId) (w : World) : Inert w (handleUserDestroyed u w) := by
  have hd := handleUserDestroyed_spec u w
  have hnext : (handleUserDestroyed u w).isNextLongRun = w.isNextLongRun := by
    simp only [handleUserDestroyed]
    split
    · rfl
    · exact (congrArg World.isNextLongRun (release_rest u _ _ _) :)
  refine ⟨hd.cfg, hd.nextUser, hnext, fun v => ?_, hd.log.mono fun _ he => Effect.Plain.silent he⟩
  rw [hd.user]
  by_cases hv : v = u
  · subst hv
    simp [User.tally]
  · rw [Function.update_of_ne hv]

end Inert

/-- A sequence of inert operations, searches for a backend and creations of users. -/
inductive Proceeds : World → World → Prop
  | inert {w w' : World} (h : Inert w w') : Proceeds w w'
  | search (acceptUsers longRun check : Bool) (w : World) :
      Proceeds w (getFreeClient acceptUsers longRun check w).2
  | create (j : Jid) (info : UserInfo) (w : World) : Proceeds w (withUser j info w)
  | trans {w w₁ w' : World} (h : Proceeds w w₁) (h' : Proceeds w₁ w') : Proceeds w w'

namespace Proceeds

variable {w w₁ w' : World} {u : UserId}

theorem refl (w : World) : Proceeds w w := .inert (.of_log rfl rfl rfl rfl (.of_eq rfl))

/-- A change of fields that are not mentioned. -/
theorem of_log (hcfg : w'.cfg = w.cfg) (hnextUser : w'.nextUser = w.nextUser)
    (hnext : w'.isNextLongRun = w.isNextLongRun) (huser : w'.user = w.user)
    (hlog : Logs Effect.Silent w w') : Proceeds w w' :=
  .inert (.of_log hcfg hnextUser hnext huser hlog)

theorem of_idle (h : Idle w w') : Proceeds w w' := .inert (.of_idle h)

theorem attach (how : Assignment) (c : BackendId) : Proceeds w (attach how u c w) := by
  have hdata : Inert w (w.setData u (some c)) := Inert.modUser fun _ => rfl
  have hemit : Inert (w.setData u (some c))
      ((w.setData u (some c)).emit (.assign how u c (w.backends c))) :=
    .of_log rfl rfl rfl rfl (.emit trivial)
  exact ((Proceeds.inert hdata).trans (.inert hemit)).trans (.inert .modBackend)

end Proceeds

section Proceeds

variable (u : UserId) (w : World)

theorem proceeds_created : Proceeds w (handleUserCreated u w) := by
  have hsearch := Proceeds.search true false false w
  unfold handleUserCreated
  generalize getFreeClient true false false w = r at hsearch
  obtain ⟨found, w₁⟩ := r
  cases found with
  | none => exact hsearch.trans (.of_log rfl rfl rfl rfl (.of_eq rfl))
  | some c => exact (hsearch.trans (.attach .created c)).trans (.inert (Inert.modUser fun _ => rfl))

theorem proceeds_removeUser : Proceeds w (UserManager.removeUser u w) := by
  obtain ⟨w₁, hidle, hidle'⟩ := removeUser_steps w u
  have herase : Proceeds w
      { w with users := Function.update w.users (w.user u).jid.toBare none } :=
    .of_log rfl rfl rfl rfl (.of_eq rfl)
  exact ((herase.trans (.of_idle hidle)).trans (.inert (.destroyed u w₁))).trans (.of_idle hidle')

theorem proceeds_giveUp (error : String) : Proceeds w (User.giveUp u error w) := by
  have hreport : Proceeds w (User.reportError u error w) := .of_idle (idle_reportError u error w)
  simp only [User.giveUp]
  split
  · exact hreport
  · exact hreport.trans (proceeds_removeUser u _)

theorem proceeds_serve (rest : List UserId) : Proceeds w (serve u rest w) := by
  have hqueue : Proceeds w { w with waitingUsers := rest } :=
    .of_log rfl rfl rfl rfl (.of_eq rfl)
  exact (hqueue.trans (proceeds_created u _)).trans (.of_idle (idle_serveLogin u _))

theorem proceeds_drain (n : Nat) : Proceeds w (drain n w) := by
  induction n generalizing w with
  | zero => exact .refl w
  | succ n ih =>
    unfold drain
    split
    · exact .refl w
    · rename_i u rest hwait
      have hsearch := Proceeds.search true false true w
      generalize getFreeClient true false true w = r at hsearch
      obtain ⟨found, w₁⟩ := r
      cases found with
      | none => exact hsearch
      | some c => exact hsearch.trans ((proceeds_serve u w₁ rest).trans (ih _))

theorem proceeds_connectWaitingUsers : Proceeds w (connectWaitingUsers w) := by
  have hstart : Proceeds w (w.emit .connectWaitingUsers) :=
    .of_log rfl rfl rfl rfl (.emit trivial)
  exact hstart.trans (proceeds_drain _ _)

theorem proceeds_move : Proceeds w (moveToLongRunBackend u w).2 := by
  have hsearch := Proceeds.search false true false w
  unfold moveToLongRunBackend
  split
  · exact .refl w
  · rename_i old hdata
    split
    · exact .of_log rfl rfl rfl rfl (.of_eq rfl)
    · split
      · exact .refl w
      · generalize getFreeClient false true false w = r at hsearch
        obtain ⟨found, w₁⟩ := r
        cases found with
        | none => exact hsearch
        | some c =>
          have hflag : Proceeds w₁ (w₁.modUser u fun x => { x with ignoreDisconnect := true }) :=
            .inert (Inert.modUser fun _ => rfl)
          have hleft : Proceeds w (removeFrom u old
              (w₁.modUser u fun x => { x with ignoreDisconnect := true })) :=
            (hsearch.trans hflag).trans (.inert .modBackend)
          exact (hleft.trans (.attach .moved c)).trans
            (.of_idle (idle_handleUserReadyToConnect u _))

theorem proceeds_moveIdleUsers : Proceeds w (moveIdleUsers w) := by
  have hloop : ∀ (us : List UserId) (w : World), Proceeds w (moveUsers us w) := by
    intro us
    induction us with
    | nil => exact fun w => .refl w
    | cons u us ih =>
      intro w
      have hmove := proceeds_move u w
      unfold moveUsers
      generalize moveToLongRunBackend u w = r at hmove
      obtain ⟨ok, w₁⟩ := r
      cases ok with
      | false => exact hmove
      | true => exact hmove.trans (ih w₁)
  unfold moveIdleUsers
  split
  · exact .refl w
  · exact hloop _ w

theorem proceeds_check : Proceeds (moveIdleUsers w) (checkBackends (moveIdleUsers w).clients
    { moveIdleUsers w with startingBackend := false }).2 := by
  have hflag : Proceeds (moveIdleUsers w) { moveIdleUsers w with startingBackend := false } :=
    .of_log rfl rfl rfl rfl (.of_eq rfl)
  exact hflag.trans (.inert (.of_pinged (pinged_checkBackends _ _)))

theorem proceeds_pong (b : BackendId) : Proceeds w (handlePongReceived b w) := by
  have hemit : Proceeds w (w.emit (.pong b)) := .of_log rfl rfl rfl rfl (.emit trivial)
  have hstart : ∀ w₁ : World, Proceeds w₁ (startComponent w₁) := by
    intro w₁
    refine .inert (.of_quiet (quiet_startComponent w₁) fun e he => ?_)
    rw [he]
    trivial
  simp only [handlePongReceived]
  split
  · exact (((hemit.trans (.inert .modBackend)).trans (hstart _)).trans
      (proceeds_connectWaitingUsers _)).trans (.inert .modBackend)
  · exact hemit.trans (.inert .modBackend)

theorem proceeds_newBackend : Proceeds w (handleNewClientConnection w) := by
  have hj := joined_newBackend w
  have hnext : (handleNewClientConnection w).isNextLongRun = w.isNextLongRun := by
    rw [handleNewClientConnection_eq]
    exact (congrArg World.isNextLongRun (pinged_sendPing w.nextBackend (withBackend w)).rest :)
  exact .of_log hj.cfg hj.nextUser hnext hj.user (hj.log.mono fun _ he => Effect.Plain.silent he)

theorem proceeds_front {w w' : World} (h : Front Effect.Mild w w') : Proceeds w w' := by
  induction h with
  | quiet hq => exact .inert (.of_quiet hq fun _ he => he.silent)
  | @create w j info _ =>
    rw [addUser_eq]
    exact (Proceeds.create j info w).trans (proceeds_created _ _)
  | @remove w w' u j _ hq =>
    have herase : Proceeds w
        { w with users := Function.update w.users (w.user u).jid.toBare none } :=
      .of_log rfl rfl rfl rfl (.of_eq rfl)
    have hquiet := herase.trans (.inert (.of_quiet hq fun _ he => he.silent))
    exact hquiet.trans (.inert (.destroyed u w'))
  | trans _ _ ih ih' => exact ih.trans ih'

/-- The events without a call, except for a CONNECTED. -/
theorem proceeds_run {e : Event} (hconn : ∀ b j pw, e ≠ .received b (.connected j pw))
    (hdisc : ∀ b j error message, e ≠ .received b (.disconnected j error message))
    (hlost : ∀ b, e ≠ .backendLost b) (hping : e ≠ .pingTimeout) : Proceeds w (e.run w) := by
  cases e with
  | clock now => exact .of_log rfl rfl rfl rfl (.of_eq rfl)
  | backendConnected => exact proceeds_newBackend w
  | backendLost b => exact absurd rfl (hlost b)
  | received b m =>
    have hnote : Proceeds w (noteData b w) := .inert (.noteData b w)
    cases m with
    | connected j pw => exact absurd rfl (hconn b j pw)
    | disconnected j error message => exact absurd rfl (hdisc b j error message)
    | pong => exact hnote.trans (proceeds_pong _ b)
    | stats res id => exact hnote.trans (.of_log rfl rfl rfl rfl (.of_eq rfl))
    | other => exact hnote
  | pingTimeout => exact absurd rfl hping
  | loginDelay =>
    have hstop : Proceeds w { w with loginTimer := false } :=
      .of_log rfl rfl rfl rfl (.of_eq rfl)
    exact hstop.trans (proceeds_connectWaitingUsers _)
  | collect =>
    simp only [Event.run, collectBackend]
    split
    · exact .refl w
    · exact .inert .modBackend
  | activity u =>
    simp only [Event.run]
    exact .inert (Inert.modUser fun _ => rfl)
  | _ => exact proceeds_front (front_run rfl w)

end Proceeds

/-! ## One call -/

/-- The state of a call once it is counted. -/
def Call.counted (c : Call) : World :=
  if c.recreates then
    (c.world.emit (.disconnected c.user)).modUser c.user fun y =>
      { y with reconnectCounter := y.reconnectCounter + 1 }
  else c.world.emit (.disconnected c.user)

theorem Call.proceeds_after (c : Call) : Proceeds c.counted c.after := by
  unfold Call.counted
  rcases c.after_cases with ⟨-, hrec, heq⟩ | ⟨-, hrec, heq⟩ | ⟨-, hrec, heq⟩
  · rw [heq, hrec]
    exact .refl _
  · rw [heq, hrec]
    exact ((Proceeds.inert (.destroyed c.user _)).trans (proceeds_created c.user _)).trans
      (.of_idle (idle_onReadyToConnect c.user _))
  · rw [heq, hrec]
    exact proceeds_giveUp c.user _ c.message

/-! ## The calls of an event -/

/-- A sequence of calls about users of the map, and of operations that disconnect nobody. -/
inductive Calling : World → List Call → World → Prop
  | other {w w' : World} (h : Proceeds w w') : Calling w [] w'
  | call {x : Option BackendId} {c : Call} (hlink : Link x none c.world)
      (hm : c.world.Managed c.user) : Calling c.world [c] c.after
  | trans {w w₁ w' : World} {cs cs' : List Call} (h : Calling w cs w₁) (h' : Calling w₁ cs' w') :
      Calling w (cs ++ cs') w'

namespace Calling

variable {x : Option BackendId} {w w₁ w' : World} {u : UserId} {cs : List Call}

theorem before (ht : Proceeds w w₁) (h : Calling w₁ cs w') : Calling w cs w' := .trans (.other ht) h

theorem andThen (h : Calling w cs w₁) (ht : Proceeds w₁ w') : Calling w cs w' := by
  have hboth := h.trans (.other ht)
  rwa [List.append_nil] at hboth

theorem drop (hlink : Link x none w) (hu : Pending x u w) :
    Calling w [dropCall w u] (dropUser w u) := by
  have hset : Proceeds w (w.setData u none) := .inert (Inert.modUser fun _ => rfl)
  exact .before hset (Calling.call (c := dropCall w u) (hlink.setData hu.unplaced none)
    (hu.setData none).managed)

/-- The loop of `handleSessionFinished`. -/
theorem dropUsers {us : List UserId} (hnodup : us.Nodup) (hlink : Link x none w)
    (hpending : ∀ v ∈ us, Pending x v w) : Calling w (dropCalls us w) (us.foldl dropUser w) := by
  have hstart : ∃ cs, Calling w cs w ∧ dropCalls us w = cs ++ dropCalls us w :=
    ⟨[], .other (.refl w), rfl⟩
  obtain ⟨-, cs, hcs, heq⟩ := dropUsers_induction
    (I := fun us' w' => ∃ cs, Calling w cs w' ∧ dropCalls us w = cs ++ dropCalls us' w')
    (fun u us' w' _ hlink' hu _ ⟨cs, hcs, heq⟩ =>
      ⟨cs ++ [dropCall w' u], hcs.trans (drop hlink' hu), by
        rw [heq, List.append_assoc]
        rfl⟩)
    hnodup hlink hpending hstart
  rw [heq, dropCalls, List.append_nil]
  exact hcs

theorem finished (hlink : Link none none w) (b : BackendId) :
    Calling w (finishCalls b w) (handleSessionFinished b w) := by
  by_cases hb : b ∈ w.clients
  · have hmark : Proceeds w (markDying b w) := .of_log rfl rfl rfl rfl (.emit trivial)
    have hcrash := idle_noteCrash b (markDying b w)
    have hloop := dropUsers (hlink.users_nodup b hb (by simp))
      ((hlink.markDying b).of_same hcrash.sameLinks)
      (fun v hv => (pending_markDying hlink hb v hv).of_same hcrash.sameLinks)
    have hend := Proceeds.of_idle (idle_send ((w.backends b).users.foldl dropUser
      (noteCrash b (markDying b w))) b (m := .exit) trivial)
    rw [finishCalls, if_pos hb, handleSessionFinished_eq hb]
    exact .before (hmark.trans (.of_idle hcrash))
      (hloop.andThen (hend.trans (.of_log rfl rfl rfl rfl (.of_eq rfl))))
  · rw [finishCalls, if_neg hb, handleSessionFinished, if_pos hb]
    exact .other (.of_log rfl rfl rfl rfl (.of_eq rfl))

theorem sweep {bs : List BackendId} (hlink : Link none none w) :
    Calling w (sweepCalls bs w) (bs.foldl (fun w b => handleSessionFinished b w) w) := by
  induction bs generalizing w with
  | nil => exact .other (.refl w)
  | cons b bs ih => exact (finished hlink b).trans (ih (hlink.finished b))

/-- An event other than a CONNECTED. -/
theorem run (hlink : Link none none w) {e : Event}
    (hconn : ∀ b j pw, e ≠ .received b (.connected j pw)) : Calling w (calls w e) (e.run w) := by
  by_cases hdisc : ∃ b j error message, e = .received b (.disconnected j error message)
  · obtain ⟨b, j, error, message, rfl⟩ := hdisc
    have haside := aside_onPasswordInvalid (noteData b w) j message
    have hbefore := (Proceeds.inert (.noteData b w)).trans
      (.inert (.of_quiet haside.quiet fun _ he => he.mild.silent))
    have hlink₁ := (hlink.noteData b).of_same haside.quiet.sameLinks
    simp only [Event.run, handleMessage, handleDisconnectedPayload, calls]
    generalize UserRegistry.onPasswordInvalid j message (noteData b w) = w₁ at hbefore hlink₁
    cases hu : w₁.users j with
    | none => exact .other hbefore
    | some u =>
      exact .before hbefore (Calling.call (c := ⟨w₁, u, error, message⟩) hlink₁
        (hlink₁.managed_of_users hu))
  · by_cases hlost : ∃ b, e = .backendLost b
    · obtain ⟨b, rfl⟩ := hlost
      exact finished hlink b
    · by_cases hping : e = .pingTimeout
      · subst hping
        have hlink₁ : Link none none { moveIdleUsers w with startingBackend := false } :=
          hlink.moveIdleUsers.of_same (.of_links rfl)
        exact .before ((proceeds_moveIdleUsers w).trans (proceeds_check w))
          (sweep (hlink₁.checkBackends _))
      · have hnone : calls w e = [] := by
          unfold calls
          split
          · exact absurd ⟨_, _, _, _, rfl⟩ hdisc
          · exact absurd ⟨_, rfl⟩ hlost
          · exact absurd rfl hping
          · rfl
        rw [hnone]
        exact .other (proceeds_run w hconn
          (fun b j error message heq => hdisc ⟨b, j, error, message, heq⟩)
          (fun b heq => hlost ⟨b, heq⟩) hping)

end Calling

end Spectrum
