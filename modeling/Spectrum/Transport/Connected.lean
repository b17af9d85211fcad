import Spectrum.Transport.Password
import Spectrum.Transport.Sweep

/-!
# Who counts as connected

`User::setConnected` is called for a CONNECTED of the backend and for nothing else, so
`isConnected` is never taken back: a user who is reconnected automatically, or who ignores the
end of his backend because he is being moved, still counts as connected. The flag agrees with
what the backends have reported in the runs where a connected user whose backend disconnects him
or ends is given up (`Parts`).
-/

namespace Spectrum

open World NetworkPluginServer

/-- What a step says about the connection of a user. -/
inductive Report
  | connected
  | lost
  deriving DecidableEq, Repr

/-- A CONNECTED for the user. -/
def Event.connects (u : UserId) (w : World) : Event → Bool
  | .received _ (.connected j _) => w.users j = some u
  | _ => false

/-- A DISCONNECTED for the user that is not ignored because of a move. -/
def Event.disconnects (u : UserId) (w : World) : Event → Bool
  | .received _ (.disconnected j _ _) =>
    w.users j = some u ∧ (w.user u).ignoreDisconnect = false
  | _ => false

/-- The backend of the user ends, by itself or in the ping sweep. -/
def Event.losesBackend (u : UserId) (w : World) : Event → Bool
  | .backendLost b => u ∈ (w.backends b).users
  | .pingTimeout =>
    (toRemove (moveIdleUsers w)).any fun b => u ∈ ((moveIdleUsers w).backends b).users
  | _ => false

/-- An automatic reconnect is part of a step of the second kind. -/
def report (u : UserId) (w : World) (e : Event) : Option Report :=
  if e.connects u w then some .connected
  else if w.users (w.user u).jid = some u ∧
      (e.disconnects u w = true ∨ e.losesBackend u w = true) then some .lost
  else none

/-- The newest report about the user. -/
def newest (u : UserId) : List (World × Event) → Option Report
  | [] => none
  | (w, e) :: tr => (report u w e).or (newest u tr)

/-- The user gives up when he is disconnected with this error, if he is connected. -/
def User.parts (x : User) (e : ConnectionError) : Bool :=
  x.connected → x.ignoreDisconnect = false ∧ x.reconnects e = false

/-- The condition. A connected user who is disconnected by his backend, or whose backend ends,
is neither reconnected nor in a move. -/
def Parts (w : World) : Event → Prop
  | .received _ (.disconnected j error _) => ∀ u ∈ w.users j,
      (w.user u).ignoreDisconnect = false → (w.user u).parts error = true
  | .backendLost b => ∀ u ∈ (w.backends b).users, (w.user u).parts .otherError = true
  | .pingTimeout => ∀ b ∈ toRemove (moveIdleUsers w), ∀ u ∈ ((moveIdleUsers w).backends b).users,
      ((moveIdleUsers w).user u).parts .otherError = true
  | _ => True

instance (w : World) (e : Event) : Decidable (Parts w e) :=
  match e with
  | .received _ (.disconnected j error _) => inferInstanceAs (Decidable (∀ u ∈ w.users j,
      (w.user u).ignoreDisconnect = false → (w.user u).parts error = true))
  | .backendLost b => inferInstanceAs (Decidable (∀ u ∈ (w.backends b).users,
      (w.user u).parts .otherError = true))
  | .pingTimeout => inferInstanceAs (Decidable (∀ b ∈ toRemove (moveIdleUsers w),
      ∀ u ∈ ((moveIdleUsers w).backends b).users,
        ((moveIdleUsers w).user u).parts .otherError = true))
  | .received _ (.connected ..) | .received _ .pong | .received _ (.stats ..)
  | .received _ .other | .clock _ | .backendConnected | .loginDelay | .collect | .presence _
  | .caps .. | .connectingTimeout _ | .activity _ | .removeTick | .unregister _ | .registryTick
  | .openSession _ | .streamStart .. | .element .. | .closeSession _ => isTrue trivial

/-! ## Behind the scenes users only leave -/

/-- Nobody has become ready or connected, and nobody is new. -/
structure Fades (w w' : World) : Prop where
  profile : ∀ v, (w'.user v).profile = (w.user v).profile
  users : ∀ j v, w'.users j = some v → w.users j = some v
  nextUser : w'.nextUser = w.nextUser

namespace Fades

variable {w w₁ w' : World}

theorem refl (w : World) : Fades w w := ⟨fun _ => rfl, fun _ _ h => h, rfl⟩

theorem trans (h : Fades w w₁) (h' : Fades w₁ w') : Fades w w' where
  profile := fun v => (h'.profile v).trans (h.profile v)
  users := fun j v hv => h.users j v (h'.users j v hv)
  nextUser := h'.nextUser.trans h.nextUser

theorem of_mute {z : Option UserId} (hm : Mute z w w') (husers : w'.users = w.users) :
    Fades w w' := ⟨hm.profile, fun j v hv => by rwa [husers] at hv, hm.nextUser⟩

theorem foldl {α : Type} {f : World → α → World} (hf : ∀ w a, Fades w (f w a)) (l : List α)
    (w : World) : Fades w (l.foldl f w) := by
  induction l generalizing w with
  | nil => exact .refl w
  | cons a l ih => exact (hf w a).trans (ih (f w a))

theorem connected (h : Fades w w') (v : UserId) :
    (w'.user v).connected = (w.user v).connected := congrArg (fun p => p.2.2.1) (h.profile v)

theorem managed (h : Fades w w') {v : UserId} (hv : w'.Managed v) : w.Managed v := by
  have hjid : (w'.user v).jid = (w.user v).jid := congrArg (fun p => p.1) (h.profile v)
  unfold Managed at hv
  rw [hjid] at hv
  exact h.users _ v hv

end Fades

section Fades

variable (u : UserId) (w : World)

theorem fades_removeUser : Fades w (UserManager.removeUser u w) := by
  have hm := mute_removeUser u w
  refine ⟨hm.profile, ?_, hm.nextUser⟩
  intro j v hv
  rw [removeUser_users] at hv
  by_cases hj : j = (w.user u).jid.toBare
  · subst hj
    simp at hv
  · rwa [Function.update_of_ne hj] at hv

theorem fades_disconnected (error : String) (e : ConnectionError) :
    Fades w (User.handleDisconnected u error e w) := by
  have hemit : Fades w (w.emit (.disconnected u)) := ⟨fun _ => rfl, fun _ _ h => h, rfl⟩
  rcases handleDisconnected_cases u error e w with ⟨-, heq⟩ | ⟨-, -, heq⟩ | ⟨-, -, heq⟩
  · rw [heq]
    exact hemit
  · rw [heq]
    exact hemit.trans (.of_mute (mute_reconnect u _) (reconnect_users u _))
  · have hidle := idle_reportError u error (w.emit (.disconnected u))
    have hreport := hemit.trans (.of_mute (z := none) (.of_idle hidle) hidle.quiet.users)
    rw [heq]
    unfold User.giveUp
    dsimp only
    split
    · exact hreport
    · exact hreport.trans (fades_removeUser u _)

theorem fades_dropUser : Fades w (dropUser w u) := by
  have hdata : Fades w (w.setData u none) :=
    .of_mute (z := none) (Mute.modUser fun _ => ⟨rfl, rfl⟩) rfl
  exact hdata.trans (fades_disconnected u _ _ _)

theorem fades_finished (c : BackendId) : Fades w (handleSessionFinished c w) := by
  by_cases hc : c ∈ w.clients
  · obtain ⟨w₁, w₂, hidle₁, hidle₂, heq⟩ := handleSessionFinished_steps hc
    have hmark : Fades w (markDying c w) := ⟨fun _ => rfl, fun _ _ h => h, rfl⟩
    have hstart := hmark.trans (.of_mute (z := none) (.of_idle hidle₁) hidle₁.quiet.users)
    have hloop := hstart.trans (.foldl (fun w u => fades_dropUser u w) (w.backends c).users w₁)
    have hend := hloop.trans (.of_mute (z := none) (.of_idle hidle₂) hidle₂.quiet.users)
    rw [heq]
    exact hend.trans ⟨fun _ => rfl, fun _ _ h => h, rfl⟩
  · unfold handleSessionFinished
    rw [if_pos hc]
    exact ⟨fun _ => rfl, fun _ _ h => h, rfl⟩

theorem fades_moveIdleUsers : Fades w (moveIdleUsers w) := by
  have hloop : ∀ (us : List UserId) (w : World), Fades w (moveUsers us w) := by
    intro us
    induction us with
    | nil => exact fun w => .refl w
    | cons u us ih =>
      intro w
      have hmove : Fades w (moveToLongRunBackend u w).2 := .of_mute (mute_move u w) (move_users u w)
      unfold moveUsers
      generalize moveToLongRunBackend u w = r at hmove
      obtain ⟨ok, w₁⟩ := r
      cases ok with
      | false => exact hmove
      | true => exact hmove.trans (ih w₁)
  unfold moveIdleUsers
  split
  · exact .refl w
  · exact hloop _ w

theorem fades_checkBackends (bs : List BackendId) :
    Fades w (checkBackends bs { w with startingBackend := false }).2 := by
  have hping := pinged_checkBackends bs { w with startingBackend := false }
  have hflag : Fades w { w with startingBackend := false } := ⟨fun _ => rfl, fun _ _ h => h, rfl⟩
  exact hflag.trans (.of_mute (z := none) (.of_pinged hping) hping.users)

theorem fades_connectWaitingUsers : Fades w (connectWaitingUsers w) := by
  refine drain_induction (I := Fades w) ?_ ?_ _ _ ⟨fun _ => rfl, fun _ _ h => h, rfl⟩
  · intro w₁ w₂ hs h
    exact h.trans (.of_mute (z := none) (.of_searched hs) hs.users)
  · intro w₁ u rest c _ _ _ h
    exact h.trans (.of_mute (mute_serve u w₁ rest) (serve_users u w₁ rest))

theorem fades_pong (b : BackendId) : Fades w (handlePongReceived b w) := by
  have hback : ∀ (w : World) (f : Backend → Backend), Fades w (w.modBackend b f) :=
    fun _ _ => ⟨fun _ => rfl, fun _ _ h => h, rfl⟩
  have hemit : Fades w (w.emit (.pong b)) := ⟨fun _ => rfl, fun _ _ h => h, rfl⟩
  have hstart : ∀ w₁ : World, Fades w₁ (startComponent w₁) :=
    fun w₁ => .of_mute (z := none) .startComponent (quiet_startComponent w₁).users
  simp only [handlePongReceived]
  split
  · exact (((hemit.trans (hback _ _)).trans (hstart _)).trans
      (fades_connectWaitingUsers _)).trans (hback _ _)
  · exact hemit.trans (hback _ _)

theorem fades_noteData (b : BackendId) : Fades w (noteData b w) := by
  obtain ⟨v, hv⟩ := noteData_eq b w
  rw [hv]
  exact ⟨fun _ => rfl, fun _ _ h => h, rfl⟩

/-- The events of the backends, except for a CONNECTED. -/
theorem fades_run {e : Event} (hfront : e.isFront = false)
    (hconn : ∀ b j pw, e ≠ .received b (.connected j pw)) : Fades w (e.run w) := by
  cases e with
  | clock now => exact ⟨fun _ => rfl, fun _ _ h => h, rfl⟩
  | backendConnected =>
    have hj := joined_newBackend w
    exact ⟨fun v => by rw [Event.run, hj.user], fun j v hv => by rwa [Event.run, hj.users] at hv,
      hj.nextUser⟩
  | backendLost b => exact fades_finished w b
  | received b m =>
    have hnote := fades_noteData w b
    cases m with
    | connected j pw => exact absurd rfl (hconn b j pw)
    | disconnected j error message =>
      have haside := aside_onPasswordInvalid (noteData b w) j message
      have hinvalid := hnote.trans (.of_mute (z := none) (.of_aside haside.toApart) haside.quiet.users)
      simp only [Event.run, handleMessage, handleDisconnectedPayload]
      split
      · exact hinvalid
      · exact hinvalid.trans (fades_disconnected _ _ message error)
    | pong => exact hnote.trans (fades_pong _ b)
    | stats res id => exact hnote.trans ⟨fun _ => rfl, fun _ _ h => h, rfl⟩
    | other => exact hnote
  | pingTimeout =>
    have hcheck := (fades_moveIdleUsers w).trans
      (fades_checkBackends (moveIdleUsers w) (moveIdleUsers w).clients)
    exact hcheck.trans (.foldl (fun w b => fades_finished w b) _ _)
  | loginDelay =>
    have hstop : Fades w { w with loginTimer := false } := ⟨fun _ => rfl, fun _ _ h => h, rfl⟩
    exact hstop.trans (fades_connectWaitingUsers _)
  | collect =>
    simp only [Event.run, collectBackend]
    split
    · exact .refl w
    · exact ⟨fun _ => rfl, fun _ _ h => h, rfl⟩
  | activity u =>
    simp only [Event.run]
    exact .of_mute (z := none) (Mute.modUser fun _ => ⟨rfl, rfl⟩) rfl
  | _ => cases hfront

end Fades

/-! ## Who is in the map after a step -/

/-- A user of the map was there before, with the same connection, or is new and not connected. -/
structure Abides (w w' : World) : Prop where
  nextUser : w.nextUser ≤ w'.nextUser
  managed : ∀ u, w'.Managed u →
    w.Managed u ∧ (w'.user u).connected = (w.user u).connected ∨
      w.nextUser ≤ u ∧ (w'.user u).connected = false

section Abides

variable {w w₁ w' : World} {u : UserId}

theorem Abides.trans (h : Abides w w₁) (h' : Abides w₁ w') : Abides w w' := by
  refine ⟨h.nextUser.trans h'.nextUser, fun u hu => ?_⟩
  rcases h'.managed u hu with ⟨hm, hconn⟩ | ⟨hnew, hconn⟩
  · rw [hconn]
    exact h.managed u hm
  · exact .inr ⟨h.nextUser.trans hnew, hconn⟩

theorem Fades.abides (h : Fades w w') : Abides w w' :=
  ⟨h.nextUser.ge, fun u hu => .inl ⟨h.managed hu, h.connected u⟩⟩

theorem Quiet.abides {P : Effect → Prop} (h : Quiet P w w') : Abides w w' := by
  refine ⟨h.nextUser.ge, fun u hu => .inl ⟨h.sameLinks.managed.mp hu, ?_⟩⟩
  exact (congrArg User.connected (h.user u) :)

theorem abides_withUser (j : Jid) (info : UserInfo) (w : World) : Abides w (withUser j info w) := by
  refine ⟨Nat.le_succ _, fun u hu => ?_⟩
  by_cases hnew : u = w.nextUser
  · subst hnew
    exact .inr ⟨le_refl _, by simp [withUser]⟩
  · have huser : (withUser j info w).user u = w.user u := by
      simp [withUser, Function.update_of_ne hnew]
    left
    rw [huser]
    refine ⟨?_, rfl⟩
    unfold Managed at hu ⊢
    rw [huser] at hu
    by_cases hj : (w.user u).jid = j.toBare
    · simp only [withUser, hj, Function.update_self] at hu
      exact absurd (Option.some.inj hu).symm hnew
    · simpa [withUser, Function.update_of_ne hj] using hu

theorem abides_front {P : Effect → Prop} (h : Front P w w') : Abides w w' := by
  induction h with
  | quiet hq => exact hq.abides
  | @create w j info _ =>
    have hcreated : Fades (withUser j info w) (handleUserCreated w.nextUser (withUser j info w)) :=
      .of_mute (mute_created _ _) (created_users _ _)
    rw [addUser_eq]
    exact (abides_withUser j info w).trans hcreated.abides
  | @remove w w' u j _ hq =>
    have herase : Fades w
        { w with users := Function.update w.users (w.user u).jid.toBare none } := by
      refine ⟨fun _ => rfl, fun k v hv => ?_, rfl⟩
      by_cases hk : k = (w.user u).jid.toBare
      · subst hk
        simp at hv
      · simpa [Function.update_of_ne hk] using hv
    have hdestroyed : Fades w' (handleUserDestroyed u w') :=
      .of_mute (mute_destroyed u w') (handleUserDestroyed_spec u w').users
    exact (herase.abides.trans hq.abides).trans hdestroyed.abides
  | trans _ _ ih ih' => exact ih.trans ih'

theorem abides_run {e : Event} (hconn : ∀ b j pw, e ≠ .received b (.connected j pw)) (w : World) :
    Abides w (e.run w) := by
  by_cases hfront : e.isFront = true
  · exact abides_front (front_run hfront w)
  · exact (fades_run w (by simpa using hfront) hconn).abides

end Abides

/-! ## Users who are given up -/

section GivenUp

variable {x : Option BackendId} {w w' : World} {u v : UserId}

/-- The user is given up when he is disconnected with an internal error. -/
def Doomed (u : UserId) (w : World) : Prop :=
  (w.user u).ignoreDisconnect = false ∧ User.reconnects (w.user u) .otherError = false

theorem Doomed.of_core (h : Doomed u w) (hcore : (w'.user u).core = (w.user u).core) :
    Doomed u w' := by
  have hignore : (w'.user u).ignoreDisconnect = (w.user u).ignoreDisconnect :=
    (congrArg User.ignoreDisconnect hcore :)
  have hrec : User.reconnects (w'.user u) .otherError = User.reconnects (w.user u) .otherError :=
    (congrArg (fun y => User.reconnects y .otherError) hcore :)
  exact ⟨hignore.trans h.1, hrec.trans h.2⟩

theorem dropUser_not_managed (hlink : Link x none w) (hu : Pending x u w) (hd : Doomed u w) :
    ¬ (dropUser w u).Managed u := by
  have huser : (w.setData u none).user u = { w.user u with data := none } := by
    simp [setData, World.modUser]
  refine disconnected_not_managed (hlink.setData hu.unplaced none) (hu.setData none).managed ?_ ?_ _
  · rw [huser]
    exact hd.1
  · rw [huser]
    exact hd.2

/-- The user is where he was. -/
structure Untouched (u : UserId) (w w' : World) : Prop where
  user : (w'.user u).core = (w.user u).core
  listed : ∀ b, u ∈ (w'.backends b).users ↔ u ∈ (w.backends b).users
  managed : w'.Managed u ↔ w.Managed u

theorem Others.untouched {z : Option UserId} (h : Others z w w') (hu : some u ≠ z) :
    Untouched u w w' := ⟨h.user u hu, h.listed u hu, h.managed u hu⟩

theorem Untouched.trans {w₁ : World} (h : Untouched u w w₁) (h' : Untouched u w₁ w') :
    Untouched u w w' where
  user := h'.user.trans h.user
  listed := fun b => (h'.listed b).trans (h.listed b)
  managed := h'.managed.trans h.managed

/-- The loop of `handleSessionFinished`, started in `w₁` for the users `us₁`. -/
structure Leaving (u : UserId) (us₁ : List UserId) (w₁ : World) (us : List UserId) (w : World) :
    Prop where
  gone : u ∈ us₁ → u ∉ us → Doomed u w₁ → ¬ w.Managed u
  there : u ∈ us ∨ u ∉ us₁ → Untouched u w₁ w
  sub : ∀ v ∈ us, v ∈ us₁

theorem Leaving.step {us₁ us : List UserId} {w₁ : World} (hnot : v ∉ us)
    (hlink : Link x none w) (hv : Pending x v w) (h : Leaving u us₁ w₁ (v :: us) w) :
    Leaving u us₁ w₁ us (dropUser w v) := by
  have hsub : ∀ v' ∈ us, v' ∈ us₁ := fun v' hv' => h.sub v' (List.mem_cons_of_mem v hv')
  by_cases huv : u = v
  · subst huv
    have hunt := h.there (.inl List.mem_cons_self)
    refine ⟨fun _ _ hd => dropUser_not_managed hlink hv (hd.of_core hunt.user), ?_, hsub⟩
    rintro (hmem | hmem)
    · exact absurd hmem hnot
    · exact absurd (h.sub u List.mem_cons_self) hmem
  · have hunt : Untouched u w (dropUser w v) :=
      (others_dropUser hlink hv).untouched (by simpa using huv)
    refine ⟨fun hmem hu hd => ?_, fun hu => (h.there ?_).trans hunt, hsub⟩
    · rw [hunt.managed]
      exact h.gone hmem (by simp [huv, hu]) hd
    · exact hu.imp_left fun hmem => List.mem_cons_of_mem v hmem

/-- The end of a backend: a doomed user of it is gone, a user of another one is untouched. -/
theorem finished_user (u : UserId) (hlink : Link none none w) {c : BackendId}
    (hc : c ∈ w.clients) :
    (u ∈ (w.backends c).users → Doomed u w → ¬ (handleSessionFinished c w).Managed u) ∧
      (u ∉ (w.backends c).users → Untouched u w (handleSessionFinished c w)) := by
  obtain ⟨w₁, w₂, hidle₁, hidle₂, heq⟩ := handleSessionFinished_steps hc
  have hmark : Others none w (markDying c w) :=
    .of_fields rfl (fun _ => rfl) (markDying_users c) rfl rfl
  have hstart : Untouched u w w₁ := (hmark.trans (.of_idle hidle₁)).untouched (by simp)
  have hfirst : Leaving u (w.backends c).users w (w.backends c).users w₁ :=
    ⟨fun hmem hnot => absurd hmem hnot, fun _ => hstart, fun _ hv => hv⟩
  obtain ⟨-, hloop⟩ := dropUsers_induction (I := Leaving u (w.backends c).users w)
    (fun v us w hnot hlink hv _ h => h.step hnot hlink hv)
    (hlink.users_nodup c hc (by simp)) ((hlink.markDying c).of_same hidle₁.sameLinks)
    (fun v hv => (pending_markDying hlink hc v hv).of_same hidle₁.sameLinks) hfirst
  have hidle : Others none _ w₂ := .of_idle hidle₂
  have hdrop : Others none w₂ (w₂.modBackend c fun b => { b with connection := false }) :=
    .modBackend fun _ => rfl
  have hend := (hidle.trans hdrop).untouched (u := u) (by simp)
  have hclients : Untouched u (w₂.modBackend c fun b => { b with connection := false })
      (handleSessionFinished c w) := by
    rw [heq]
    exact ⟨rfl, fun _ => Iff.rfl, Iff.rfl⟩
  have hrest := hend.trans hclients
  refine ⟨fun hmem hd => ?_, fun hmem => (hloop.there (.inr hmem)).trans hrest⟩
  rw [hrest.managed]
  exact hloop.gone hmem (by simp) hd

/-- Backends are ended, and the one of a doomed user is among them. -/
theorem finishAll_not_managed {bs : List BackendId} (hlink : Link none none w) {c : BackendId}
    (hc : c ∈ bs) (hclient : c ∈ w.clients) (hu : u ∈ (w.backends c).users) (hd : Doomed u w) :
    ¬ (bs.foldl (fun w b => handleSessionFinished b w) w).Managed u := by
  induction bs generalizing w with
  | nil => cases hc
  | cons b bs ih =>
    rw [List.foldl_cons]
    by_cases hbc : b = c
    · subst hbc
      have hgone := (finished_user u hlink hclient).1 hu hd
      exact fun hm => hgone ((Fades.foldl (fun w b => fades_finished w b) bs _).managed hm)
    · have hmem : c ∈ bs := (List.mem_cons.mp hc).resolve_left (Ne.symm hbc)
      by_cases hb : b ∈ w.clients
      · -- a user is listed once, so he is not a user of this backend
        have hnot : u ∉ (w.backends b).users := by
          intro hub
          have hdata := hlink.linked b hb (by simp) u hub
          rw [hlink.linked c hclient (by simp) u hu] at hdata
          exact hbc (Option.some.inj hdata).symm
        have hunt := (finished_user u hlink hb).2 hnot
        refine ih (hlink.finished b) hmem ?_ ((hunt.listed c).mpr hu) (hd.of_core hunt.user)
        rw [(finished_spec hb).2.1]
        simpa using ⟨hclient, Ne.symm hbc⟩
      · have heq : handleSessionFinished b w = { w with fault := true } := by
          unfold handleSessionFinished
          rw [if_pos hb]
        rw [heq]
        exact ih (heq ▸ hlink.finished b) hmem hclient hu hd

/-- A connected user who is disconnected or loses his backend is gone after a step that meets the
condition. -/
theorem lost_not_managed (hlink : Link none none w) {e : Event} (henabled : e.enabled w = true)
    (hp : Parts w e) (hconn : (w.user u).connected = true)
    (hlost : e.disconnects u w = true ∨ e.losesBackend u w = true) : ¬ (e.run w).Managed u := by
  have hparts : ∀ {x : User} {error : ConnectionError}, x.parts error = true →
      x.connected = true → x.ignoreDisconnect = false ∧ x.reconnects error = false := by
    intro x error h hx
    exact of_decide_eq_true h hx
  rcases hlost with hlost | hlost
  · cases e with
    | received b m =>
      cases m with
      | disconnected j error message =>
        obtain ⟨hu, hignore⟩ := of_decide_eq_true hlost
        obtain ⟨-, hrec⟩ := hparts (hp u hu hignore) hconn
        have hnote : Others none w (noteData b w) := .noteData b
        have haside := aside_onPasswordInvalid (noteData b w) j message
        have hafter := hnote.trans (.of_quiet haside.quiet)
        have hlink₁ := (hlink.noteData b).of_same haside.quiet.sameLinks
        have hu₁ : (UserRegistry.onPasswordInvalid j message (noteData b w)).users j = some u := by
          rw [haside.quiet.users]
          obtain ⟨v, hv⟩ := noteData_eq b w
          rw [hv]
          exact hu
        have hrec₁ : User.reconnects
            ((UserRegistry.onPasswordInvalid j message (noteData b w)).user u) error =
            User.reconnects (w.user u) error :=
          (congrArg (fun y => User.reconnects y error) (hafter.user u (by simp)) :)
        simp only [Event.run, handleMessage, handleDisconnectedPayload, hu₁]
        exact disconnected_not_managed hlink₁ (hlink₁.managed_of_users hu₁)
          ((hafter.ignoreDisconnect (by simp)).trans hignore) (hrec₁.trans hrec) message
      | _ => cases hlost
    | _ => cases hlost
  · cases e with
    | backendLost b =>
      have hmem : u ∈ (w.backends b).users := of_decide_eq_true hlost
      have hb : b ∈ w.clients := of_decide_eq_true henabled
      exact (finished_user u hlink hb).1 hmem (hparts (hp u hmem) hconn)
    | pingTimeout =>
      obtain ⟨b, hb, hmem⟩ := List.any_eq_true.mp hlost
      have hmem' : u ∈ ((moveIdleUsers w).backends b).users := of_decide_eq_true hmem
      have hconn' : ((moveIdleUsers w).user u).connected = true := by
        rw [(fades_moveIdleUsers w).connected u]
        exact hconn
      have hd : Doomed u (moveIdleUsers w) := hparts (hp b hb u hmem') hconn'
      have hlink₁ := hlink.moveIdleUsers
      have hlink₂ : Link none none { moveIdleUsers w with startingBackend := false } :=
        hlink₁.of_same (.of_links rfl)
      have hping := pinged_checkBackends (moveIdleUsers w).clients
        { moveIdleUsers w with startingBackend := false }
      have hflag : Others none (moveIdleUsers w)
          { moveIdleUsers w with startingBackend := false } :=
        .of_fields rfl (fun _ => rfl) (fun _ => rfl) rfl rfl
      have hcheck := hflag.trans (.of_pinged hping)
      simp only [Event.run, NetworkPluginServer.pingTimeout, sweep_eq]
      refine finishAll_not_managed (hlink₂.checkBackends _) hb ?_
        ((hcheck.listed u (by simp) b).mpr hmem') (hd.of_core (hcheck.user u (by simp)))
      rw [hcheck.clients]
      exact mem_toRemove hlink₁.nodup hb
    | _ => cases hlost

end GivenUp

/-! ## CONNECTED -/

/-- A CONNECTED marks the user of the JID, and does nothing else to anybody's connection. -/
theorem connected_cases (b : BackendId) (j : Jid) (password : String) (w : World) :
    w.users j = none ∧ Event.run (.received b (.connected j password)) w = noteData b w ∨
      ∃ v, w.users j = some v ∧ Quiet Effect.Mild (markConnected v (noteData b w))
        (Event.run (.received b (.connected j password)) w) := by
  have husers : (noteData b w).users = w.users := by
    obtain ⟨v, hv⟩ := noteData_eq b w
    rw [hv]
    rfl
  simp only [Event.run, handleMessage, handleConnectedPayload, husers]
  cases hj : w.users j with
  | none => exact .inl ⟨rfl, rfl⟩
  | some v =>
    have hchat : Chat (fun _ => True) (markConnected v (noteData b w))
        (User.setConnected v (noteData b w)) :=
      chat_setConnected trivial fun _ _ _ => trivial
    exact .inr ⟨v, rfl, (hchat.quiet.mono fun _ he => he.mild).trans (quiet_onPasswordValid _ j)⟩

/-! ## Every run -/

/-- The flag of every user agrees with the newest report about him. -/
structure Agree (tr : List (World × Event)) (w : World) : Prop where
  flag : ∀ u, w.Managed u → ((w.user u).connected = true ↔ newest u tr = some .connected)
  fresh : ∀ u, w.nextUser ≤ u → newest u tr = none

section Run

variable {tr : List (World × Event)} {w w' : World} {u : UserId}

theorem report_of_fresh (hlink : Link none none w) (hu : w.nextUser ≤ u) (e : Event) :
    report u w e = none := by
  have hm : ¬ w.Managed u := fun hm => absurd (hlink.keys _ u hm).2.2 (Nat.not_lt.mpr hu)
  have hconn : e.connects u w = false := by
    unfold Event.connects
    split
    · refine decide_eq_false fun hj => ?_
      exact hm (hlink.managed_of_users hj)
    · rfl
  simp only [report, hconn, Bool.false_eq_true, if_false]
  exact if_neg fun h => hm h.1

theorem Agree.newest_of_fresh (h : Agree tr w) (hlink : Link none none w) (e : Event)
    (hu : w.nextUser ≤ u) : newest u ((w, e) :: tr) = none := by
  simp only [newest, report_of_fresh hlink hu e, Option.none_or]
  exact h.fresh u hu

theorem Agree.connected (h : Agree tr w) (hlink : Link none none w) (b : BackendId) (j : Jid)
    (password : String) : Agree ((w, .received b (.connected j password)) :: tr)
      (Event.run (.received b (.connected j password)) w) := by
  have hreport : ∀ u, report u w (.received b (.connected j password)) =
      if w.users j = some u then some .connected else none := by
    intro u
    simp [report, Event.connects, Event.disconnects, Event.losesBackend]
  have hnote := fades_noteData w b
  rcases connected_cases b j password w with ⟨hj, heq⟩ | ⟨v, hj, hq⟩
  · rw [heq]
    refine ⟨fun u hu => ?_, fun u hu => h.newest_of_fresh hlink _ (hnote.nextUser ▸ hu)⟩
    simp only [newest, hreport, hj, reduceCtorEq, if_false, Option.none_or]
    rw [hnote.connected]
    exact h.flag u (hnote.managed hu)
  · have hnext : (Event.run (.received b (.connected j password)) w).nextUser = w.nextUser :=
      hq.nextUser.trans hnote.nextUser
    refine ⟨fun u hu => ?_, fun u hu => h.newest_of_fresh hlink _ (hnext ▸ hu)⟩
    have hmark : SameLinks (noteData b w) (markConnected v (noteData b w)) :=
      sameLinks_modUser (fun _ => rfl) (fun _ => rfl)
    have hm := hnote.managed (hmark.managed.mp (hq.sameLinks.managed.mp hu))
    have hconn : ((Event.run (.received b (.connected j password)) w).user u).connected =
        ((markConnected v (noteData b w)).user u).connected :=
      (congrArg User.connected (hq.user u) :)
    rw [hconn]
    by_cases huv : u = v
    · subst huv
      simp [newest, hreport, hj, markConnected, modUser]
    · have hne : w.users j ≠ some u := by
        rw [hj]
        exact fun h => huv (Option.some.inj h).symm
      simp only [newest, hreport, hne, if_false, Option.none_or]
      simp only [markConnected, modUser, Function.update_of_ne huv, hnote.connected]
      exact h.flag u hm

theorem Agree.step (h : Agree tr w) (hlink : Link none none w) {e : Event}
    (henabled : e.enabled w = true) (hp : Parts w e) : Agree ((w, e) :: tr) (e.run w) := by
  by_cases hconn : ∃ b j pw, e = .received b (.connected j pw)
  · obtain ⟨b, j, pw, rfl⟩ := hconn
    exact h.connected hlink b j pw
  · have habides := abides_run (fun b j pw heq => hconn ⟨b, j, pw, heq⟩) w
    refine ⟨fun u hu => ?_,
      fun u hu => h.newest_of_fresh hlink _ (habides.nextUser.trans hu)⟩
    rcases habides.managed u hu with ⟨hm, hsame⟩ | ⟨hnew, hoff⟩
    · have hnot : e.connects u w = false := by
        unfold Event.connects
        split
        · rename_i b j pw
          exact absurd ⟨b, j, pw, rfl⟩ hconn
        · rfl
      rw [hsame]
      simp only [newest, report, hnot, Bool.false_eq_true, if_false]
      by_cases hlost : e.disconnects u w = true ∨ e.losesBackend u w = true
      · -- he is still there, so he was not connected
        have hoff : (w.user u).connected = false := by
          by_contra hon
          exact lost_not_managed hlink henabled hp (by simpa using hon) hlost hu
        rw [if_pos ⟨hm, hlost⟩, hoff]
        simp
      · rw [if_neg fun hcond => hlost hcond.2, Option.none_or]
        exact h.flag u hm
    · rw [hoff, h.newest_of_fresh hlink e hnew]
      simp

theorem agree_of_parts (h : machine.Run tr w) (hp : Lib.Machine.Meets Parts tr) :
    Link none none w ∧ Agree tr w := by
  induction h with
  | init h0 =>
    obtain ⟨cfg, now, storage, rfl⟩ := h0
    have hlink := link_start cfg now storage
    refine ⟨hlink, fun u hu => ?_, fun _ _ => rfl⟩
    cases hu
  | step _ hs ih =>
    obtain ⟨hcond, hrest⟩ := Lib.Machine.meets_cons.mp hp
    obtain ⟨henabled, -, rfl⟩ := step_eq_some hs
    obtain ⟨hlink, hagree⟩ := ih hrest
    exact ⟨hlink.run _, hagree.step hlink henabled hcond⟩

/-- In every run whose steps all meet the condition, a user counts as connected exactly if the
newest report about him is a CONNECTED; so a step other than a CONNECTED accepts only logins of
users whose newest report is one. -/
theorem connected_iff_newest (h : machine.Run tr w) (hp : Lib.Machine.Meets Parts tr) :
    (∀ u, w.Managed u → ((w.user u).connected = true ↔ newest u tr = some .connected)) ∧
      ∀ e w' s j password, machine.step w e = some w' →
        (∀ b k pw, e ≠ .received b (.connected k pw)) → Accepts w w' s j password →
        ∃ u, w.users j = some u ∧ newest u tr = some .connected := by
  obtain ⟨hlink, hagree⟩ := agree_of_parts h hp
  refine ⟨hagree.flag, fun e w' s j password hs hconn ha => ?_⟩
  obtain ⟨u, hu, hon, -⟩ := ha.vouched hs hconn
  exact ⟨u, hu, (hagree.flag u (hlink.managed_of_users hu)).mp hon⟩

end Run

/-- A user who is disconnected while he connects is taken back, and then connected. -/
theorem connected_iff_newest_alice :
    ∃ tr w, machine.Run tr w ∧ Lib.Machine.Meets Parts tr ∧
      ((w.user 0).reconnectCounter = 0 ∧ (w.user 0).connected = true) ∧
      newest 0 tr = some .connected := by
  have hexec : ∃ w, (machine.restrict Parts).exec (World.start Sample.cfg 0 none)
      [.presence (Sample.available "alice"), .backendConnected, .received 0 .pong,
        .received 0 (.disconnected (Sample.jid "alice") .networkError ""),
        .received 0 (.connected (Sample.jid "alice") "")] = some w ∧
      w.users (w.user 0).jid = some 0 ∧ (w.user 0).reconnectCounter = 0 ∧
      (w.user 0).connected = true := ⟨_, by rfl, by rfl, by rfl, by rfl⟩
  obtain ⟨w, hw, hm, hcount, hconn⟩ := hexec
  obtain ⟨tr, hrun, hmeets⟩ :=
    Lib.Machine.exists_run_of_restrict (init_start Sample.cfg 0 none) hw
  exact ⟨tr, w, hrun, hmeets, ⟨hcount, hconn⟩,
    ((connected_iff_newest hrun hmeets).1 0 hm).mp hconn⟩

/-- A connected user who is reconnected automatically still counts as connected. -/
theorem not_connected_iff_of_reconnect :
    ¬ ∀ (tr : List (World × Event)) (w : World) (u : UserId), machine.Run tr w → w.Managed u →
      ((w.user u).connected = true ↔ newest u tr = some .connected) := by
  intro hall
  have hexec : ∃ w, machine.exec (World.start Sample.cfg 0 none)
      [.presence (Sample.available "alice"), .backendConnected, .received 0 .pong,
        .received 0 (.connected (Sample.jid "alice") "")] = some w ∧
      report 0 w (.received 0 (.disconnected (Sample.jid "alice") .networkError "")) =
        some .lost ∧
      ∃ w', machine.step w (.received 0 (.disconnected (Sample.jid "alice") .networkError "")) =
        some w' ∧ w'.users (w'.user 0).jid = some 0 ∧ (w'.user 0).connected = true :=
    ⟨_, by rfl, by rfl, _, by rfl, by rfl, by rfl⟩
  obtain ⟨w, hw, hlost, w', hs, hm, hconn⟩ := hexec
  obtain ⟨tr, hrun, -⟩ := Lib.Machine.exists_run_of_exec (init_start Sample.cfg 0 none) hw
  have hnewest := (hall _ w' 0 (hrun.step hs) hm).mp hconn
  rw [newest, hlost] at hnewest
  cases hnewest

end Spectrum
