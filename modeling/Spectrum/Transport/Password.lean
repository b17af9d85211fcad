import Spectrum.Transport.Answers
import Spectrum.Transport.Mute

/-!
# Logins with different passwords

`UserRegistry` keeps one pending login per bare JID, with the session and the password of the
latest attempt, and a CONNECTED of the backend is matched with it by the JID only. So a
CONNECTED that answers an older LOGIN accepts whatever login is pending now. The passwords
agree in the runs where nobody asks for a JID with another password while its user is still
logging in, and no CONNECTED comes late, for the LOGIN of a user that was replaced
(`Undisputed`): there a pending login has the password of the user who logs in (`Slotted`).
-/

namespace Spectrum

open World NetworkPluginServer

/-- The step from `w` to `w'` has told the session that its password is right. -/
def Accepts (w w' : World) (s : SessionId) (j : Jid) (password : String) : Prop :=
  ∃ l, w'.log = l ++ w.log ∧ .passwordValid s j password ∈ l

/-- A backend has said CONNECTED in answer to a LOGIN of the JID with this password. -/
def Answered (tr : List (World × Event)) (j : Jid) (password : String) : Prop :=
  ∃ w b k name, (w, .received b (.connected k password)) ∈ tr ∧ k.toBare = j ∧
    .send b (.login k name password) ∈ w.log

/-- The JID has a connected user with this password. -/
def Vouched (w : World) (j : Jid) (password : String) : Prop :=
  ∃ u, w.users j = some u ∧ (w.user u).connected = true ∧ (w.user u).info.password = password

/-- The last step of the run has accepted only logins whose password a backend or the
connected user of the JID vouches for. -/
def PasswordsAgree : List (World × Event) → World → Prop
  | [], _ => True
  | (w, e) :: tr, w' => ∀ s j password, Accepts w w' s j password →
      Answered ((w, e) :: tr) j password ∨ Vouched w j password

/-- The log has a LOGIN of the user with this password to the backend. -/
def loginSent (b : BackendId) (j : Jid) (password : String) (l : List Effect) : Bool :=
  l.any fun e =>
    match e with
    | .send c (.login k _ pw) => c = b ∧ k = j ∧ pw = password
    | _ => false

/-- A client asks for a JID with a password, in server mode. If there is a user of the JID who is not
connected yet then he logs in with this password. -/
def AsksInTurn (w : World) : Session.Output → Prop
  | .isValidUserPassword j password => j.toBare ∈ w.cfg.adminJids ∨ w.cfg.serverMode = true ∧
      ∀ u ∈ w.users j.toBare, (w.user u).connected = false → (w.user u).info.password = password
  | _ => True

instance (w : World) (o : Session.Output) : Decidable (AsksInTurn w o) := by
  unfold AsksInTurn
  split <;> infer_instance

/-- Logins are asked for in turn. A CONNECTED that comes while a login is pending answers the LOGIN of
the user that is there, who is not connected yet. -/
def Undisputed (w : World) : Event → Prop
  | .element s e uuid =>
      ∀ x ∈ w.session s, ∀ o ∈ (Session.handleElement w.cfg.prep uuid e x).2, AsksInTurn w o
  | .received b (.connected j password) => w.registry j.toBare ≠ none → ∀ u ∈ w.users j,
      (w.user u).connected = false ∧ (w.user u).info.password = password ∧
        loginSent b j password w.log = true
  | _ => True

instance (w : World) (e : Event) : Decidable (Undisputed w e) := by
  unfold Undisputed
  split <;> infer_instance

/-! ## Callbacks of the frontend -/

/-- The connected users of `w` were connected, with the same password, in `w₀`. -/
def Backward (w₀ w : World) : Prop :=
  ∀ j u, w.users j = some u → (w.user u).connected = true →
    w₀.users j = some u ∧ (w₀.user u).connected = true ∧ (w₀.user u).info = (w.user u).info

/-- A login is accepted only if the JID was vouched for in `w₀`. -/
def Effect.VouchedIn (w₀ : World) : Effect → Prop
  | .passwordValid _ j password => Vouched w₀ j password
  | _ => True

theorem Effect.Covert.vouched {w₀ : World} {e : Effect} (h : e.Covert) : e.VouchedIn w₀ := by
  cases e <;> trivial

theorem Effect.Tame.vouched {w₀ : World} {e : Effect} (h : e.Tame) : e.VouchedIn w₀ := by
  cases e <;> trivial

section Talk

variable {enters : Prop} {w₀ w w' : World}

theorem Backward.refl (w : World) : Backward w w := fun _ _ hu hconn => ⟨hu, hconn, rfl⟩

theorem Backward.mute {z : Option UserId} (h : Backward w₀ w) (hm : Mute z w w')
    (husers : ∀ j u, w'.users j = some u → w.users j = some u) : Backward w₀ w' := by
  intro j u hu hconn
  rw [hm.connected] at hconn
  rw [hm.info]
  exact h j u (husers j u hu) hconn

theorem Backward.quiet {P : Effect → Prop} (h : Backward w₀ w) (hq : Quiet P w w') :
    Backward w₀ w' := by
  intro j u hu hconn
  have hconn' : (w'.user u).connected = (w.user u).connected :=
    (congrArg User.connected (hq.user u) :)
  have hinfo : (w'.user u).info = (w.user u).info := (congrArg User.info (hq.user u) :)
  rw [hq.users] at hu
  rw [hconn'] at hconn
  rw [hinfo]
  exact h j u hu hconn

/-- A new user is not connected. -/
theorem Backward.withUser (h : Backward w₀ w) (j : Jid) (info : UserInfo) :
    Backward w₀ (withUser j info w) := by
  intro k u hu hconn
  have hne : u ≠ w.nextUser := by
    rintro rfl
    simp [Spectrum.withUser] at hconn
  have huser : (Spectrum.withUser j info w).user u = w.user u := by
    simp [Spectrum.withUser, Function.update_of_ne hne]
  rw [huser] at hconn ⊢
  refine h k u ?_ hconn
  by_cases hk : k = j.toBare
  · subst hk
    simp only [Spectrum.withUser, Function.update_self] at hu
    exact absurd (Option.some.inj hu).symm hne
  · simpa [Spectrum.withUser, Function.update_of_ne hk] using hu

theorem talk_vouched (h : Talk enters w w') (hback : Backward w₀ w) :
    Backward w₀ w' ∧ Logs (Effect.VouchedIn w₀) w w' := by
  induction h with
  | chat h => exact ⟨hback.quiet h.quiet, h.quiet.log.mono fun _ he => he.vouched⟩
  | aside h => exact ⟨hback.quiet h.quiet, h.quiet.log.mono fun _ he => he.vouched⟩
  | enter _ h => exact ⟨hback.quiet h.quiet, h.quiet.log.mono fun _ he => he.vouched⟩
  | @approve w u j hu hconn hpw =>
    refine ⟨hback.quiet (quiet_onPasswordValid w j), (onPasswordValid_logs w j).mono ?_⟩
    rintro e (hplain | ⟨entry, hentry, rfl⟩)
    · exact hplain.tame.vouched
    · obtain ⟨hu₀, hconn₀, hinfo⟩ := hback _ u hu hconn
      have hpassword : entry.password = (w.user u).info.password := by
        simpa [UserRegistry.getUserPassword, hentry] using hpw
      exact ⟨u, hu₀, hconn₀, by rw [hinfo, hpassword]⟩
  | @create w j info _ _ =>
    have hmute := mute_created w.nextUser (withUser j info w)
    have husers := created_users w.nextUser (withUser j info w)
    have hlog : Logs (Effect.VouchedIn w₀) w (withUser j info w) := .of_eq rfl
    rw [addUser_eq]
    refine ⟨(hback.withUser j info).mute hmute fun k v hv => by rwa [husers] at hv, ?_⟩
    exact hlog.trans (hmute.covert.mono fun _ he => he.vouched)
  | @remove w u j _ =>
    have hmute := mute_removeUser u w
    refine ⟨hback.mute hmute ?_, hmute.covert.mono fun _ he => he.vouched⟩
    intro k v hv
    rw [removeUser_users] at hv
    by_cases hk : k = (w.user u).jid.toBare
    · subst hk
      simp at hv
    · rwa [Function.update_of_ne hk] at hv
  | trans _ _ ih ih' =>
    obtain ⟨hback₁, hlog₁⟩ := ih hback
    obtain ⟨hback₂, hlog₂⟩ := ih' hback₁
    exact ⟨hback₂, hlog₁.trans hlog₂⟩

end Talk

/-! ## CONNECTED -/

section Connected

variable {w : World} {b : BackendId} {j : Jid} {password : String}

theorem Chat.registry {S : UserId → Prop} {w w' : World} (h : Chat S w w') :
    w'.registry = w.registry := by
  induction h with
  | idle h => exact h.registry
  | timer _ => rfl
  | ready _ _ => exact (idle_onReadyToConnect _ _).registry
  | presence _ _ p => exact (congrArg World.registry (onPresenceChanged_rest _ p _) :)
  | trans _ _ ih ih' => exact ih'.trans ih

/-- A CONNECTED accepts the login that is pending for the JID. -/
theorem connected_log (b : BackendId) (j : Jid) (password : String) (w : World) :
    Logs (fun e => e.Tame ∨ ∃ entry, w.registry j.toBare = some entry ∧ (w.users j).isSome ∧
      e = .passwordValid entry.session j.toBare entry.password) w
      (Event.run (.received b (.connected j password)) w) := by
  obtain ⟨husers, hregistry, hnote⟩ : (noteData b w).users = w.users ∧
      (noteData b w).registry = w.registry ∧ (noteData b w).log = w.log := by
    obtain ⟨v, hv⟩ := noteData_eq b w
    rw [hv]
    exact ⟨rfl, rfl, rfl⟩
  simp only [Event.run, handleMessage, handleConnectedPayload]
  split
  · exact .of_eq hnote
  · rename_i u hu
    rw [husers] at hu
    have hchat : Chat (fun _ => True) (markConnected u (noteData b w))
        (User.setConnected u (noteData b w)) :=
      chat_setConnected trivial fun _ _ _ => trivial
    have hentry : (User.setConnected u (noteData b w)).registry = w.registry :=
      hchat.registry.trans hregistry
    have hstart : Logs Effect.Tame w (markConnected u (noteData b w)) := .of_eq hnote
    refine ((hstart.trans hchat.quiet.log).mono fun _ he => .inl he).trans
      ((onPasswordValid_logs _ j).mono ?_)
    rintro e (hplain | ⟨entry, hsome, rfl⟩)
    · exact .inl hplain.tame
    · rw [hentry] at hsome
      exact .inr ⟨entry, hsome, by rw [hu]; rfl, rfl⟩

theorem exists_of_loginSent (h : loginSent b j password w.log = true) :
    ∃ name, .send b (.login j name password) ∈ w.log := by
  obtain ⟨e, hmem, he⟩ := List.any_eq_true.mp h
  split at he
  · rename_i c k name pw
    simp only [decide_eq_true_eq] at he
    obtain ⟨rfl, rfl, rfl⟩ := he
    exact ⟨name, hmem⟩
  · cases he

end Connected

/-! ## Pending logins and the users who log in -/

/-- Pending logins are logins of server mode. If the user of the JID is not connected yet he logs in
with the password of the pending login. -/
structure Slotted (w : World) : Prop where
  users : ∀ j u, w.users j = some u → u < w.nextUser
  mode : ∀ j e, w.registry j = some e → w.cfg.serverMode = true
  password : ∀ j e u, w.registry j = some e → w.users j = some u →
    (w.user u).connected = false → (w.user u).info.password = e.password

/-- Logins and users have gone, users are connected, and nothing else has changed about the
passwords. -/
structure Sheds (w w' : World) : Prop where
  cfg : w'.cfg = w.cfg
  registry : ∀ j e, w'.registry j = some e → w.registry j = some e
  users : ∀ j u, w'.users j = some u → w.users j = some u
  connected : ∀ u, (w'.user u).connected = false → (w.user u).connected = false
  info : ∀ u, (w'.user u).info = (w.user u).info
  nextUser : w'.nextUser = w.nextUser

namespace Sheds

variable {w w₁ w' : World}

theorem refl (w : World) : Sheds w w :=
  ⟨rfl, fun _ _ h => h, fun _ _ h => h, fun _ h => h, fun _ => rfl, rfl⟩

theorem trans (h : Sheds w w₁) (h' : Sheds w₁ w') : Sheds w w' where
  cfg := h'.cfg.trans h.cfg
  registry := fun j e he => h.registry j e (h'.registry j e he)
  users := fun j u hu => h.users j u (h'.users j u hu)
  connected := fun u hu => h.connected u (h'.connected u hu)
  info := fun u => (h'.info u).trans (h.info u)
  nextUser := h'.nextUser.trans h.nextUser

theorem foldl {α : Type} {f : World → α → World} (hf : ∀ w a, Sheds w (f w a)) (l : List α)
    (w : World) : Sheds w (l.foldl f w) := by
  induction l generalizing w with
  | nil => exact .refl w
  | cons a l ih => exact (hf w a).trans (ih (f w a))

/-- The same users with the same passwords. -/
theorem of_quiet {P : Effect → Prop} (hq : Quiet P w w')
    (hregistry : ∀ j e, w'.registry j = some e → w.registry j = some e) : Sheds w w' where
  cfg := hq.cfg
  registry := hregistry
  users := fun j u hu => by rwa [hq.users] at hu
  connected := fun u hu => by
    rwa [show (w'.user u).connected = (w.user u).connected from
      (congrArg User.connected (hq.user u) :)] at hu
  info := fun u => (congrArg User.info (hq.user u) :)
  nextUser := hq.nextUser

theorem of_chat {S : UserId → Prop} (h : Chat S w w') : Sheds w w' :=
  of_quiet h.quiet fun j e he => by rwa [h.registry] at he

theorem of_aside (h : Aside w w') : Sheds w w' := of_quiet h.quiet h.registry

/-- Users have gone from the desk. -/
theorem of_erases (hprofile : ∀ v, (w'.user v).profile = (w.user v).profile) (he : Erases w w')
    (husers : ∀ j u, w'.users j = some u → w.users j = some u) : Sheds w w' := by
  have hconnected : ∀ v, (w'.user v).connected = (w.user v).connected := fun v =>
    congrArg (fun p => p.2.2.1) (hprofile v)
  have hregistry := he.registry
  obtain ⟨users, hdesk⟩ := he
  refine ⟨(congrArg Desk.cfg hdesk :), fun j e hj => by rwa [hregistry] at hj, husers,
    fun u hu => by rwa [hconnected] at hu, fun v => congrArg (fun p => p.2.1) (hprofile v),
    (congrArg Desk.nextUser hdesk :)⟩

theorem of_desk (hprofile : ∀ v, (w'.user v).profile = (w.user v).profile)
    (hdesk : w'.desk = w.desk) : Sheds w w' := by
  refine of_erases hprofile (.of_desk hdesk) fun j u hu => ?_
  rwa [show w'.users = w.users from congrArg Desk.users hdesk] at hu

end Sheds

section Slotted

variable {w w' : World}

theorem Slotted.sheds (h : Slotted w) (hs : Sheds w w') : Slotted w' where
  users := fun j u hu => by
    rw [hs.nextUser]
    exact h.users j u (hs.users j u hu)
  mode := fun j e he => by
    rw [hs.cfg]
    exact h.mode j e (hs.registry j e he)
  password := fun j e u he hu hconn => by
    rw [hs.info]
    exact h.password j e u (hs.registry j e he) (hs.users j u hu) (hs.connected u hconn)

theorem sheds_onPasswordValid (j : Jid) (w : World) :
    Sheds w (UserRegistry.onPasswordValid j w) := by
  refine .of_quiet (quiet_onPasswordValid w j) fun k e he => ?_
  have ht := touches_onPasswordValid (w := w) j
  by_cases hk : k = j.toBare
  · rw [hk, registry_onPasswordValid] at he
    cases he
  · rwa [ht.registry k hk] at he

theorem sheds_removeUser (u : UserId) (w : World) : Sheds w (UserManager.removeUser u w) := by
  refine .of_erases (mute_removeUser u w).profile (erases_removeUser u w) fun j v hv => ?_
  rw [users_removeUser] at hv
  by_cases hj : j = (w.user u).jid.toBare
  · rw [hj, Function.update_self] at hv
    cases hv
  · rwa [Function.update_of_ne hj] at hv

theorem sheds_handleDisconnected (u : UserId) (error : String) (e : ConnectionError) (w : World) :
    Sheds w (User.handleDisconnected u error e w) := by
  have hemit : Sheds w (w.emit (.disconnected u)) :=
    .of_desk (fun _ => rfl) (desk_emit w _)
  rcases handleDisconnected_cases u error e w with ⟨-, heq⟩ | ⟨-, -, heq⟩ | ⟨-, -, heq⟩
  · rw [heq]
    exact hemit
  · rw [heq]
    exact hemit.trans (.of_desk (mute_reconnect u _).profile (desk_reconnect u _))
  · rw [heq]
    have hreport := hemit.trans
      (.of_chat (S := fun _ => True) (.idle (idle_reportError u error (w.emit (.disconnected u)))))
    simp only [User.giveUp]
    split
    · exact hreport
    · exact hreport.trans (sheds_removeUser u _)

theorem sheds_finished (c : BackendId) (w : World) : Sheds w (handleSessionFinished c w) := by
  have hdrop : ∀ (w : World) (u : UserId), Sheds w (dropUser w u) := by
    intro w u
    have hdata : Mute none w (w.setData u none) := Mute.modUser fun _ => ⟨rfl, rfl⟩
    exact (Sheds.of_desk hdata.profile (desk_setData u w none)).trans
      (sheds_handleDisconnected u _ _ _)
  by_cases hc : c ∈ w.clients
  · obtain ⟨w₁, w₂, hidle₁, hidle₂, heq⟩ := handleSessionFinished_steps hc
    have hmark : Sheds w (markDying c w) :=
      ⟨rfl, fun _ _ h => h, fun _ _ h => h, fun _ h => h, fun _ => rfl, rfl⟩
    have hbefore := Sheds.of_chat (S := fun _ => True) (.idle hidle₁)
    have hafter := Sheds.of_chat (S := fun _ => True) (.idle hidle₂)
    have hloop := Sheds.foldl hdrop (w.backends c).users w₁
    rw [heq]
    refine (((hmark.trans hbefore).trans hloop).trans hafter).trans ?_
    exact ⟨rfl, fun _ _ h => h, fun _ _ h => h, fun _ h => h, fun _ => rfl, rfl⟩
  · unfold handleSessionFinished
    rw [if_pos hc]
    exact ⟨rfl, fun _ _ h => h, fun _ _ h => h, fun _ h => h, fun _ => rfl, rfl⟩

theorem sheds_pingTimeout (w : World) : Sheds w (pingTimeout w) := by
  have hmove : Sheds w (moveIdleUsers w) := by
    have hall : ∀ (us : List UserId) (w : World), Sheds w (moveUsers us w) := by
      intro us
      induction us with
      | nil => exact Sheds.refl
      | cons u us ih =>
        intro w
        have hone := Sheds.of_desk (mute_move u w).profile (desk_moveToLongRunBackend u w)
        unfold moveUsers
        split
        · rename_i heq
          rw [heq] at hone
          exact hone.trans (ih _)
        · rename_i heq
          rw [heq] at hone
          exact hone
    unfold moveIdleUsers
    split
    · exact .refl w
    · exact hall _ w
  have hping : Sheds (moveIdleUsers w) (checkBackends (moveIdleUsers w).clients
      { moveIdleUsers w with startingBackend := false }).2 :=
    .of_desk (Mute.of_pinged (z := none) (pinged_checkBackends (moveIdleUsers w).clients
      { moveIdleUsers w with startingBackend := false })).profile (desk_checkBackends _ _)
  exact (hmove.trans hping).trans (Sheds.foldl (fun w c => sheds_finished c w) _ _)

theorem sheds_connectWaitingUsers (w : World) : Sheds w (connectWaitingUsers w) := by
  refine .of_desk (drain_induction (I := fun w₁ => ∀ v, (w₁.user v).profile = (w.user v).profile)
    ?_ ?_ _ _ fun _ => rfl) (desk_connectWaitingUsers w)
  · intro w₁ w₂ hs h v
    exact ((Mute.of_searched (z := none) hs).profile v).trans (h v)
  · intro w₁ u rest c _ _ _ h v
    exact ((mute_serve u w₁ rest).profile v).trans (h v)

theorem sheds_handlePongReceived (b : BackendId) (w : World) :
    Sheds w (handlePongReceived b w) := by
  have hready : Sheds w ((w.emit (.pong b)).modBackend b fun c => { c with willDie := false }) :=
    .of_desk (fun _ => rfl) rfl
  have hstart : ∀ w : World, Sheds w (startComponent w) := by
    intro w
    unfold startComponent
    split
    · exact .of_desk (fun _ => rfl) rfl
    · exact .refl w
  have hlast : ∀ w : World, Sheds w (w.modBackend b fun c => { c with pongReceived := 1 }) :=
    fun w => .of_desk (fun _ => rfl) rfl
  simp only [handlePongReceived]
  split
  · exact ((hready.trans (hstart _)).trans (sheds_connectWaitingUsers _)).trans (hlast _)
  · have hemit : Sheds w (w.emit (.pong b)) := .of_desk (fun _ => rfl) rfl
    exact hemit.trans (hlast _)

/-- The new user of server mode has the password of the login that is pending. -/
theorem Slotted.addUser (h : Slotted w) (j : Jid) (info : UserInfo)
    (hpw : w.cfg.serverMode = true → info.password = UserRegistry.getUserPassword j.toBare w) :
    Slotted (UserManager.addUser j info w) := by
  have hnew : Slotted (withUser j info w) := by
    refine ⟨fun k u hu => ?_, h.mode, fun k e u he hu hconn => ?_⟩
    · by_cases hk : k = j.toBare
      · have heq : some w.nextUser = some u := by
          simpa [Spectrum.withUser, hk] using hu
        exact Option.some.inj heq ▸ Nat.lt_succ_self w.nextUser
      · have hold : w.users k = some u := by
          simpa [Spectrum.withUser, Function.update_of_ne hk] using hu
        exact Nat.lt_succ_of_lt (h.users k u hold)
    · by_cases hk : k = j.toBare
      · have heq : w.nextUser = u := by
          simpa [Spectrum.withUser, hk] using hu
        have hentry : w.registry j.toBare = some e := hk ▸ he
        subst heq
        simp only [Spectrum.withUser, Function.update_self]
        rw [hpw (h.mode k e he), UserRegistry.getUserPassword, hentry]
      · have hold : w.users k = some u := by
          simpa [Spectrum.withUser, Function.update_of_ne hk] using hu
        have hne : u ≠ w.nextUser := (h.users k u hold).ne
        have huser : (Spectrum.withUser j info w).user u = w.user u := by
          simp [Spectrum.withUser, Function.update_of_ne hne]
        rw [huser] at hconn ⊢
        exact h.password k e u he hold hconn
  rw [addUser_eq]
  exact hnew.sheds (.of_desk (mute_created _ _).profile (desk_handleUserCreated _ _))

/-- A callback that enters no login. -/
theorem Slotted.talk (h : Slotted w) (ht : Talk False w w') : Slotted w' := by
  induction ht with
  | chat hc => exact h.sheds (.of_chat hc)
  | aside ha => exact h.sheds (.of_aside ha)
  | enter hfalse _ => exact hfalse.elim
  | approve j _ _ _ => exact h.sheds (sheds_onPasswordValid j _)
  | create j info _ hpw => exact h.addUser j info hpw
  | remove _ => exact h.sheds (sheds_removeUser _ _)
  | trans _ _ ih ih' => exact ih' (ih h)

/-- A login that is asked for in turn. -/
theorem Slotted.isValidUserPassword (h : Slotted w) {j : Jid} (s : SessionId) {password : String}
    (hturn : AsksInTurn w (.isValidUserPassword j password)) :
    Slotted (UserRegistry.isValidUserPassword j s password w) := by
  by_cases hadmin : j.toBare ∈ w.cfg.adminJids
  · have hemit : ∀ valid, Aside w (w.emit (.adminPassword s valid)) := fun valid => .emit trivial
    unfold UserRegistry.isValidUserPassword
    rw [if_pos hadmin]
    split
    · exact h.sheds (.of_aside ((hemit true).trans (aside_callSession _ _ _)))
    · exact h.sheds (.of_aside ((hemit false).trans (aside_callSession _ _ _)))
  · obtain ⟨hmode, hsame⟩ := hturn.resolve_left hadmin
    have hset : Slotted (UserRegistry.setEntry j.toBare (some ⟨password, s⟩) w) := by
      refine ⟨h.users, fun _ _ _ => hmode, fun k e u he hu hconn => ?_⟩
      have hentry : Function.update w.registry j.toBare (some ⟨password, s⟩) k = some e := he
      by_cases hk : k = j.toBare
      · rw [hk, Function.update_self] at hentry
        cases hentry
        exact hsame u (hk ▸ hu) hconn
      · rw [Function.update_of_ne hk] at hentry
        exact h.password k e u hentry hu hconn
    have hentered : ∀ {w₁ : World}, Apart w w₁ → w₁.registry = (UserRegistry.setEntry j.toBare
        (some ⟨password, s⟩) w).registry → Slotted (UserManager.connectUser j w₁) := by
      intro w₁ ha hregistry
      refine Slotted.talk ?_ (talk_connectUser w₁ j)
      have hapart : Quiet Effect.Tame (UserRegistry.setEntry j.toBare (some ⟨password, s⟩) w) w₁ :=
        ⟨ha.quiet.core, ha.quiet.log⟩
      exact hset.sheds (.of_quiet hapart fun k e he => by rwa [hregistry] at he)
    unfold UserRegistry.isValidUserPassword
    rw [if_neg hadmin]
    dsimp only
    split
    · exact hentered (apart_setEntry w _ _) rfl
    · rename_i e _
      refine hentered ?_ ?_
      · have hcall := (aside_callSession (UserRegistry.setEntry j.toBare (some { e with session := s }) w)
          e.session (Session.handlePasswordInvalid "")).toApart
        exact ⟨hcall.core, hcall.user, (Logs.of_eq rfl).trans (hcall.log.trans (.of_eq rfl))⟩
      · have hdesk := desk_callSession
          (UserRegistry.setEntry j.toBare (some { e with session := s }) w) e.session
          (Session.handlePasswordInvalid "")
        have hregistry := congrArg Desk.registry hdesk
        exact (congrArg (fun r => Function.update r j.toBare (some ⟨password, s⟩)) hregistry).trans
          (Function.update_idem _ _ _)

/-- A session either asks for a password, and does nothing else, or it enters no login. -/
theorem Slotted.element (h : Slotted w) {s : SessionId} {e : Element} {uuid : String}
    (hturn : Undisputed w (.element s e uuid)) :
    Slotted (runSession s (Session.handleElement w.cfg.prep uuid e) w) := by
  cases hx : w.session s with
  | none =>
    unfold runSession
    rw [hx]
    exact h
  | some x =>
    rcases handleElement_outputs w.cfg.prep uuid e x with ⟨j, password, heq⟩ | hother
    · have hcall := aside_callSession w s (Session.handleElement w.cfg.prep uuid e)
      have hasks := hturn x hx _ (heq ▸ List.mem_singleton_self _)
      unfold runSession
      rw [hx]
      simp only [heq, List.foldl_cons, List.foldl_nil, react]
      refine (h.sheds (.of_aside hcall)).isValidUserPassword s ?_
      unfold AsksInTurn at hasks ⊢
      rw [hcall.quiet.cfg, hcall.quiet.users, hcall.user]
      exact hasks
    · refine h.talk (talk_runSession w s fun x' hx' o ho j password heq => ?_)
      rw [hx] at hx'
      cases hx'
      exact hother o ho j password heq

theorem Slotted.received (h : Slotted w) (b : BackendId) (m : FromBackend) :
    Slotted (handleMessage b m w) := by
  have hnote : Slotted (noteData b w) :=
    h.sheds (.of_desk (Mute.noteData (z := none) b).profile (desk_noteData w b))
  cases m with
  | connected j password =>
    simp only [handleMessage, handleConnectedPayload]
    split
    · exact hnote
    · rename_i u _
      have hmark : Sheds (noteData b w) (markConnected u (noteData b w)) := by
        refine ⟨rfl, fun _ _ h => h, fun _ _ h => h, fun v hv => ?_, fun v => ?_, rfl⟩
        · by_cases hvu : v = u
          · simp [markConnected, modUser, hvu] at hv
          · simpa [markConnected, modUser, Function.update_of_ne hvu] using hv
        · by_cases hvu : v = u
          · simp [markConnected, modUser, hvu]
          · simp [markConnected, modUser, Function.update_of_ne hvu]
      have hchat : Chat (fun _ => True) (markConnected u (noteData b w))
          (User.setConnected u (noteData b w)) :=
        chat_setConnected trivial fun _ _ _ => trivial
      exact (hnote.sheds (hmark.trans (.of_chat hchat))).sheds (sheds_onPasswordValid j _)
  | disconnected j error message =>
    have hinvalid := hnote.sheds (.of_aside (aside_onPasswordInvalid _ j message))
    simp only [handleMessage, handleDisconnectedPayload]
    split
    · exact hinvalid
    · exact hinvalid.sheds (sheds_handleDisconnected _ message error _)
  | pong => exact hnote.sheds (sheds_handlePongReceived b _)
  | stats res id => exact hnote.sheds (.of_desk (fun _ => rfl) rfl)
  | other => exact hnote

end Slotted

/-! ## Every run -/

section Run

variable {w w' : World}

theorem Accepts.of_logs {P : Effect → Prop} {s : SessionId} {j : Jid} {password : String}
    (h : Logs P w w') (ha : Accepts w w' s j password) : P (.passwordValid s j password) := by
  obtain ⟨l, hl, hP⟩ := h
  obtain ⟨l', hl', hmem⟩ := ha
  rw [hl] at hl'
  rw [← List.append_cancel_right hl'] at hmem
  exact hP _ hmem

/-- A step other than a CONNECTED accepts only logins that a connected user vouches for. -/
theorem Accepts.vouched {e : Event} {s : SessionId} {j : Jid} {password : String}
    (hs : machine.step w e = some w') (hconn : ∀ b k pw, e ≠ .received b (.connected k pw))
    (ha : Accepts w w' s j password) : Vouched w j password := by
  obtain ⟨henabled, -, rfl⟩ := step_eq_some hs
  by_cases hfront : e.isFront = true
  · have htimer : ∀ u, e = .connectingTimeout u → w.Reached u := by
      rintro u rfl
      exact .inr henabled
    exact ha.of_logs (talk_vouched (talk_run hfront htimer) (.refl w)).2
  · exact (ha.of_logs (covert_run (by simpa using hfront) hconn w)).elim

theorem Slotted.run (h : Slotted w) {e : Event} (hs : machine.step w e = some w')
    (hturn : Undisputed w e) : Slotted w' := by
  obtain ⟨henabled, -, rfl⟩ := step_eq_some hs
  by_cases hfront : e.isFront = true
  · by_cases helement : ∃ s el uuid, e = .element s el uuid
    · obtain ⟨s, el, uuid, rfl⟩ := helement
      exact h.element hturn
    · have htimer : ∀ u, e = .connectingTimeout u → w.Reached u := by
        rintro u rfl
        exact .inr henabled
      have hno : ¬ e.Asks w := by
        rintro ⟨s, el, uuid, -, -, -, heq, -⟩
        exact helement ⟨s, el, uuid, heq⟩
      exact h.talk (by simpa only [hno] using talk_run hfront htimer)
  · cases e with
    | clock now => exact h.sheds (.of_desk (fun _ => rfl) rfl)
    | backendConnected =>
      refine h.sheds (.of_desk (fun v => ?_) ?_)
      · exact congrArg (fun user => (user v).profile) (joined_newBackend w).user
      show (handleNewClientConnection w).desk = w.desk
      simp only [handleNewClientConnection, desk_modBackend, desk_sendPing]
      rfl
    | backendLost b => exact h.sheds (sheds_finished b w)
    | received b m => exact h.received b m
    | pingTimeout => exact h.sheds (sheds_pingTimeout w)
    | loginDelay =>
      have htimer : Sheds w { w with loginTimer := false } := .of_desk (fun _ => rfl) rfl
      exact h.sheds (htimer.trans (sheds_connectWaitingUsers _))
    | collect =>
      refine h.sheds (.of_desk (fun v => ?_) (desk_collectBackend w))
      simp only [Event.run, collectBackend]
      split <;> rfl
    | activity u =>
      have hmute : Mute none w (w.modUser u fun x => { x with lastActivity := w.now }) :=
        Mute.modUser fun _ => ⟨rfl, rfl⟩
      exact h.sheds (.of_desk hmute.profile rfl)
    | _ => exact absurd rfl hfront

theorem slotted_of_run {tr : List (World × Event)} (h : machine.Run tr w)
    (hm : Lib.Machine.Meets Undisputed tr) : Slotted w := by
  refine h.invariant_of_steps ?_ (fun _ _ _ hturn hs ih => ih.run hs hturn) hm
  rintro w ⟨cfg, now, storage, rfl⟩
  exact ⟨nofun, nofun, nofun⟩

/-- In every run whose logins are asked for and answered in turn, every accepted login has the
password of a LOGIN that was answered, or of the connected user of its JID. -/
theorem passwordsAgree_of_undisputed {tr : List (World × Event)} (h : machine.Run tr w')
    (hm : Lib.Machine.Meets Undisputed tr) : PasswordsAgree tr w' := by
  cases h with
  | init _ => trivial
  | @step tr w _ e hrun hs =>
    obtain ⟨hturn, hbefore⟩ := Lib.Machine.meets_cons.mp hm
    have hslotted := slotted_of_run hrun hbefore
    intro s j password ha
    by_cases hconn : ∃ b k pw, e = .received b (.connected k pw)
    · left
      obtain ⟨b, k, pw, rfl⟩ := hconn
      obtain ⟨-, -, rfl⟩ := step_eq_some hs
      rcases ha.of_logs (connected_log b k pw w) with htame | ⟨entry, hentry, hsome, heq⟩
      · exact htame.elim
      · obtain ⟨u, hu⟩ := Option.isSome_iff_exists.mp hsome
        obtain ⟨hwaits, hpw, hsent⟩ := hturn (hentry ▸ Option.some_ne_none entry) u hu
        obtain ⟨name, hlogin⟩ := exists_of_loginSent hsent
        have hbare : k.toBare = k := ((link_of_run hrun).keys k u hu).2.1
        have hentered := hslotted.password _ entry u hentry (hbare.symm ▸ hu) hwaits
        cases heq
        rw [← hentered, hpw]
        exact ⟨w, b, k, name, List.mem_cons_self, rfl, hlogin⟩
    · exact .inr (ha.vouched hs fun b k pw heq => hconn ⟨b, k, pw, heq⟩)

end Run

namespace Sample

/-- A server whose clients log in with a password. -/
def serverCfg : Config := { serverMode := true }

def alice : Jid := ⟨"alice", "localhost", ""⟩

def auth (s : SessionId) (password : String) : Event :=
  .element s (.authRequest "PLAIN" (some ⟨"alice", password⟩)) ""

/-- A client session of alice opens its stream and sends a password. -/
def login (s : SessionId) (password : String) : List Event :=
  [.openSession false, .streamStart s ⟨"", "localhost", ""⟩, auth s password]

end Sample

/-- A second session of alice with the password of the connected user is accepted at once. -/
theorem passwordsAgree_alice :
    ∃ tr w e w', machine.Run ((w, e) :: tr) w' ∧ Lib.Machine.Meets Undisputed ((w, e) :: tr) ∧
      Accepts w w' 1 Sample.alice "one" ∧ PasswordsAgree ((w, e) :: tr) w' := by
  have hexec : (((machine.restrict Undisputed).exec (World.start Sample.serverCfg 0 none)
      ([.backendConnected, .received 0 .pong] ++ Sample.login 0 "one" ++
        [.received 0 (.connected Sample.alice "one"), .openSession false,
          .streamStart 1 ⟨"", "localhost", ""⟩])).any fun w =>
      decide (Undisputed w (Sample.auth 1 "one")) &&
        (machine.step w (Sample.auth 1 "one")).any fun w' => decide (w'.log = [.session 1 .resetParser, .session 1 .authSuccess,
          .passwordValid 1 Sample.alice "one",
          .message Sample.alice "You have signed on from another location.",
          .session 1 (.isValidUserPassword Sample.alice "one")] ++ w.log)) = true := by
    decide +kernel
  obtain ⟨w, hw, hlast⟩ := (Option.any_eq_true _ _).mp hexec
  rw [Bool.and_eq_true] at hlast
  have hturn := of_decide_eq_true hlast.1
  obtain ⟨w', hs, hlog⟩ := (Option.any_eq_true _ _).mp hlast.2
  have hlog := of_decide_eq_true hlog
  obtain ⟨tr, hrun, hmeets⟩ :=
    Lib.Machine.exists_run_of_restrict (init_start Sample.serverCfg 0 none) hw
  have hmeets' := Lib.Machine.meets_cons.mpr ⟨hturn, hmeets⟩
  exact ⟨tr, w, _, w', hrun.step hs, hmeets', ⟨_, hlog, by decide⟩,
    passwordsAgree_of_undisputed (hrun.step hs) hmeets'⟩

/-- A CONNECTED for the LOGIN of the first session accepts the password of the second one,
which no backend has ever seen. -/
theorem not_passwordsAgree_of_connected :
    ¬ ∀ (tr : List (World × Event)) (w : World), machine.Run tr w → PasswordsAgree tr w := by
  intro hall
  have hexec : ((machine.exec (World.start Sample.serverCfg 0 none)
      ([.backendConnected, .received 0 .pong] ++ Sample.login 0 "one" ++
        Sample.login 1 "two")).any fun w =>
      decide (w.users Sample.alice = some 0 ∧ (w.user 0).connected = false) &&
        (machine.step w (.received 0 (.connected Sample.alice "one"))).any fun w' =>
          decide (w'.log = [.session 1 .resetParser, .session 1 .authSuccess,
            .passwordValid 1 Sample.alice "two"] ++ w.log)) = true := by
    decide +kernel
  obtain ⟨w, hw, hfacts⟩ := (Option.any_eq_true _ _).mp hexec
  obtain ⟨huser, hstep⟩ := Bool.and_eq_true_iff.mp hfacts
  obtain ⟨hu, hconn⟩ := of_decide_eq_true huser
  obtain ⟨w', hs, hlog⟩ := (Option.any_eq_true _ _).mp hstep
  have hlog := of_decide_eq_true hlog
  obtain ⟨tr, hrun, hevents⟩ :=
    Lib.Machine.exists_run_of_exec (init_start Sample.serverCfg 0 none) hw
  have haccepts : Accepts w w' 1 Sample.alice "two" := ⟨_, hlog, by decide⟩
  rcases hall _ w' (hrun.step hs) 1 Sample.alice "two" haccepts with
    ⟨w₁, b, k, name, hmem, -⟩ | ⟨u, hu', hconn', -⟩
  · rcases List.mem_cons.mp hmem with heq | hmem
    · simp at heq
    · have hevent := List.mem_map_of_mem (f := Prod.snd) hmem
      rw [hevents] at hevent
      simp [Sample.login, Sample.auth] at hevent
  · rw [hu] at hu'
    cases hu'
    rw [hconn] at hconn'
    cases hconn'

end Spectrum
