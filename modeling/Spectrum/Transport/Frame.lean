import Spectrum.Model.Transport

/-!
# What the frontend leaves alone

Most callbacks of the XMPP side change neither a backend nor the queue nor the link of a
user to his backend. `Quiet` says this once: the core of the state is the same and the log
is extended by effects of a given kind. A callback of the frontend is a sequence of quiet
operations, creations and removals of users (`Front`), so an invariant about backends and
users is checked against these three and holds for every such callback.
-/

namespace Spectrum

open World NetworkPluginServer

/-- A user without the fields that presences change. -/
def User.core (x : User) : User :=
  { x with
    readyForConnect := false, reconnectTimer := false, resources := 0,
    cacheMessages := false, joinedRooms := [], convs := [] }

/-- The part of the state that the frontend does not touch. -/
structure Core where
  cfg : Config
  now : Int
  clients : List BackendId
  backends : BackendId → Backend
  nextBackend : BackendId
  waitingUsers : List UserId
  isNextLongRun : Bool
  startingBackend : Bool
  lastLogin : Int
  loginTimer : Bool
  users : Jid → Option UserId
  user : UserId → User
  nextUser : UserId

namespace World

def core (w : World) : Core where
  cfg := w.cfg
  now := w.now
  clients := w.clients
  backends := w.backends
  nextBackend := w.nextBackend
  waitingUsers := w.waitingUsers
  isNextLongRun := w.isNextLongRun
  startingBackend := w.startingBackend
  lastLogin := w.lastLogin
  loginTimer := w.loginTimer
  users := w.users
  user := fun u => (w.user u).core
  nextUser := w.nextUser

theorem core_modUser (u : UserId) {f : User → User} (hf : ∀ x, (f x).core = x.core)
    (w : World) : (w.modUser u f).core = w.core := by
  have huser : (fun v => ((w.modUser u f).user v).core) = fun v => (w.user v).core := by
    funext v
    by_cases hv : v = u
    · subst hv
      simp [modUser, hf]
    · simp [modUser, Function.update_of_ne hv]
  exact congrArg (fun us => { w.core with user := us }) huser

end World

/-! ## Extensions of the log -/

/-- The log of `w'` continues the log of `w` with effects that satisfy `P`. -/
def Logs (P : Effect → Prop) (w w' : World) : Prop := ∃ l, w'.log = l ++ w.log ∧ ∀ e ∈ l, P e

namespace Logs

variable {P Q : Effect → Prop} {w w₁ w₂ : World}

theorem of_eq (h : w₁.log = w.log) : Logs P w w₁ := ⟨[], by simpa using h, by simp⟩

theorem trans (h : Logs P w w₁) (h' : Logs P w₁ w₂) : Logs P w w₂ := by
  obtain ⟨l, hl, hP⟩ := h
  obtain ⟨l', hl', hP'⟩ := h'
  refine ⟨l' ++ l, ?_, ?_⟩
  · rw [hl', hl, List.append_assoc]
  · intro e he
    rcases List.mem_append.mp he with he | he
    · exact hP' e he
    · exact hP e he

theorem mono (hPQ : ∀ e, P e → Q e) (h : Logs P w w₁) : Logs Q w w₁ := by
  obtain ⟨l, hl, hP⟩ := h
  exact ⟨l, hl, fun e he => hPQ e (hP e he)⟩

theorem emit {e : Effect} (he : P e) : Logs P w (w.emit e) :=
  ⟨[e], rfl, fun e' he' => by rw [List.mem_singleton.mp he']; exact he⟩

theorem mem_of_mem (h : Logs P w w₁) {e : Effect} (he : e ∈ w.log) : e ∈ w₁.log := by
  obtain ⟨l, hl, -⟩ := h
  rw [hl]
  exact List.mem_append_right _ he

end Logs

/-! ## Quiet operations -/

/-- The operation changed nothing of the core and logged only effects of kind `P`. -/
structure Quiet (P : Effect → Prop) (w w' : World) : Prop where
  core : w'.core = w.core
  log : Logs P w w'

namespace Quiet

variable {P Q : Effect → Prop} {w w₁ w₂ : World}

theorem refl (P : Effect → Prop) (w : World) : Quiet P w w := ⟨rfl, .of_eq rfl⟩

theorem trans (h : Quiet P w w₁) (h' : Quiet P w₁ w₂) : Quiet P w w₂ :=
  ⟨h'.core.trans h.core, h.log.trans h'.log⟩

theorem mono (hPQ : ∀ e, P e → Q e) (h : Quiet P w w₁) : Quiet Q w w₁ :=
  ⟨h.core, h.log.mono hPQ⟩

theorem cfg (h : Quiet P w w₁) : w₁.cfg = w.cfg := congrArg Core.cfg h.core

theorem clients (h : Quiet P w w₁) : w₁.clients = w.clients := congrArg Core.clients h.core

theorem backends (h : Quiet P w w₁) : w₁.backends = w.backends := congrArg Core.backends h.core

theorem nextBackend (h : Quiet P w w₁) : w₁.nextBackend = w.nextBackend :=
  congrArg Core.nextBackend h.core

theorem waitingUsers (h : Quiet P w w₁) : w₁.waitingUsers = w.waitingUsers :=
  congrArg Core.waitingUsers h.core

theorem loginTimer (h : Quiet P w w₁) : w₁.loginTimer = w.loginTimer :=
  congrArg Core.loginTimer h.core

theorem users (h : Quiet P w w₁) : w₁.users = w.users := congrArg Core.users h.core

theorem nextUser (h : Quiet P w w₁) : w₁.nextUser = w.nextUser := congrArg Core.nextUser h.core

theorem user (h : Quiet P w w₁) (u : UserId) : (w₁.user u).core = (w.user u).core :=
  congrFun (congrArg Core.user h.core) u

theorem data (h : Quiet P w w₁) (u : UserId) : (w₁.user u).data = (w.user u).data :=
  (congrArg User.data (h.user u) :)

theorem jid (h : Quiet P w w₁) (u : UserId) : (w₁.user u).jid = (w.user u).jid :=
  (congrArg User.jid (h.user u) :)

theorem emit {e : Effect} (he : P e) : Quiet P w (w.emit e) := ⟨rfl, .emit he⟩

theorem modUser (u : UserId) {f : User → User} (hf : ∀ x, (f x).core = x.core) :
    Quiet P w (w.modUser u f) := ⟨core_modUser u hf w, .of_eq rfl⟩

end Quiet

theorem startComponent_user (w : World) : (startComponent w).user = w.user := by
  unfold startComponent
  split
  · rfl
  · rfl

theorem quiet_startComponent (w : World) :
    Quiet (fun e => e = .componentStart) w (startComponent w) := by
  unfold startComponent
  split
  · exact ⟨rfl, .emit rfl⟩
  · exact .refl _ w

theorem noteData_eq (b : BackendId) (w : World) :
    ∃ v, noteData b w = w.modBackend b fun c => { c with pongReceived := v } := by
  unfold noteData
  split
  · exact ⟨1, rfl⟩
  · refine ⟨(w.backends b).pongReceived, ?_⟩
    simp [modBackend]

/-- The effects that quiet operations of the frontend log. -/
def Effect.Tame : Effect → Prop
  | .send .. | .presenceChanged .. | .message .. | .adminPassword .. | .session .. => True
  | _ => False

/-! ## Sequences of operations -/

/-- A sequence of quiet operations, creations and removals of users. A removal erases the
user from the map first and reaches `handleUserDestroyed` after quiet operations only. -/
inductive Front (P : Effect → Prop) : World → World → Prop
  | quiet {w w' : World} (h : Quiet P w w') : Front P w w'
  | create {w : World} (j : Jid) (info : UserInfo) (h : w.users j.toBare = none) :
      Front P w (UserManager.addUser j info w)
  | remove {w w' : World} {u : UserId} {j : Jid} (hu : w.users j = some u)
      (h : Quiet P { w with users := Function.update w.users (w.user u).jid.toBare none } w') :
      Front P w (handleUserDestroyed u w')
  | trans {w w₁ w₂ : World} (h : Front P w w₁) (h' : Front P w₁ w₂) : Front P w w₂

/-- The effects that the frontend logs: the tame ones and the accepted logins. -/
def Effect.Mild : Effect → Prop
  | .passwordValid .. => True
  | e => e.Tame

theorem Effect.Tame.mild {e : Effect} (h : e.Tame) : e.Mild := by
  cases e <;> trivial

end Spectrum
