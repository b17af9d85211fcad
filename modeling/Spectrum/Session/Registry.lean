import Spectrum.Lib.Machine
import Spectrum.Model.Transport

/-!
# The user registry on its own

`Transport::UserRegistry` as one object: the logins that wait for an answer, one per bare JID,
and the timer through which `removeLater` rejects a login. Every call gives the registry after
it with the calls it made to sessions and listeners, oldest first. The slots of the timer are
never disconnected, so a tick runs all of them. A session that is rejected ends later
(`Session.Ending.later`), with a `stopLogin` of its own.

* `rejected_was_asked`: in the runs in which nobody logs in under a JID for which `removeLater`
  was called before, a tick rejects only sessions that were registered when a removal that is
  still due was asked for.
-/

namespace Spectrum

/-- What the registry calls: sessions, and the listeners of its two signals. -/
inductive Registry.Call
  | passwordValid (s : SessionId)
  | passwordInvalid (s : SessionId) (error : String)
  | connectUser (user : Jid)
  | disconnectUser (user : Jid)
  deriving DecidableEq, Repr

structure Registry where
  adminJids : List Jid
  adminPassword : String
  users : Jid → Option Sess
  slots : List Jid
  timer : Bool
  inRemoveLater : Bool

namespace Registry

def setEntry (key : Jid) (e : Option Sess) (r : Registry) : Registry :=
  { r with users := Function.update r.users key e }

/-- A second login for a JID replaces the session of the first, which is rejected. -/
def isValidUserPassword (user : Jid) (s : SessionId) (password : String) (r : Registry) :
    Registry × List Call :=
  if user.toBare ∈ r.adminJids then
    (r, [if password = r.adminPassword then .passwordValid s else .passwordInvalid s ""])
  else
    (r.setEntry user.toBare (some ⟨password, s⟩),
      (r.users user.toBare).toList.map (fun e => .passwordInvalid e.session "") ++
        [.connectUser user])

def stopLogin (user : Jid) (s : SessionId) (r : Registry) : Registry × List Call :=
  let r :=
    match r.users user.toBare with
    | none => r
    | some e => if e.session = s then r.setEntry user.toBare none else r
  (r, if r.inRemoveLater then [] else [.disconnectUser user])

def onPasswordValid (user : Jid) (r : Registry) : Registry × List Call :=
  match r.users user.toBare with
  | none => (r, [])
  | some e => (r.setEntry user.toBare none, [.passwordValid e.session])

def onPasswordInvalid (user : Jid) (error : String) (r : Registry) : Registry × List Call :=
  match r.users user.toBare with
  | none => (r, [])
  | some e => (r.setEntry user.toBare none, [.passwordInvalid e.session error])

def removeLater (user : Jid) (r : Registry) : Registry × List Call :=
  ({ r with slots := r.slots ++ [user], timer := true }, [])

def handleRemoveTimeout (user : Jid) (r : Registry) : Registry × List Call :=
  let c := onPasswordInvalid user "" { r with inRemoveLater := true }
  ({ c.1 with inRemoveLater := false }, c.2)

/-- The slots of the timer, in the order in which they were connected. -/
def runSlots : List Jid → Registry → Registry × List Call
  | [], r => (r, [])
  | user :: users, r =>
    let c := r.handleRemoveTimeout user
    let c' := runSlots users c.1
    (c'.1, c.2 ++ c'.2)

/-- A tick of `m_removeTimer`, which runs once for each start. -/
def tick (r : Registry) : Registry × List Call := runSlots r.slots { r with timer := false }

inductive Event
  | isValidUserPassword (user : Jid) (s : SessionId) (password : String)
  | stopLogin (user : Jid) (s : SessionId)
  | onPasswordValid (user : Jid)
  | onPasswordInvalid (user : Jid) (error : String)
  | removeLater (user : Jid)
  | tick
  deriving DecidableEq, Repr

def Event.run : Event → Registry → Registry × List Call
  | .isValidUserPassword user s password, r => r.isValidUserPassword user s password
  | .stopLogin user s, r => r.stopLogin user s
  | .onPasswordValid user, r => r.onPasswordValid user
  | .onPasswordInvalid user error, r => r.onPasswordInvalid user error
  | .removeLater user, r => r.removeLater user
  | .tick, r => r.tick

def step (r : Registry) (e : Event) : Option Registry :=
  if e = .tick ∧ r.timer = false then none else some (e.run r).1

/-- The registry of a transport that has just been started. -/
def start (adminJids : List Jid) (adminPassword : String) : Registry where
  adminJids := adminJids
  adminPassword := adminPassword
  users := fun _ => none
  slots := []
  timer := false
  inRemoveLater := false

/-- All interleavings of the calls and of the ticks. -/
def machine : Lib.Machine Registry Event where
  init r := ∃ adminJids adminPassword, r = start adminJids adminPassword
  step := step

/-! ## Pending logins only go away -/

variable {r : Registry} {tr : List (Registry × Event)}

/-- Every login of `r'` is a login of `r`. -/
def Fewer (r r' : Registry) : Prop := ∀ j e, r'.users j = some e → r.users j = some e

theorem Fewer.refl (r : Registry) : Fewer r r := fun _ _ h => h

theorem Fewer.trans {r₁ r₂ r₃ : Registry} (h : Fewer r₁ r₂) (h' : Fewer r₂ r₃) : Fewer r₁ r₃ :=
  fun j e he => h j e (h' j e he)

theorem fewer_erase (key : Jid) (r : Registry) : Fewer r (r.setEntry key none) := by
  intro j e he
  by_cases hj : j = key
  · subst hj
    simp [setEntry] at he
  · simpa [setEntry, hj] using he

theorem fewer_stopLogin (user : Jid) (s : SessionId) (r : Registry) :
    Fewer r (r.stopLogin user s).1 := by
  unfold stopLogin
  dsimp only
  split
  · exact .refl r
  · split
    · exact fewer_erase _ r
    · exact .refl r

theorem fewer_onPasswordValid (user : Jid) (r : Registry) : Fewer r (r.onPasswordValid user).1 := by
  unfold onPasswordValid
  split
  · exact .refl r
  · exact fewer_erase _ r

theorem fewer_onPasswordInvalid (user : Jid) (error : String) (r : Registry) :
    Fewer r (r.onPasswordInvalid user error).1 := by
  unfold onPasswordInvalid
  split
  · exact .refl r
  · exact fewer_erase _ r

@[simp] theorem slots_stopLogin (user : Jid) (s : SessionId) (r : Registry) :
    (r.stopLogin user s).1.slots = r.slots := by
  unfold stopLogin
  dsimp only
  split
  · rfl
  · split <;> rfl

@[simp] theorem slots_onPasswordValid (user : Jid) (r : Registry) :
    (r.onPasswordValid user).1.slots = r.slots := by
  unfold onPasswordValid
  split <;> rfl

@[simp] theorem slots_onPasswordInvalid (user : Jid) (error : String) (r : Registry) :
    (r.onPasswordInvalid user error).1.slots = r.slots := by
  unfold onPasswordInvalid
  split <;> rfl

/-! ## A tick -/

theorem fewer_handleRemoveTimeout (user : Jid) (r : Registry) :
    Fewer r (r.handleRemoveTimeout user).1 :=
  fewer_onPasswordInvalid user "" { r with inRemoveLater := true }

@[simp] theorem slots_handleRemoveTimeout (user : Jid) (r : Registry) :
    (r.handleRemoveTimeout user).1.slots = r.slots :=
  slots_onPasswordInvalid user "" { r with inRemoveLater := true }

theorem users_handleRemoveTimeout (user : Jid) (r : Registry) :
    (r.handleRemoveTimeout user).1.users user.toBare = none := by
  unfold handleRemoveTimeout onPasswordInvalid
  dsimp only
  split
  · rename_i hnone
    exact hnone
  · simp [setEntry]

/-- What one slot rejects is the session that is registered for its JID. -/
theorem mem_handleRemoveTimeout {user : Jid} {s : SessionId} {error : String}
    (h : .passwordInvalid s error ∈ (r.handleRemoveTimeout user).2) :
    ∃ e, r.users user.toBare = some e ∧ e.session = s := by
  unfold handleRemoveTimeout onPasswordInvalid at h
  dsimp only at h
  split at h
  · cases h
  · rename_i e he
    simp only [List.mem_singleton, Call.passwordInvalid.injEq] at h
    exact ⟨e, he, h.1.symm⟩

theorem fewer_runSlots (users : List Jid) (r : Registry) : Fewer r (runSlots users r).1 := by
  induction users generalizing r with
  | nil => exact .refl r
  | cons user users ih => exact (fewer_handleRemoveTimeout user r).trans (ih _)

@[simp] theorem slots_runSlots (users : List Jid) (r : Registry) :
    (runSlots users r).1.slots = r.slots := by
  induction users generalizing r with
  | nil => rfl
  | cons user users ih => exact (ih _).trans (slots_handleRemoveTimeout user r)

theorem users_runSlots {users : List Jid} {user : Jid} (h : user ∈ users) (r : Registry) :
    (runSlots users r).1.users user.toBare = none := by
  induction users generalizing r with
  | nil => cases h
  | cons v users ih =>
    rcases List.mem_cons.mp h with rfl | h
    · -- its own slot erases the login, and later slots bring none back
      cases hlast : (runSlots (user :: users) r).1.users user.toBare with
      | none => rfl
      | some e =>
        have hkept := fewer_runSlots users (r.handleRemoveTimeout user).1 _ e hlast
        rw [users_handleRemoveTimeout] at hkept
        cases hkept
    · exact ih h _

theorem mem_runSlots {users : List Jid} {s : SessionId} {error : String}
    (h : .passwordInvalid s error ∈ (runSlots users r).2) :
    ∃ user ∈ users, ∃ e, r.users user.toBare = some e ∧ e.session = s := by
  induction users generalizing r with
  | nil => cases h
  | cons v users ih =>
    rcases List.mem_append.mp h with h | h
    · exact ⟨v, List.mem_cons_self, mem_handleRemoveTimeout h⟩
    · obtain ⟨user, hmem, e, he, hs⟩ := ih h
      exact ⟨user, List.mem_cons_of_mem v hmem, e, fewer_handleRemoveTimeout v r _ e he, hs⟩

/-! ## Removals that were asked for -/

/-- A removal that no tick has served yet was asked for while `s` was registered. -/
def Asked (tr : List (Registry × Event)) (s : SessionId) : Prop :=
  ∃ later r user earlier, tr = later ++ (r, .removeLater user) :: earlier ∧
    (∀ p ∈ later, p.2 ≠ .tick) ∧ (r.users user.toBare).map Sess.session = some s

theorem Asked.cons {s : SessionId} {e : Event} (h : Asked tr s) (he : e ≠ .tick) :
    Asked ((r, e) :: tr) s := by
  obtain ⟨later, r₀, user, earlier, rfl, hlater, hs⟩ := h
  refine ⟨(r, e) :: later, r₀, user, earlier, rfl, ?_, hs⟩
  intro p hp
  rcases List.mem_cons.mp hp with rfl | hp
  · exact he
  · exact hlater p hp

/-- The next tick rejects only sessions whose removal was asked for. -/
def RejectsAsked (tr : List (Registry × Event)) (r : Registry) : Prop :=
  r.timer = true → ∀ s error, .passwordInvalid s error ∈ r.tick.2 → Asked tr s

/-- Nobody logs in under a JID whose removal has ever been asked for. -/
def Unasked (r : Registry) : Event → Prop
  | .isValidUserPassword user _ _ =>
    user.toBare ∈ r.adminJids ∨ user.toBare ∉ r.slots.map Jid.toBare
  | _ => True

instance (r : Registry) : (e : Event) → Decidable (Unasked r e)
  | .isValidUserPassword user _ _ =>
    inferInstanceAs
      (Decidable (user.toBare ∈ r.adminJids ∨ user.toBare ∉ r.slots.map Jid.toBare))
  | .stopLogin _ _ | .onPasswordValid _ | .onPasswordInvalid _ _ | .removeLater _ | .tick =>
    .isTrue trivial

/-- The logins of the JIDs that have slots are those whose removal was asked for. -/
def SlotsAsked (tr : List (Registry × Event)) (r : Registry) : Prop :=
  ∀ user ∈ r.slots, ∀ e, r.users user.toBare = some e → Asked tr e.session

theorem SlotsAsked.of_fewer {r' : Registry} {e : Event} (h : SlotsAsked tr r) (he : e ≠ .tick)
    (hfewer : Fewer r r') (hslots : r'.slots = r.slots) : SlotsAsked ((r, e) :: tr) r' := by
  intro user huser entry hentry
  rw [hslots] at huser
  exact (h user huser entry (hfewer _ _ hentry)).cons he

theorem slotsAsked_login {user : Jid} {s : SessionId} {password : String}
    (h : SlotsAsked tr r) (hc : Unasked r (.isValidUserPassword user s password)) :
    SlotsAsked ((r, .isValidUserPassword user s password) :: tr)
      (r.isValidUserPassword user s password).1 := by
  unfold isValidUserPassword
  split
  · exact h.of_fewer nofun (.refl r) rfl
  · rename_i hadmin
    intro v hv e he
    have hne : v.toBare ≠ user.toBare := by
      intro heq
      rcases hc with hc | hc
      · exact hadmin hc
      · exact hc (heq ▸ List.mem_map_of_mem hv)
    have hold : r.users v.toBare = some e := by simpa [setEntry, hne] using he
    exact (h v hv e hold).cons nofun

theorem slotsAsked_removeLater (user : Jid) (h : SlotsAsked tr r) :
    SlotsAsked ((r, .removeLater user) :: tr) (r.removeLater user).1 := by
  intro v hv e he
  rcases List.mem_append.mp hv with hv | hv
  · exact (h v hv e he).cons nofun
  · rw [List.mem_singleton.mp hv] at he
    have hs : (r.users user.toBare).map Sess.session = some e.session := by
      have hr : r.users user.toBare = some e := he
      simp [hr]
    exact ⟨[], r, user, tr, rfl, nofun, hs⟩

theorem slotsAsked_tick : SlotsAsked ((r, .tick) :: tr) r.tick.1 := by
  intro user huser e he
  have hmem : user ∈ r.slots := by simpa [tick] using huser
  have hnone : r.tick.1.users user.toBare = none := users_runSlots hmem _
  rw [hnone] at he
  cases he

theorem slotsAsked_step {r' : Registry} {e : Event} (hc : Unasked r e) (hs : step r e = some r')
    (h : SlotsAsked tr r) : SlotsAsked ((r, e) :: tr) r' := by
  unfold step at hs
  split at hs
  · cases hs
  · cases hs
    cases e with
    | isValidUserPassword user s password => exact slotsAsked_login h hc
    | stopLogin user s => exact h.of_fewer nofun (fewer_stopLogin user s r) (slots_stopLogin ..)
    | onPasswordValid user =>
      exact h.of_fewer nofun (fewer_onPasswordValid user r) (slots_onPasswordValid ..)
    | onPasswordInvalid user error =>
      exact h.of_fewer nofun (fewer_onPasswordInvalid user error r) (slots_onPasswordInvalid ..)
    | removeLater user => exact slotsAsked_removeLater user h
    | tick => exact slotsAsked_tick

theorem slotsAsked (h : machine.Run tr r) (hc : Lib.Machine.Meets Unasked tr) :
    SlotsAsked tr r := by
  induction h with
  | init h0 =>
    obtain ⟨adminJids, adminPassword, rfl⟩ := h0
    exact nofun
  | step _ hs ih =>
    obtain ⟨hcond, hrest⟩ := Lib.Machine.meets_cons.mp hc
    exact slotsAsked_step hcond hs (ih hrest)

/-- A tick rejects only the sessions it was meant for, as long as nobody logs in under a JID
whose removal has been asked for before. -/
theorem rejected_was_asked (h : machine.Run tr r) (hc : Lib.Machine.Meets Unasked tr) :
    RejectsAsked tr r := by
  intro _ s error hmem
  obtain ⟨user, huser, e, he, rfl⟩ := mem_runSlots hmem
  exact slotsAsked h hc user huser e he

namespace Sample

def alice : Jid := ⟨"alice", "localhost", ""⟩

def bob : Jid := ⟨"bob", "localhost", ""⟩

/-- A login whose removal is due. -/
def asked : List Event := [.isValidUserPassword alice 0 "wrong", .removeLater alice]

end Sample

theorem rejected_was_asked_alice : ∃ tr r, machine.Run tr r ∧ r.timer = true ∧
    .passwordInvalid 0 "" ∈ r.tick.2 ∧ Asked tr 0 := by
  have hexec : ∃ r, (machine.restrict Unasked).exec (start [] "") Sample.asked = some r ∧
      r.timer = true ∧ .passwordInvalid 0 "" ∈ r.tick.2 := ⟨_, rfl, rfl, List.mem_cons_self⟩
  obtain ⟨r, hr, htimer, hmem⟩ := hexec
  have hinit : machine.init (start [] "") := ⟨[], "", rfl⟩
  obtain ⟨tr, h, hc⟩ := Lib.Machine.exists_run_of_restrict hinit hr
  exact ⟨tr, r, h, htimer, hmem, rejected_was_asked h hc htimer 0 "" hmem⟩

/-- The slot of a removal that was served rejects the next login of the same JID as soon as the
removal of another one is due. -/
theorem not_rejectsAsked : ¬ ∀ tr r, machine.Run tr r → RejectsAsked tr r := by
  intro hall
  have h0 : machine.Run [] (start [] "") := .init ⟨[], "", rfl⟩
  have h1 := h0.step (e := .isValidUserPassword Sample.alice 0 "wrong") rfl
  have h2 := h1.step (e := .removeLater Sample.alice) rfl
  have h3 := h2.step (e := .tick) rfl
  have h4 := h3.step (e := .isValidUserPassword Sample.alice 1 "right") rfl
  have h5 := h4.step (e := .removeLater Sample.bob) rfl
  obtain ⟨later, r, user, earlier, heq, hlater, hs⟩ := hall _ _ h5 rfl 1 "" List.mem_cons_self
  match later, heq with
  | [], heq =>
    obtain ⟨heq, -⟩ := List.cons.inj heq
    obtain ⟨rfl, huser⟩ := Prod.mk.inj heq
    cases huser
    cases hs
  | [_], heq => cases heq
  | [_, _], heq => cases heq
  | p :: q :: t :: rest, heq =>
    have ht : t = _ := (List.cons.inj (List.cons.inj (List.cons.inj heq).2).2).1.symm
    exact hlater t (by simp) (by rw [ht])

end Registry

/-! ## The registry of the transport -/

/-- The registry as a part of the transport. -/
def World.userRegistry (w : World) : Registry where
  adminJids := w.cfg.adminJids
  adminPassword := w.cfg.adminPassword
  users := w.registry
  slots := w.registrySlots
  timer := w.registryTimer
  inRemoveLater := w.inRemoveLater

namespace UserRegistry

@[simp] theorem userRegistry_callSession (s : SessionId)
    (f : Session → Session × List Session.Output) (w : World) :
    (callSession s f w).userRegistry = w.userRegistry := by
  unfold callSession
  split <;> rfl

theorem userRegistry_setEntry (key : Jid) (e : Option Sess) (w : World) :
    (setEntry key e w).userRegistry = w.userRegistry.setEntry key e := rfl

theorem userRegistry_users (w : World) : w.userRegistry.users = w.registry := rfl

theorem userRegistry_onPasswordValid (user : Jid) (w : World) :
    (onPasswordValid user w).userRegistry = (w.userRegistry.onPasswordValid user).1 := by
  unfold onPasswordValid Registry.onPasswordValid
  rw [userRegistry_users]
  cases w.registry user.toBare with
  | none => rfl
  | some e =>
    dsimp only
    rw [userRegistry_setEntry, userRegistry_callSession]
    rfl

theorem userRegistry_onPasswordInvalid (user : Jid) (error : String) (w : World) :
    (onPasswordInvalid user error w).userRegistry =
      (w.userRegistry.onPasswordInvalid user error).1 := by
  unfold onPasswordInvalid Registry.onPasswordInvalid
  rw [userRegistry_users]
  cases w.registry user.toBare with
  | none => rfl
  | some e =>
    dsimp only
    rw [userRegistry_setEntry, userRegistry_callSession]

theorem userRegistry_removeLater (user : Jid) (w : World) :
    (removeLater user w).userRegistry = (w.userRegistry.removeLater user).1 := rfl

theorem userRegistry_handleRemoveTimeout (user : Jid) (w : World) :
    (handleRemoveTimeout user w).userRegistry = (w.userRegistry.handleRemoveTimeout user).1 := by
  have h := userRegistry_onPasswordInvalid user "" { w with inRemoveLater := true }
  exact congrArg (fun r : Registry => { r with inRemoveLater := false }) h

theorem userRegistry_removeTick (w : World) :
    (removeTick w).userRegistry = w.userRegistry.tick.1 := by
  have hslots : ∀ (users : List Jid) (w : World),
      (users.foldl (fun w user => handleRemoveTimeout user w) w).userRegistry =
        (Registry.runSlots users w.userRegistry).1 := by
    intro users
    induction users with
    | nil => exact fun _ => rfl
    | cons user users ih =>
      intro w
      rw [List.foldl_cons, ih, userRegistry_handleRemoveTimeout]
      rfl
  exact hslots w.registrySlots { w with registryTimer := false }

/-- The login of a session enters the registry before `UserManager` hears of it. -/
theorem isValidUserPassword_connects {user : Jid} {w : World} (s : SessionId) (password : String)
    (hadmin : user.toBare ∉ w.cfg.adminJids) :
    ∃ w', isValidUserPassword user s password w = UserManager.connectUser user w' ∧
      w'.userRegistry = (w.userRegistry.isValidUserPassword user s password).1 := by
  unfold isValidUserPassword
  rw [if_neg hadmin]
  refine ⟨_, rfl, ?_⟩
  have hadmin' : user.toBare ∉ w.userRegistry.adminJids := hadmin
  rw [Registry.isValidUserPassword, if_neg hadmin', userRegistry_setEntry]
  dsimp only
  split
  · rfl
  · rw [userRegistry_callSession, userRegistry_setEntry]
    simp [Registry.setEntry]

theorem userRegistry_eraseLogin (user : Jid) (s : SessionId) (w : World) :
    (eraseLogin user.toBare s w).userRegistry = (w.userRegistry.stopLogin user s).1 := by
  unfold eraseLogin Registry.stopLogin
  rw [userRegistry_users]
  cases w.registry user.toBare with
  | none => rfl
  | some e =>
    dsimp only
    split <;> rfl

end UserRegistry

end Spectrum
