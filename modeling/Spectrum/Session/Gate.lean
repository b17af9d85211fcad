import Spectrum.Lib.Machine
import Spectrum.Session.Model

/-!
# The authentication gate of a session

The environment of one session: the client opens streams and sends elements in any order
and number, the connection reports the end of the stream, for whatever reason, and the
registry answers the password checks that the session asked for, each answer at any later
time. `Gate` adds to the session what the gate is about: the checks
still unanswered, the JIDs for which `handlePasswordValid` was called, and everything the
session has done.

`handleElement` never reads `authenticated`. A client that asks for a session before
authenticating gets it, and a second auth request changes the name under which a later
bind binds. The gate holds in the runs in which the client keeps to the order that
`handleStreamStart` announces (`Orderly`): authenticate, bind, start the session.
-/

namespace Spectrum.Session

open Lib

/-- A session together with the history of its password checks. -/
structure Gate where
  session : Session
  asked : List Jid := []
  validated : List Jid := []
  outputs : List Output := []

namespace Gate

/-- What can happen to a session before and after it is initialized. -/
inductive Event
  | streamStart (toJid : Jid)
  | element (e : Element) (uuid : String)
  | tlsConnected
  | passwordValid (user : Jid)
  | passwordInvalid (user : Jid) (error : String)
  | sessionFinished

/-- The password check requested by an output. -/
def request? : Output → Option Jid
  | .isValidUserPassword user _ => some user
  | _ => none

/-- Continue with the result of a session operation. -/
def after (g : Gate) (r : Session × List Output) : Gate :=
  { g with
    session := r.1
    asked := g.asked ++ r.2.filterMap request?
    outputs := r.2.reverse ++ g.outputs }

/-- `finishSession` is the last call of the operations that make it. -/
def ended (prep : StringPrep) (ends : Ending) (g : Gate) (r : Session × List Output) : Gate :=
  let g := g.after r
  if ends = .atOnce ∧ .finishSession ∈ r.2 then g.after (g.session.handleSessionFinished prep)
  else g

/-- One event. The registry answers only checks that are still unanswered. -/
def step (prep : StringPrep) (ends : Ending) (g : Gate) : Event → Option Gate
  | .streamStart toJid => some (g.after (g.session.handleStreamStart toJid))
  | .element e uuid => some (g.ended prep ends (g.session.handleElement prep uuid e))
  | .tlsConnected => some (g.after g.session.handleTlsConnected)
  | .passwordValid user =>
    if user ∈ g.asked then
      some ({ g with asked := g.asked.erase user, validated := user :: g.validated }.after
        g.session.handlePasswordValid)
    else none
  | .passwordInvalid user error =>
    if user ∈ g.asked then
      some ({ g with asked := g.asked.erase user }.ended prep ends
        (g.session.handlePasswordInvalid error))
    else none
  | .sessionFinished => some (g.after (g.session.handleSessionFinished prep))

/-- A session as `Server::handleNewClientConnection` creates it: `setAllowSASLEXTERNAL` is
not called and the remote JID is the default one. -/
def fresh (tlsLayer : Bool) : Gate := { session := { tlsLayer := tlsLayer } }

/-- All runs of one session. -/
def machine (prep : StringPrep) (ends : Ending) : Machine Gate Event where
  init g := ∃ tlsLayer, g = fresh tlsLayer
  step := step prep ends

theorem init_fresh (prep : StringPrep) (ends : Ending) (tlsLayer : Bool) :
    (machine prep ends).init (fresh tlsLayer) :=
  ⟨tlsLayer, rfl⟩

/-- The session has been started or has forwarded an element. -/
def Started (g : Gate) : Prop :=
  g.session.initialized = true ∨ .onSessionStarted ∈ g.outputs ∨
    ∃ e, .onElementReceived e ∈ g.outputs

/-- A started session carries the bare JID of a check that was answered with
`handlePasswordValid`. -/
def Guarded (g : Gate) : Prop :=
  g.Started → g.session.remoteJid.toBare ∈ g.validated

/-- What an uninitialized session may be sent next by a client that keeps the announced
order: one password check at a time and none after success, a bind only when authenticated,
a session start only when bound, and no other stream domain once a check has been made. -/
def InOrder (g : Gate) : Event → Prop
  | .element (.authRequest mechanism _) _ =>
    mechanism = "PLAIN" → g.session.authenticated = false ∧ g.asked = []
  | .element (.iq .resourceBind _) _ => g.session.authenticated = true
  | .element (.iq .startSession _) _ => g.session.remoteJid ≠ Jid.empty
  | .streamStart toJid =>
    g.asked = [] ∧ (g.session.authenticated = true → toJid.domain = g.session.localJid.domain)
  | _ => True

/-- The condition on a step; an initialized session may be sent anything. -/
def Orderly (g : Gate) (ev : Event) : Prop := g.session.initialized = false → InOrder g ev

instance (g : Gate) (ev : Event) : Decidable (InOrder g ev) :=
  match ev with
  | .element (.authRequest mechanism _) _ =>
    inferInstanceAs (Decidable
      (mechanism = "PLAIN" → g.session.authenticated = false ∧ g.asked = []))
  | .element (.iq .resourceBind _) _ =>
    inferInstanceAs (Decidable (g.session.authenticated = true))
  | .element (.iq .startSession _) _ =>
    inferInstanceAs (Decidable (g.session.remoteJid ≠ Jid.empty))
  | .streamStart toJid =>
    inferInstanceAs (Decidable
      (g.asked = [] ∧ (g.session.authenticated = true → toJid.domain = g.session.localJid.domain)))
  | .element (.iq .other _) _ => isTrue trivial
  | .element .startTls _ => isTrue trivial
  | .element (.presence _) _ => isTrue trivial
  | .element .message _ => isTrue trivial
  | .element .other _ => isTrue trivial
  | .tlsConnected => isTrue trivial
  | .passwordValid _ => isTrue trivial
  | .passwordInvalid _ _ => isTrue trivial
  | .sessionFinished => isTrue trivial

instance (g : Gate) (ev : Event) : Decidable (Orderly g ev) :=
  inferInstanceAs (Decidable (g.session.initialized = false → InOrder g ev))

/-! ## The invariant of orderly runs -/

/-- What an orderly client keeps: a pending check is the only one and is about the current
name, an authenticated session has a validated name, and a bound or started session carries
a validated JID. -/
structure Kept (prep : StringPrep) (g : Gate) : Prop where
  noExternal : g.session.allowSaslExternal = false
  pending : g.session.initialized = false →
    g.asked = [] ∨ (g.session.authenticated = false ∧ g.asked = [g.session.getBareJid prep])
  authenticated : g.session.authenticated = true → g.session.initialized = false →
    g.session.getBareJid prep ∈ g.validated
  bound : g.session.remoteJid ≠ Jid.empty → g.session.remoteJid.toBare ∈ g.validated
  guarded : g.Guarded

theorem kept_fresh (prep : StringPrep) (tlsLayer : Bool) : Kept prep (fresh tlsLayer) where
  noExternal := rfl
  pending := fun _ => Or.inl rfl
  authenticated := by simp [fresh]
  bound := by simp [fresh]
  guarded := by
    intro h
    simp [Started, fresh] at h

/-- An output that neither asks the registry nor reaches the listeners. -/
def Silent (o : Output) : Prop :=
  request? o = none ∧ o ≠ .onSessionStarted ∧ ∀ e, o ≠ .onElementReceived e

theorem started_after {g : Gate} {r : Session × List Output} (hr : ∀ o ∈ r.2, Silent o)
    (hi : r.1.initialized = g.session.initialized) (h : (g.after r).Started) : g.Started := by
  rcases h with h | h | ⟨e, h⟩
  · exact Or.inl (hi ▸ h)
  · rcases List.mem_append.mp h with h | h
    · exact absurd rfl (hr _ (List.mem_reverse.mp h)).2.1
    · exact Or.inr (Or.inl h)
  · rcases List.mem_append.mp h with h | h
    · exact absurd rfl ((hr _ (List.mem_reverse.mp h)).2.2 e)
    · exact Or.inr (Or.inr ⟨e, h⟩)

theorem asked_after {g : Gate} {r : Session × List Output} (hr : ∀ o ∈ r.2, Silent o) :
    (g.after r).asked = g.asked := by
  have hnil : r.2.filterMap request? = [] :=
    List.filterMap_eq_nil_iff.mpr fun o ho => (hr o ho).1
  simp [after, hnil]

/-- The fields of a session that the gate reads. -/
def SameGate (s t : Session) : Prop :=
  t.allowSaslExternal = s.allowSaslExternal ∧ t.initialized = s.initialized ∧
    t.authenticated = s.authenticated ∧ t.user = s.user ∧
    t.localJid.domain = s.localJid.domain ∧ t.remoteJid = s.remoteJid

theorem Kept.of_silent {prep : StringPrep} {g : Gate} {r : Session × List Output}
    (h : Kept prep g) (hs : SameGate g.session r.1) (hr : ∀ o ∈ r.2, Silent o) :
    Kept prep (g.after r) := by
  obtain ⟨hx, hi, ha, hu, hd, hj⟩ := hs
  have hbare : r.1.getBareJid prep = g.session.getBareJid prep := by
    simp only [getBareJid, hu, hd]
  refine ⟨hx.trans h.noExternal, ?_, ?_, ?_, ?_⟩
  · intro h0
    rw [asked_after hr]
    change g.asked = [] ∨ (r.1.authenticated = false ∧ g.asked = [r.1.getBareJid prep])
    rw [ha, hbare]
    exact h.pending (hi.symm.trans h0)
  · intro h1 h0
    change r.1.getBareJid prep ∈ g.validated
    rw [hbare]
    exact h.authenticated (ha.symm.trans h1) (hi.symm.trans h0)
  · intro hne
    change r.1.remoteJid.toBare ∈ g.validated
    rw [hj]
    exact h.bound fun he => hne (hj.trans he)
  · intro hst
    change r.1.remoteJid.toBare ∈ g.validated
    rw [hj]
    exact h.guarded (started_after hr hi hst)

theorem Kept.sessionFinished {prep : StringPrep} {g : Gate} (h : Kept prep g) :
    Kept prep (g.after (g.session.handleSessionFinished prep)) :=
  h.of_silent ⟨rfl, rfl, rfl, rfl, rfl, rfl⟩ (by simp [handleSessionFinished, Silent, request?])

/-- The end of the stream changes nothing, whenever it is reported. -/
theorem Kept.ended {prep : StringPrep} {g : Gate} {r : Session × List Output}
    (h : Kept prep (g.after r)) (ends : Ending) : Kept prep (g.ended prep ends r) := by
  unfold Gate.ended
  dsimp only
  split
  · exact h.sessionFinished
  · exact h

/-- An initialized session only forwards, so nothing it is about changes. -/
theorem kept_forward {prep : StringPrep} {g : Gate} {e : Element} (h : Kept prep g)
    (hi : g.session.initialized = true) :
    Kept prep (g.after (g.session, [.onElementReceived e])) := by
  have hbare := h.guarded (Or.inl hi)
  refine ⟨h.noExternal, ?_, ?_, fun _ => hbare, fun _ => hbare⟩
  · intro h0
    exact absurd (hi.symm.trans h0) (by simp)
  · intro _ h0
    exact absurd (hi.symm.trans h0) (by simp)

theorem kept_plain {prep : StringPrep} {g : Gate} {plain : PlainMessage} (h : Kept prep g)
    (ha : g.session.authenticated = false) (hq : g.asked = []) :
    Kept prep (g.after ({ g.session with user := plain.authenticationID },
      [.isValidUserPassword (prep.bareJid plain.authenticationID g.session.localJid.domain)
        plain.password])) := by
  refine ⟨h.noExternal, fun _ => Or.inr ⟨ha, ?_⟩, ?_, h.bound, ?_⟩
  · simp [after, hq, request?, getBareJid]
  · intro h1
    exact absurd (ha.symm.trans h1) (by simp)
  · intro hst
    refine h.guarded ?_
    rcases hst with hst | hst | ⟨e, hst⟩
    · exact Or.inl hst
    · exact Or.inr (Or.inl (by simpa [after] using hst))
    · exact Or.inr (Or.inr ⟨e, by simpa [after] using hst⟩)

theorem kept_bind {prep : StringPrep} {g : Gate} {uuid id : String} (h : Kept prep g)
    (hi : g.session.initialized = false) (ha : g.session.authenticated = true) :
    Kept prep (g.after
      ({ g.session with remoteJid := prep.fullJid g.session.user g.session.localJid.domain uuid },
        [.bindResult (prep.fullJid g.session.user g.session.localJid.domain uuid) id])) := by
  have hbare : prep.bareJid g.session.user g.session.localJid.domain ∈ g.validated :=
    h.authenticated ha hi
  refine ⟨h.noExternal, ?_, h.authenticated, fun _ => hbare, fun _ => hbare⟩
  intro _
  rcases h.pending hi with hq | ⟨hf, -⟩
  · exact Or.inl (by simp [after, hq, request?])
  · exact absurd (ha.symm.trans hf) (by simp)

theorem kept_startSession {prep : StringPrep} {g : Gate} {id : String} (h : Kept prep g)
    (hne : g.session.remoteJid ≠ Jid.empty) :
    Kept prep (g.after ({ g.session with initialized := true },
      [.sessionResult g.session.remoteJid id, .onSessionStarted])) := by
  refine ⟨h.noExternal, ?_, ?_, h.bound, fun _ => h.bound hne⟩
  · intro h0
    exact absurd h0 (by simp [after])
  · intro _ h0
    exact absurd h0 (by simp [after])

/-- One case per element that an uninitialized session tells apart. -/
theorem kept_element {prep : StringPrep} {g : Gate} {e : Element} {uuid : String}
    (h : Kept prep g) (ho : Orderly g (.element e uuid)) :
    Kept prep (g.after (g.session.handleElement prep uuid e)) := by
  cases hi : g.session.initialized with
  | true => simpa [Session.handleElement, hi] using kept_forward h hi
  | false =>
    have ho := ho hi
    have hsame : SameGate g.session g.session := ⟨rfl, rfl, rfl, rfl, rfl, rfl⟩
    cases e with
    | authRequest mechanism message =>
      by_cases hm : mechanism = "PLAIN"
      · obtain ⟨ha, hq⟩ := ho hm
        simpa [Session.handleElement, hi, hm] using kept_plain h ha hq
      · have hsilent : Kept prep (g.after
            ({ g.session with finishing := true }, [.authFailure, .finishSession])) :=
          h.of_silent ⟨rfl, rfl, rfl, rfl, rfl, rfl⟩ (by simp [Silent, request?])
        simpa [Session.handleElement, hi, hm, h.noExternal] using hsilent
    | startTls =>
      cases ht : g.session.tlsLayer with
      | true =>
        have hsilent : Kept prep (g.after
            ({ g.session with tlsLayer := false }, [.tlsProceed, .tlsConnect, .resetParser])) :=
          h.of_silent ⟨rfl, rfl, rfl, rfl, rfl, rfl⟩ (by simp [Silent, request?])
        simpa [Session.handleElement, hi, ht] using hsilent
      | false =>
        have hsilent : Kept prep (g.after (g.session, [.tlsProceed, .nullTlsLayer])) :=
          h.of_silent hsame (by simp [Silent, request?])
        simpa [Session.handleElement, hi, ht] using hsilent
    | iq payload id =>
      cases payload with
      | resourceBind => simpa [Session.handleElement, hi] using kept_bind h hi ho
      | startSession => simpa [Session.handleElement, hi] using kept_startSession h ho
      | other => simpa [Session.handleElement, hi] using h.of_silent (r := (_, [])) hsame (by simp)
    | presence p =>
      simpa [Session.handleElement, hi] using h.of_silent (r := (_, [])) hsame (by simp)
    | message => simpa [Session.handleElement, hi] using h.of_silent (r := (_, [])) hsame (by simp)
    | other => simpa [Session.handleElement, hi] using h.of_silent (r := (_, [])) hsame (by simp)

theorem kept_streamStart {prep : StringPrep} {g : Gate} {toJid : Jid} (h : Kept prep g)
    (ho : Orderly g (.streamStart toJid)) :
    Kept prep (g.after (g.session.handleStreamStart toJid)) := by
  have hsilent : ∀ o ∈ (g.session.handleStreamStart toJid).2, Silent o := by
    intro o hmem
    simp only [handleStreamStart] at hmem
    split at hmem <;> simp at hmem <;> rcases hmem with rfl | rfl <;> simp [Silent, request?]
  have hguard : (g.after (g.session.handleStreamStart toJid)).Guarded := fun hst =>
    h.guarded (started_after hsilent rfl hst)
  refine ⟨h.noExternal, ?_, ?_, h.bound, hguard⟩
  · intro hi
    rw [asked_after hsilent]
    exact Or.inl (ho hi).1
  · intro ha hi
    change prep.bareJid g.session.user toJid.domain ∈ g.validated
    rw [(ho hi).2 ha]
    exact h.authenticated ha hi

theorem kept_passwordValid {prep : StringPrep} {g : Gate} {user : Jid} (h : Kept prep g)
    (hmem : user ∈ g.asked) :
    Kept prep ({ g with asked := g.asked.erase user, validated := user :: g.validated }.after
      g.session.handlePasswordValid) := by
  have hmono : ∀ {j}, j ∈ g.validated → j ∈ user :: g.validated := List.mem_cons_of_mem _
  cases hi : g.session.initialized with
  | true =>
    have hbare := h.guarded (Or.inl hi)
    simp only [handlePasswordValid, hi, if_true]
    refine ⟨h.noExternal, ?_, ?_, fun hne => hmono (h.bound hne), fun _ => hmono hbare⟩
    · intro h0
      exact absurd (hi.symm.trans h0) (by simp)
    · intro _ h0
      exact absurd (hi.symm.trans h0) (by simp)
  | false =>
    -- the answered check is the pending one, so it is about the current name
    obtain ⟨ha, hq⟩ : g.session.authenticated = false ∧
        g.asked = [g.session.getBareJid prep] := by
      rcases h.pending hi with hq | hq
      · rw [hq] at hmem
        cases hmem
      · exact hq
    have huser : user = g.session.getBareJid prep := by simpa [hq] using hmem
    simp only [handlePasswordValid, hi, Bool.false_eq_true, if_false]
    refine ⟨h.noExternal, ?_, ?_, fun hne => hmono (h.bound hne), ?_⟩
    · intro _
      left
      simp [after, hq, huser, request?]
    · intro _ _
      exact List.mem_cons.mpr (Or.inl huser.symm)
    · intro hst
      refine hmono (h.guarded ?_)
      rcases hst with hst | hst | ⟨e, hst⟩
      · cases hst
      · exact Or.inr (Or.inl (by simpa [after] using hst))
      · exact Or.inr (Or.inr ⟨e, by simpa [after] using hst⟩)

theorem kept_passwordInvalid {prep : StringPrep} {g : Gate} {user : Jid} {error : String}
    (h : Kept prep g) (hmem : user ∈ g.asked) :
    Kept prep ({ g with asked := g.asked.erase user }.after
      (g.session.handlePasswordInvalid error)) := by
  have herase : Kept prep { g with asked := g.asked.erase user } := by
    refine { h with pending := ?_ }
    intro hi
    rcases h.pending hi with hq | ⟨-, hq⟩
    · rw [hq] at hmem
      cases hmem
    · have huser : user = g.session.getBareJid prep := by simpa [hq] using hmem
      exact Or.inl (by simp [hq, huser])
  refine herase.of_silent ?_ ?_
  · simp only [handlePasswordInvalid]
    split <;> exact ⟨rfl, rfl, rfl, rfl, rfl, rfl⟩
  · intro o ho
    simp only [handlePasswordInvalid] at ho
    split at ho
    · cases ho
    · have hcases : o = .authFailure ∨ o = .streamError error ∨ o = .finishSession := by
        split at ho <;> simp at ho <;> tauto
      rcases hcases with rfl | rfl | rfl <;> simp [Silent, request?]

theorem kept_step {prep : StringPrep} {ends : Ending} {g g' : Gate} {ev : Event}
    (h : Kept prep g) (ho : Orderly g ev) (hs : step prep ends g ev = some g') :
    Kept prep g' := by
  cases ev with
  | streamStart toJid =>
    cases hs
    exact kept_streamStart h ho
  | element e uuid =>
    cases hs
    exact (kept_element h ho).ended ends
  | tlsConnected =>
    cases hs
    exact h.of_silent ⟨rfl, rfl, rfl, rfl, rfl, rfl⟩ (by simp [handleTlsConnected])
  | passwordValid user =>
    simp only [step] at hs
    split at hs
    · cases hs
      exact kept_passwordValid h ‹_›
    · cases hs
  | passwordInvalid user error =>
    simp only [step] at hs
    split at hs
    · cases hs
      exact (kept_passwordInvalid h ‹_›).ended ends
    · cases hs
  | sessionFinished =>
    cases hs
    exact h.sessionFinished

/-! ## The gate -/

/-- In every run of an orderly client, with the registry's answers and the end of the stream at
any time, the session starts and forwards elements only under the bare JID of a check that was
answered with `handlePasswordValid`. -/
theorem guarded_of_orderly (prep : StringPrep) (ends : Ending) {tr : List (Gate × Event)} {g : Gate}
    (h : (machine prep ends).Run tr g) (ho : Machine.Meets Orderly tr) : g.Guarded := by
  refine (h.invariant_of_steps (I := Kept prep) ?_
    (fun _ _ _ ho hs hk => kept_step hk ho hs) ho).guarded
  rintro g ⟨tlsLayer, rfl⟩
  exact kept_fresh prep tlsLayer

/-- A client that authenticates, binds and starts its session is let in under its name. -/
theorem guarded_alice :
    ∃ tr g, (machine .plain .later).Run tr g ∧ Machine.Meets Orderly tr ∧ g.Started ∧ g.Guarded := by
  let host : Jid := ⟨"", "localhost", ""⟩
  let es : List Event :=
    [.streamStart host, .element (.authRequest "PLAIN" (some ⟨"alice", "secret"⟩)) "",
      .passwordValid ⟨"alice", "localhost", ""⟩, .streamStart host,
      .element (.iq .resourceBind "1") "qwertyuiop", .element (.iq .startSession "2") ""]
  have hexec : ∃ g, ((machine .plain .later).restrict Orderly).exec (fresh false) es = some g ∧
      g.session.initialized = true := ⟨_, by rfl, by rfl⟩
  obtain ⟨g, hg, hi⟩ := hexec
  obtain ⟨tr, hrun, hmeets⟩ := Machine.exists_run_of_restrict (init_fresh .plain .later false) hg
  exact ⟨tr, g, hrun, hmeets, Or.inl hi, guarded_of_orderly .plain .later hrun hmeets⟩

/-- The gate is open: a client that opens a stream and asks for a session, without any password
check, is initialized. -/
theorem not_guarded_of_startSession :
    ¬ ∀ (prep : StringPrep) (ends : Ending) (tr : List (Gate × Event)) (g : Gate),
      (machine prep ends).Run tr g → g.Guarded := by
  intro h
  let es : List Event :=
    [.streamStart ⟨"", "localhost", ""⟩, .element (.iq .startSession "1") ""]
  have hexec : ∃ g, (machine .plain .later).exec (fresh false) es = some g ∧
      g.session.initialized = true ∧ g.validated = [] := ⟨_, by rfl, by rfl, by rfl⟩
  obtain ⟨g, hg, hi, hv⟩ := hexec
  obtain ⟨tr, hrun, -⟩ := Machine.exists_run_of_exec (init_fresh .plain .later false) hg
  have hmem := h .plain .later tr g hrun (Or.inl hi)
  rw [hv] at hmem
  cases hmem

end Gate

end Spectrum.Session
