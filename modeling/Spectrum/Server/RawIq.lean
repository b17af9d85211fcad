import Spectrum.Lib.Machine
import Spectrum.Account.Message

/-!
# Raw IQs

With `features.rawxml` the IQs of the clients are passed to the backend as they are, and the
IQs of the backend to the clients. `m_id2resource` remembers which resource asked: its key is
the bare JID of the user followed by the id of the request, and only requests of type `get` are
entered. The users, the sessions of server mode and the presence oracle change on their own.

A stanza comes from the parser, so its JIDs are prepared and its sender is valid. How Swiften
splits a legacy name into a JID is a parameter.
-/

namespace Spectrum

/-- `Swift::IQ::Type`. -/
inductive RawIq.IqType
  | get | set | result | error
  deriving DecidableEq, Repr

/-- The payloads that `XMPPFrontend::handleIQ` keeps for the transport, and all others. -/
inductive RawIq.Payload
  | roster | inBandRegistration | stats
  | other (xml : String)
  deriving DecidableEq, Repr

structure RawIq.Iq where
  type : RawIq.IqType
  id : String
  fromJid : Jid
  toJid : Jid
  payload : RawIq.Payload
  deriving DecidableEq, Repr

/-- What the routing reads of a user: whether he has a backend, the JIDs of his buddies and
which of his conversations are rooms. -/
structure RawIq.User where
  jid : Jid
  hasBackend : Bool
  getBuddy : String → Option Jid := fun _ => none
  isRoom : String → Bool := fun _ => false

structure RawIq.Env extends Config where
  jidEscaping : Bool := true
  escapedNode : String → String := id
  parseJid : String → Jid

/-- `receivers` are the sessions that get an IQ in server mode. -/
inductive RawIq.Output
  | toBackend (iq : RawIq.Iq)
  | toClient (iq : RawIq.Iq) (receivers : List Jid)
  deriving DecidableEq, Repr

structure RawIq where
  env : RawIq.Env
  users : Jid → Option RawIq.User
  sessions : List Jid
  oracle : Oracle
  id2resource : String → Option String

namespace RawIq

/-- The key of a request or an answer in `m_id2resource`. -/
def keyOf (user : Jid) (id : String) : String := user.toBare.toString ++ id

/-! ## Requests of the clients -/

/-- `XMPPFrontend::handleIQ` leaves these IQs to the transport itself. -/
def Payload.isOwn : Payload → Bool
  | .roster | .inBandRegistration | .stats => true
  | .other _ => false

/-- The legacy receiver of an IQ. -/
def legacyTo (env : Env) (toJid : Jid) : Jid :=
  let legacyname := env.parseJid (legacyName env.toConfig toJid)
  if toJid.resource = "" then env.prep.bareJid legacyname.node legacyname.domain
  else env.prep.fullJid legacyname.node legacyname.domain toJid.resource

def handleRawIQReceived (iq : Iq) (s : RawIq) : RawIq × List Output :=
  match s.users iq.fromJid.toBare with
  | none => (s, [])
  | some u =>
    if u.hasBackend = false then (s, [])
    else
      let id2resource :=
        if iq.type = .get then
          Function.update s.id2resource (keyOf iq.fromJid iq.id) (some iq.fromJid.resource)
        else s.id2resource
      ({ s with id2resource := id2resource },
        [.toBackend { iq with toJid := legacyTo s.env iq.toJid }])

def handleIQ (iq : Iq) (s : RawIq) : RawIq × List Output :=
  if iq.payload.isOwn then (s, []) else s.handleRawIQReceived iq

/-! ## Answers of the backend -/

/-- The sender of a stanza of the backend as the user knows him. -/
def senderOf (env : Env) (u : User) (fromJid : Jid) : Jid :=
  let bare := fromJid.toBare.toString
  let at_ := fun node domain =>
    if fromJid.resource = "" then env.prep.bareJid node domain
    else env.prep.fullJid node domain fromJid.resource
  match u.getBuddy bare with
  | some jid => at_ jid.node jid.domain
  | none =>
    let name :=
      if u.isRoom bare then replaceLast '@' '%' bare
      else if env.jidEscaping then env.escapedNode bare
      else replaceLast '@' '%' bare
    at_ name env.jid.toString

/-- The receiver of an IQ of the backend. -/
def receiverOf (s : RawIq) (u : User) (iq : Iq) : Jid :=
  match s.id2resource (keyOf iq.toJid iq.id) with
  | some resource => s.env.prep.fullJid iq.toJid.node iq.toJid.domain resource
  | none =>
    match s.oracle.getHighestPriorityPresence u.jid with
    | some highest => highest.fromJid
    | none => u.jid

/-- `handleElement` for an IQ. -/
def handleElement (iq : Iq) (s : RawIq) : RawIq × List Output :=
  match s.users iq.toJid.toBare with
  | none => (s, [])
  | some u =>
    let toJid := s.receiverOf u iq
    let s' := { s with id2resource := Function.update s.id2resource (keyOf iq.toJid iq.id) none }
    if s.env.serverMode = false ∧ toJid.isValid = false then (s', [])
    else
      (s', [.toClient { iq with fromJid := senderOf s.env u iq.fromJid, toJid := toJid }
        (if s.env.serverMode then Account.route s.sessions toJid else [])])

/-! ## All runs -/

inductive Event
  | clientIq (iq : Iq)
  | backendIq (iq : Iq)
  | users (us : Jid → Option User)
  | sessions (js : List Jid)
  | oracle (o : Oracle)

/-- The parts of a JID have been prepared. -/
def isPrepared (prep : StringPrep) (j : Jid) : Bool :=
  prep.node j.node = j.node ∧ prep.domain j.domain = j.domain ∧ prep.resource j.resource = j.resource

def Event.enabled : Event → RawIq → Bool
  | .clientIq iq, s => isPrepared s.env.prep iq.fromJid && iq.fromJid.isValid
  | .backendIq iq, s => isPrepared s.env.prep iq.toJid
  | _, _ => true

def Event.run : Event → RawIq → RawIq × List Output
  | .clientIq iq, s => s.handleIQ iq
  | .backendIq iq, s => s.handleElement iq
  | .users us, s => ({ s with users := us }, [])
  | .sessions js, s => ({ s with sessions := js }, [])
  | .oracle o, s => ({ s with oracle := o }, [])

def step (s : RawIq) (e : Event) : Option RawIq :=
  if e.enabled s then some (e.run s).1 else none

/-- All interleavings of requests and answers, for every environment. -/
def machine : Lib.Machine RawIq Event where
  init s := ∃ env, s = ⟨env, fun _ => none, [], fun _ => [], fun _ => none⟩
  step := step

/-! ## Outstanding requests -/

def IqType.isRequest : IqType → Bool
  | .get | .set => true
  | .result | .error => false

/-- The IQ of a client reaches his backend. -/
def forwards (s : RawIq) (iq : Iq) : Bool :=
  !iq.payload.isOwn && (s.users iq.fromJid.toBare).any User.hasBackend

/-- The user and the id of an answer are those of a request. -/
def Iq.answers (answer request : Iq) : Bool :=
  request.fromJid.toBare = answer.toJid.toBare ∧ request.id = answer.id

/-- The requests of a run that reached a backend and have not been answered; a user who is
removed takes his requests with him. -/
def outstanding : List (RawIq × Event) → List Iq
  | [] => []
  | (s, .clientIq iq) :: tr =>
    if iq.type.isRequest && s.forwards iq then iq :: outstanding tr else outstanding tr
  | (_, .backendIq iq) :: tr =>
    if iq.type.isRequest then outstanding tr
    else (outstanding tr).filter fun request => !iq.answers request
  | (_, .users us) :: tr =>
    (outstanding tr).filter fun request => (us request.fromJid.toBare).isSome
  | _ :: tr => outstanding tr

/-- The answer goes to the resource that asked and, in server mode, to no other session. -/
def Delivered (s : RawIq) (request answer : Iq) : Prop :=
  ∃ fromJid receivers,
    (s.handleElement answer).2 =
      [.toClient { answer with fromJid := fromJid, toJid := request.fromJid } receivers] ∧
    (s.env.serverMode = true → receivers = [request.fromJid])

/-- If the run ends with an answer to an outstanding request, the answer is delivered. -/
def Routed (tr : List (RawIq × Event)) : Prop :=
  ∀ s answer rest, tr = (s, .backendIq answer) :: rest → answer.type.isRequest = false →
    ∀ request ∈ outstanding rest, answer.answers request = true → Delivered s request answer

/-- The key of an IQ of the backend can only be that of its own user. -/
def Unambiguous (s : RawIq) (iq : Iq) : Prop :=
  ∀ k, (s.users k).isSome = true → k.toString.toList <+: (keyOf iq.toJid iq.id).toList →
    k = iq.toJid.toBare

/-- Clients send no `set` and use no key that is in use. An IQ of the backend that finds an
entry answers it, has an unambiguous key and, in server mode, finds the session that asked. -/
def Orderly (s : RawIq) : Event → Prop
  | .clientIq iq => s.forwards iq = true → iq.type.isRequest = true →
    iq.type = .get ∧ s.id2resource (keyOf iq.fromJid iq.id) = none
  | .backendIq iq => ∀ resource, s.id2resource (keyOf iq.toJid iq.id) = some resource →
    (s.users iq.toJid.toBare).isSome = true →
      iq.type.isRequest = false ∧ s.Unambiguous iq ∧
      (s.env.serverMode = true →
        resource ≠ "" ∧ ⟨iq.toJid.node, iq.toJid.domain, resource⟩ ∈ s.sessions)
  | _ => True

/-! ## Every outstanding request has its entry -/

variable {s s' : RawIq} {tr : List (RawIq × Event)}

structure Entered (s : RawIq) (request : Iq) : Prop where
  user : (s.users request.fromJid.toBare).isSome = true
  entry : s.id2resource (keyOf request.fromJid request.id) = some request.fromJid.resource
  prepared : isPrepared s.env.prep request.fromJid = true
  valid : request.fromJid.isValid = true

theorem Entered.of_eq {request : Iq} (h : Entered s request) (husers : s'.users = s.users)
    (hentry : s'.id2resource (keyOf request.fromJid request.id) =
      s.id2resource (keyOf request.fromJid request.id)) (henv : s'.env = s.env) :
    Entered s' request where
  user := husers ▸ h.user
  entry := hentry.trans h.entry
  prepared := henv ▸ h.prepared
  valid := h.valid

theorem prefix_keyOf (user : Jid) (id : String) :
    user.toBare.toString.toList <+: (keyOf user id).toList := by
  simp [keyOf]

/-- An outstanding request with the key of an IQ of the backend is the one it answers. -/
theorem Entered.answered {request answer : Iq} (h : Entered s request)
    (hkey : keyOf request.fromJid request.id = keyOf answer.toJid answer.id)
    (hun : s.Unambiguous answer) : answer.answers request = true := by
  have huser : request.fromJid.toBare = answer.toJid.toBare :=
    hun _ h.user (hkey ▸ prefix_keyOf request.fromJid request.id)
  have hid : request.id = answer.id := by
    unfold keyOf at hkey
    rw [huser] at hkey
    simpa using hkey
  simp [Iq.answers, huser, hid]

theorem handleIQ_of_not_reach {iq : Iq} (h : (iq.type.isRequest && s.forwards iq) = false) :
    (s.handleIQ iq).1 = s := by
  unfold handleIQ handleRawIQReceived
  split
  · rfl
  · rename_i hown
    split
    · rfl
    · rename_i u hu
      split
      · rfl
      · rename_i hhas
        have hget : iq.type ≠ .get := by
          intro hget
          simp [IqType.isRequest, forwards, hget, hown, hu, hhas] at h
        simp [hget]

theorem entered_clientIq {iq : Iq} (henabled : (Event.clientIq iq).enabled s = true)
    (hc : Orderly s (.clientIq iq)) (h : ∀ request ∈ outstanding tr, Entered s request) :
    ∀ request ∈ outstanding ((s, .clientIq iq) :: tr), Entered (s.handleIQ iq).1 request := by
  by_cases hreach : (iq.type.isRequest && s.forwards iq) = true
  · obtain ⟨htype, hforwards⟩ := Bool.and_eq_true_iff.mp hreach
    obtain ⟨hget, hnone⟩ := hc hforwards htype
    obtain ⟨hown, hbackend⟩ := Bool.and_eq_true_iff.mp hforwards
    obtain ⟨u, hu, hhas⟩ : ∃ u, s.users iq.fromJid.toBare = some u ∧ u.hasBackend = true := by
      simpa [Option.any_eq_true] using hbackend
    have hnew : (s.handleIQ iq).1 = { s with
        id2resource :=
          Function.update s.id2resource (keyOf iq.fromJid iq.id) (some iq.fromJid.resource) } := by
      simp only [Bool.not_eq_true'] at hown
      simp [handleIQ, handleRawIQReceived, hown, hu, hhas, hget]
    rw [hnew, outstanding, if_pos hreach]
    simp only [Event.enabled, Bool.and_eq_true] at henabled
    intro request hmem
    rcases List.mem_cons.mp hmem with rfl | hmem
    · exact ⟨by simp [hu], by simp, henabled.1, henabled.2⟩
    · have hold := h request hmem
      refine hold.of_eq rfl ?_ rfl
      -- the key of another outstanding request is in use
      have hne : keyOf request.fromJid request.id ≠ keyOf iq.fromJid iq.id := by
        intro heq
        have hentry := hold.entry
        rw [heq, hnone] at hentry
        cases hentry
      simp [hne]
  · rw [outstanding, if_neg hreach, handleIQ_of_not_reach (by simpa using hreach)]
    exact h

theorem entered_backendIq {iq : Iq} (hc : Orderly s (.backendIq iq))
    (h : ∀ request ∈ outstanding tr, Entered s request) :
    ∀ request ∈ outstanding ((s, .backendIq iq) :: tr),
      Entered (s.handleElement iq).1 request := by
  have hsub : ∀ request ∈ outstanding ((s, .backendIq iq) :: tr), request ∈ outstanding tr ∧
      (iq.type.isRequest = false → iq.answers request = false) := by
    intro request hmem
    rw [outstanding] at hmem
    split at hmem
    · rename_i htype
      exact ⟨hmem, fun hf => by simp [htype] at hf⟩
    · obtain ⟨hmem, hans⟩ := List.mem_filter.mp hmem
      exact ⟨hmem, fun _ => by simpa using hans⟩
  intro request hmem
  obtain ⟨hmem, hans⟩ := hsub request hmem
  have hold := h request hmem
  unfold handleElement
  split
  · exact hold
  · rename_i u hu
    have hkept : Entered { s with
        id2resource := Function.update s.id2resource (keyOf iq.toJid iq.id) none } request := by
      refine hold.of_eq rfl ?_ rfl
      have hne : keyOf request.fromJid request.id ≠ keyOf iq.toJid iq.id := by
        intro heq
        have hentry := hold.entry
        rw [heq] at hentry
        obtain ⟨htype, hun, -⟩ := hc _ hentry (by simp [hu])
        have hyes := hold.answered heq hun
        rw [hans htype] at hyes
        cases hyes
      simp [hne]
    dsimp only
    split
    · exact hkept
    · exact hkept

theorem entered (h : machine.Run tr s) (hc : Lib.Machine.Meets Orderly tr) :
    ∀ request ∈ outstanding tr, Entered s request := by
  induction h with
  | init _ => exact nofun
  | @step tr s s' e hrun hs ih =>
    obtain ⟨hcond, hrest⟩ := Lib.Machine.meets_cons.mp hc
    have ih := ih hrest
    obtain ⟨henabled, rfl⟩ : e.enabled s = true ∧ (e.run s).1 = s' := by
      simp only [machine, step] at hs
      split at hs
      · exact ⟨‹_›, Option.some.inj hs⟩
      · cases hs
    cases e with
    | clientIq iq => exact entered_clientIq henabled hcond ih
    | backendIq iq => exact entered_backendIq hcond ih
    | users us =>
      intro request hmem
      obtain ⟨hmem, huser⟩ := List.mem_filter.mp hmem
      have hold := ih request hmem
      exact ⟨huser, hold.entry, hold.prepared, hold.valid⟩
    | sessions js => exact fun request hmem => (ih request hmem).of_eq rfl rfl rfl
    | oracle o => exact fun request hmem => (ih request hmem).of_eq rfl rfl rfl

/-! ## Answers -/

theorem route_session {sessions : List Jid} {j : Jid} (hfull : j.resource ≠ "")
    (hmem : j ∈ sessions) : Account.route sessions j = [j] := by
  have hbare : j.isBare = false := by simpa [Jid.isBare] using hfull
  have hfind : (sessions.find? fun i => i = j) = some j := by
    cases hf : sessions.find? fun i => i = j with
    | none => simpa using List.find?_eq_none.mp hf j hmem
    | some i => simpa using List.find?_some hf
  simp [Account.route, hbare, hfind]

/-- In every orderly run each answer to an outstanding request is delivered to the resource
that sent the request, and to no other. -/
theorem routed_of_orderly (h : machine.Run tr s) (hc : Lib.Machine.Meets Orderly tr) :
    Routed tr := by
  rintro s₀ answer rest rfl htype request hmem hans
  obtain ⟨hcond, hrest⟩ := Lib.Machine.meets_cons.mp hc
  cases h with
  | step hrun _ =>
    have hent := entered hrun hrest request hmem
    simp only [Iq.answers, Bool.decide_and, Bool.and_eq_true, decide_eq_true_eq] at hans
    obtain ⟨huser, hid⟩ := hans
    have hkey : keyOf answer.toJid answer.id = keyOf request.fromJid request.id := by
      simp [keyOf, huser, hid]
    have hentry := hent.entry
    rw [← hkey] at hentry
    obtain ⟨u, hu⟩ := Option.isSome_iff_exists.mp (huser ▸ hent.user)
    obtain ⟨-, -, hsession⟩ := hcond _ hentry (by simp [hu])
    have hnode : answer.toJid.node = request.fromJid.node := (congrArg Jid.node huser :).symm
    have hdomain : answer.toJid.domain = request.fromJid.domain :=
      (congrArg Jid.domain huser :).symm
    rw [hnode, hdomain] at hsession
    have hreceiver : s₀.receiverOf u answer = request.fromJid := by
      have hprep := hent.prepared
      simp only [isPrepared, Bool.decide_and, Bool.and_eq_true, decide_eq_true_eq] at hprep
      obtain ⟨hn, hd, hr⟩ := hprep
      rw [receiverOf, hentry]
      simp only [StringPrep.fullJid, hnode, hdomain]
      rw [hn, hd, hr]
    refine ⟨senderOf s₀.env u answer.fromJid,
      if s₀.env.serverMode then Account.route s₀.sessions request.fromJid else [], ?_, ?_⟩
    · unfold handleElement
      simp only [hu, hreceiver, hent.valid]
      rw [if_neg (by simp)]
    · intro hserver
      obtain ⟨hfull, hin⟩ := hsession hserver
      simp [hserver, route_session hfull hin]

namespace Sample

def env : Env := { parseJid := fun name => ⟨"", name, ""⟩ }

def alice : Jid := ⟨"alice", "example.org", ""⟩

def asker : Jid := { alice with resource := "desktop" }

def other : Jid := { alice with resource := "phone" }

def contact : Jid := ⟨"bob", "localhost", ""⟩

/-- Only this user exists, and he has a backend. -/
def users (j : Jid) : Option User :=
  if j = alice then some { jid := alice, hasBackend := true } else none

/-- The other resource of the user has the highest priority. -/
def oracle (j : Jid) : PresenceMap :=
  if j = alice then [{ fromJid := other, toJid := ⟨"", "localhost", ""⟩ }] else []

def request (type : IqType) : Iq := ⟨type, "1", asker, contact, .other "<query/>"⟩

def answer : Iq := ⟨.result, "1", ⟨"", "bob", ""⟩, alice, .other "<query/>"⟩

def initial : RawIq := ⟨env, fun _ => none, [], fun _ => [], fun _ => none⟩

theorem users_isSome {j : Jid} (h : (users j).isSome = true) : j = alice := by
  unfold users at h
  split at h
  · assumption
  · cases h

end Sample

theorem routed_of_orderly_alice : ∃ s, (∃ tr, machine.Run tr s) ∧
    Delivered s (Sample.request .get) Sample.answer := by
  have h0 : machine.Run [] Sample.initial := .init ⟨Sample.env, rfl⟩
  have h1 := h0.step (e := .users Sample.users) rfl
  have h2 := h1.step (e := .oracle Sample.oracle) rfl
  have h3 := h2.step (e := .clientIq (Sample.request .get)) rfl
  have h4 := h3.step (e := .backendIq Sample.answer) rfl
  refine ⟨_, ⟨_, h3⟩, routed_of_orderly h4 ?_ _ _ _ rfl rfl (Sample.request .get)
    List.mem_cons_self rfl⟩
  refine Lib.Machine.meets_cons.mpr ⟨?_, Lib.Machine.meets_cons.mpr ⟨?_,
    Lib.Machine.meets_cons.mpr ⟨trivial, Lib.Machine.meets_cons.mpr ⟨trivial,
      Lib.Machine.meets_nil⟩⟩⟩⟩
  · exact fun _ _ _ => ⟨rfl, fun k hk _ => Sample.users_isSome hk, nofun⟩
  · exact fun _ _ => ⟨rfl, rfl⟩

/-- The answer to a `set` goes to the resource with the highest priority. -/
theorem not_routed_of_set : ¬ ∀ tr s, machine.Run tr s → Routed tr := by
  intro hall
  have h0 : machine.Run [] Sample.initial := .init ⟨Sample.env, rfl⟩
  have h1 := h0.step (e := .users Sample.users) rfl
  have h2 := h1.step (e := .oracle Sample.oracle) rfl
  have h3 := h2.step (e := .clientIq (Sample.request .set)) rfl
  have h4 := h3.step (e := .backendIq Sample.answer) rfl
  obtain ⟨fromJid, receivers, hout, -⟩ :=
    hall _ _ h4 _ _ _ rfl rfl (Sample.request .set) List.mem_cons_self rfl
  have hto : Sample.other = Sample.asker := by
    injection hout with hhead
    injection hhead with hiq
    injection hiq
  exact absurd hto (by decide)

end RawIq

end Spectrum
