import Mathlib.Data.List.Chain
import Spectrum.Manager.Model

/-!
# Who a request is answered for

* `served_of_run`: a request is answered for the session that the last login with the id in its cookie
  opened, if there was no logout since then and no two requests with this cookie were two minutes apart.
* `privileged_of_run`: who stops an instance has logged in with the name of the administrator, and knew his
  password or that of an account with his name.
* `takeover_of_run`: everyone can make such an account while there is none.
-/

namespace Spectrum.Manager

open Lib Storage

variable {env : Env} {s s' : State} {r : Request} {id : String} {tr : List (State × Request)}

/-! ## Requests -/

/-- The session that a request opens. -/
def login (env : Env) (s : State) (r : Request) : Option Session :=
  if State.stripped env r.uri = some "/authorize" ∧
      s.checkPassword env (r.var "user") (r.var "password") = some true then
    some (State.newSession env r (r.var "user"))
  else none

/-- The request is only answered for a session. -/
def Protected (env : Env) (r : Request) : Prop :=
  ∃ uri, State.stripped env r.uri = some uri ∧ uri ∉ State.publicURIs

def LogsOut (env : Env) (r : Request) : Prop := State.stripped env r.uri = some "/logout"

instance (env : Env) (r : Request) : Decidable (Protected env r) :=
  match h : State.stripped env r.uri with
  | none => isFalse fun ⟨_, hsome, _⟩ => by
    rw [h] at hsome
    cases hsome
  | some uri =>
    if hpublic : uri ∈ State.publicURIs then isFalse fun ⟨uri', hsome, hnot⟩ => by
      rw [h] at hsome
      cases hsome
      exact hnot hpublic
    else isTrue ⟨uri, h, hpublic⟩

instance (env : Env) (r : Request) : Decidable (LogsOut env r) := inferInstanceAs (Decidable (_ = _))

theorem login_eq_none_of_protected (h : Protected env r) : login env s r = none := by
  obtain ⟨uri, huri, hpublic⟩ := h
  unfold login
  rw [if_neg]
  rintro ⟨hauthorize, -⟩
  rw [huri] at hauthorize
  cases hauthorize
  exact hpublic (by decide)

/-! ## What a request does to the sessions -/

/-- Every session has the id under which it is kept, and the check of `is_authorized` lets it pass. -/
def Genuine (env : Env) (s : State) : Prop :=
  ∀ id session, s.sessions.get id = some session →
    session.id = id ∧ env.md5 (session.random ++ session.user) = session.id

theorem getSession_get {session : Session} (h : s.getSession r = some session) :
    s.sessions.get r.cookie = some session ∧ r.now < session.expire := by
  obtain ⟨hget, hexpire⟩ := Option.filter_eq_some_iff.mp h
  exact ⟨hget, (of_decide_eq_true hexpire).2⟩

/-- The session that a request has been served for, as it was then prolonged. -/
def prolonged (r : Request) (session : Session) : Session :=
  { session with expire := r.now + sessionTTL }

theorem isAuthorized_of_public {uri : String} (h : uri ∈ State.publicURIs) :
    s.isAuthorized env r uri = some s.sessions := if_pos h

theorem isAuthorized_of_not_public {uri : String} (hgenuine : Genuine env s)
    (h : uri ∉ State.publicURIs) : s.isAuthorized env r uri = (s.getSession r).map fun session =>
      s.sessions.set r.cookie (prolonged r session) := by
  unfold State.isAuthorized
  rw [if_neg h]
  cases hsession : s.getSession r with
  | none => rfl
  | some session => exact if_pos (hgenuine _ _ (getSession_get hsession).1).2

/-- The session under an id after the request. -/
def nextSession (env : Env) (s : State) (r : Request) (id : String) : Option Session :=
  match login env s r with
  | some session => if session.id = id then some session else s.sessions.get id
  | none =>
    if Protected env r ∧ r.cookie = id then
      match s.getSession r with
      | none => s.sessions.get id
      | some session =>
        if LogsOut env r then none else some (prolonged r session)
    else s.sessions.get id

theorem nextSession_of_login {session : Session} (h : login env s r = some session) (id : String) :
    nextSession env s r id = if session.id = id then some session else s.sessions.get id := by
  rw [nextSession, h]

theorem nextSession_of_not_protected (hlogin : login env s r = none) (h : ¬ Protected env r)
    (id : String) : nextSession env s r id = s.sessions.get id := by
  rw [nextSession, hlogin]
  exact if_neg fun h' => h h'.1

theorem nextSession_of_refused (h : Protected env r) (hsession : s.getSession r = none) (id : String) :
    nextSession env s r id = s.sessions.get id := by
  rw [nextSession, login_eq_none_of_protected h]
  dsimp only
  rw [hsession]
  exact ite_self _

theorem nextSession_of_served {session : Session} (h : Protected env r)
    (hsession : s.getSession r = some session) (id : String) : nextSession env s r id =
      if r.cookie = id then
        if LogsOut env r then none else some (prolonged r session)
      else s.sessions.get id := by
  rw [nextSession, login_eq_none_of_protected h]
  dsimp only
  rw [hsession]
  simp only [h, true_and]

theorem getSession_prolonged (s : State) (r : Request) (session : Session) :
    State.getSession r { s with sessions := s.sessions.set r.cookie (prolonged r session) } =
      some (prolonged r session) := by
  unfold State.getSession
  rw [SortedMap.get_set, if_pos rfl, Option.filter_some, if_pos]
  refine decide_eq_true ?_
  unfold prolonged sessionTTL
  dsimp only
  omega

theorem step_cases (hs : s.eventHandler env r = some s') :
    ∃ uri, State.stripped env r.uri = some uri ∧
      (s.isAuthorized env r uri = none ∧ s' = s.finish r [.redirect "/login"] ∨
        ∃ sessions, s.isAuthorized env r uri = some sessions ∧
          { s with sessions }.serve env r uri = some s') := by
  unfold State.eventHandler at hs
  cases huri : State.stripped env r.uri with
  | none =>
    rw [huri] at hs
    cases hs
  | some uri =>
    rw [huri, Option.bind_eq_bind, Option.bind_some] at hs
    refine ⟨uri, rfl, ?_⟩
    cases hauthorized : s.isAuthorized env r uri with
    | none =>
      rw [hauthorized] at hs
      cases hs
      exact .inl ⟨rfl, rfl⟩
    | some sessions =>
      rw [hauthorized] at hs
      exact .inr ⟨sessions, rfl, hs⟩

/-- Only a login and a logout change which sessions there are. -/
theorem serve_sessions {uri : String} (hlogin : uri ≠ "/authorize") (hlogout : uri ≠ "/logout")
    (hs : s.serve env r uri = some s') : s'.sessions = s.sessions := by
  unfold State.serve at hs
  rw [if_neg hlogin, if_neg hlogout] at hs
  split at hs
  · unfold State.serveOAuth2 at hs
    dsimp only at hs
    split at hs
    · obtain ⟨b, -, hs⟩ := Option.bind_eq_some_iff.mp hs
      obtain ⟨session, -, hs⟩ := Option.bind_eq_some_iff.mp hs
      obtain ⟨⟨id, db, name⟩, -, hs⟩ := Option.bind_eq_some_iff.mp hs
      cases hs
      rfl
    · cases hs
      rfl
  split at hs
  · obtain ⟨⟨db, effects⟩, -, hs⟩ := Option.bind_eq_some_iff.mp hs
    cases hs
    rfl
  · cases hs
    unfold State.serveFile
    split <;> rfl

theorem serve_authorize (huri : State.stripped env r.uri = some "/authorize")
    (hs : s.serve env r "/authorize" = some s') (id : String) :
    s'.sessions.get id = nextSession env s r id := by
  have hprotected : ¬ Protected env r := by
    rintro ⟨uri, huri', hpublic⟩
    rw [huri] at huri'
    cases huri'
    exact hpublic (by decide)
  obtain ⟨accepted, haccepted, hs⟩ := Option.bind_eq_some_iff.mp hs
  cases accepted with
  | true =>
    have hlogin : login env s r = some (State.newSession env r (r.var "user")) :=
      if_pos ⟨huri, haccepted⟩
    cases hs
    rw [nextSession_of_login hlogin]
    change (s.sessions.set _ _).get id = _
    rw [SortedMap.get_set]
    simp only [eq_comm]
  | false =>
    have hlogin : login env s r = none := by
      refine if_neg fun h => ?_
      rw [haccepted] at h
      cases h.2
    cases hs
    rw [nextSession_of_not_protected hlogin hprotected]
    rfl

/-- The step lemma for the sessions. -/
theorem sessions_of_step (hgenuine : Genuine env s) (hs : s.eventHandler env r = some s') (id : String) :
    s'.sessions.get id = nextSession env s r id := by
  obtain ⟨uri, huri, hcases⟩ := step_cases hs
  by_cases hpublic : uri ∈ State.publicURIs
  · rw [isAuthorized_of_public hpublic] at hcases
    obtain ⟨hnone, -⟩ | ⟨sessions, hsome, hs⟩ := hcases
    · cases hnone
    · cases hsome
      by_cases hlogin : uri = "/authorize"
      · rw [hlogin] at huri hs
        exact serve_authorize huri hs id
      · have hlogout : uri ≠ "/logout" := by
          rintro rfl
          exact absurd hpublic (by decide)
        have hprotected : ¬ Protected env r := by
          rintro ⟨uri', huri', hnot⟩
          rw [huri] at huri'
          cases huri'
          exact hnot hpublic
        have hno : login env s r = none := by
          refine if_neg fun h => hlogin ?_
          rw [huri] at h
          exact Option.some_inj.mp h.1
        rw [nextSession_of_not_protected hno hprotected, serve_sessions hlogin hlogout hs]
  · have hprotected : Protected env r := ⟨uri, huri, hpublic⟩
    have hlogin : uri ≠ "/authorize" := by
      rintro rfl
      exact hpublic (by decide)
    rw [isAuthorized_of_not_public hgenuine hpublic] at hcases
    cases hsession : s.getSession r with
    | none =>
      rw [hsession] at hcases
      obtain ⟨-, rfl⟩ | ⟨sessions, hsome, -⟩ := hcases
      · rw [nextSession_of_refused hprotected hsession]
        rfl
      · cases hsome
    | some session =>
      rw [hsession] at hcases
      obtain ⟨hnone, -⟩ | ⟨sessions, hsome, hs⟩ := hcases
      · cases hnone
      · cases hsome
        have hid := (hgenuine _ _ (getSession_get hsession).1).1
        rw [nextSession_of_served hprotected hsession]
        by_cases hlogout : uri = "/logout"
        · rw [hlogout] at huri hs
          obtain ⟨session', hsession', hs⟩ := Option.bind_eq_some_iff.mp hs
          rw [show _ = _ from getSession_prolonged s r session] at hsession'
          cases hsession'
          cases hs
          rw [if_pos (show LogsOut env r from huri)]
          change ((s.sessions.set _ _).erase session.id).get id = _
          rw [SortedMap.get_erase, SortedMap.get_set, hid]
          by_cases heq : id = r.cookie
          · rw [if_pos heq, if_pos heq.symm]
          · rw [if_neg heq, if_neg heq, if_neg (Ne.symm heq)]
        · have hnot : ¬ LogsOut env r := fun h => hlogout (Option.some_inj.mp (huri.symm.trans h))
          rw [serve_sessions hlogin hlogout hs]
          change (s.sessions.set _ _).get id = _
          rw [SortedMap.get_set, if_neg hnot]
          simp only [eq_comm]

/-! ## The history of a session -/

theorem genuine_step (hgenuine : Genuine env s) (hs : s.eventHandler env r = some s') :
    Genuine env s' := by
  intro id session hget
  rw [sessions_of_step hgenuine hs] at hget
  cases hlogin : login env s r with
  | some opened =>
    rw [nextSession_of_login hlogin] at hget
    split at hget
    · rename_i hid
      cases hget
      unfold login at hlogin
      split at hlogin
      · cases hlogin
        exact ⟨hid, rfl⟩
      · cases hlogin
    · exact hgenuine id session hget
  | none =>
    by_cases hprotected : Protected env r
    · cases hsession : s.getSession r with
      | none =>
        rw [nextSession_of_refused hprotected hsession] at hget
        exact hgenuine id session hget
      | some found =>
        rw [nextSession_of_served hprotected hsession] at hget
        split at hget
        · rename_i hid
          have hfound := hgenuine _ _ (getSession_get hsession).1
          split at hget
          · cases hget
          · cases hget
            exact ⟨hfound.1.trans hid, hfound.2⟩
        · exact hgenuine id session hget
    · rw [nextSession_of_not_protected hlogin hprotected] at hget
      exact hgenuine id session hget

theorem genuine_of_run (h : (machine env).Run tr s) : Genuine env s := by
  refine h.invariant (fun s hinit id session hget => ?_) fun _ _ _ hs hgenuine =>
    genuine_step hgenuine hs
  rw [hinit.1] at hget
  cases hget

/-- A session as it was opened, and the times of the login and of the requests with its cookie since
then. -/
structure History where
  session : Session
  last : Nat
  earlier : List Nat := []

/-- The history of the session that the last login with the id opened, unless there was a logout. -/
def current (env : Env) (id : String) : List (State × Request) → Option History
  | [] => none
  | (s, r) :: tr =>
    match login env s r with
    | some session => if session.id = id then some ⟨session, r.now, []⟩ else current env id tr
    | none =>
      if Protected env r ∧ r.cookie = id then
        if LogsOut env r then none
        else (current env id tr).map fun c => ⟨c.session, r.now, c.last :: c.earlier⟩
      else current env id tr

/-- No two of the times are two minutes apart. -/
def Steady (times : List Nat) : Prop :=
  times.IsChain fun later earlier => later < earlier + sessionTTL

instance (times : List Nat) : Decidable (Steady times) := inferInstanceAs (Decidable (List.IsChain _ _))

theorem steady_cons_iff {t u : Nat} {ts : List Nat} :
    Steady (t :: u :: ts) ↔ t < u + sessionTTL ∧ Steady (u :: ts) := List.isChain_cons_cons

/-- The clock was never set back. -/
def Clock (rs : List Request) : Prop := rs.Pairwise fun later earlier => earlier.now ≤ later.now

/-- What is kept under an id after a history. -/
structure Keeps (env : Env) (s : State) (tr : List (State × Request)) (id : String) : Prop where
  steady : ∀ c, current env id tr = some c → Steady (c.last :: c.earlier) →
    s.sessions.get id = some { c.session with expire := c.last + sessionTTL }
  expired : (∀ c, current env id tr = some c → ¬ Steady (c.last :: c.earlier)) →
    ∀ session, s.sessions.get id = some session → ∃ p ∈ tr, session.expire ≤ p.2.now

theorem Keeps.of_same (h : Keeps env s tr id) {p : State × Request}
    (hcurrent : current env id (p :: tr) = current env id tr)
    (hget : s'.sessions.get id = s.sessions.get id) : Keeps env s' (p :: tr) id := by
  constructor
  · rw [hcurrent, hget]
    exact h.steady
  · rw [hcurrent, hget]
    intro hnot session hsession
    obtain ⟨q, hq, hexpire⟩ := h.expired hnot session hsession
    exact ⟨q, List.mem_cons_of_mem _ hq, hexpire⟩

/-- The session of a request is the one that its history says. -/
theorem Keeps.getSession (h : Keeps env s tr r.cookie) (hclock : ∀ p ∈ tr, p.2.now ≤ r.now) :
    s.getSession r =
      ((current env r.cookie tr).filter fun c => Steady (r.now :: c.last :: c.earlier)).map fun c =>
        { c.session with expire := c.last + sessionTTL } := by
  have hnone : (∀ c, current env r.cookie tr = some c → ¬ Steady (c.last :: c.earlier)) →
      s.getSession r = none := by
    intro hnot
    refine Option.filter_eq_none_iff.mpr fun session hget => ?_
    obtain ⟨p, hp, hexpire⟩ := h.expired hnot session hget
    have hnow := hclock p hp
    rw [decide_eq_true_eq]
    omega
  cases hcurrent : current env r.cookie tr with
  | none =>
    refine (hnone fun c hc => ?_).trans rfl
    rw [hcurrent] at hc
    cases hc
  | some c =>
    by_cases hsteady : Steady (c.last :: c.earlier)
    · unfold State.getSession
      rw [h.steady c hcurrent hsteady]
      by_cases hnow : r.now < c.last + sessionTTL
      · have hall : Steady (r.now :: c.last :: c.earlier) := steady_cons_iff.mpr ⟨hnow, hsteady⟩
        rw [Option.filter_some, Option.filter_some, if_pos (decide_eq_true hall), if_pos]
        · rfl
        · exact decide_eq_true ⟨by dsimp only; omega, hnow⟩
      · have hall : ¬ Steady (r.now :: c.last :: c.earlier) := fun hs => hnow (steady_cons_iff.mp hs).1
        rw [Option.filter_some, Option.filter_some, if_neg (mt of_decide_eq_true hall), if_neg]
        · rfl
        · exact fun hs => hnow (of_decide_eq_true hs).2
    · have hall : ¬ Steady (r.now :: c.last :: c.earlier) := fun hs => hsteady (steady_cons_iff.mp hs).2
      rw [Option.filter_some, if_neg (mt of_decide_eq_true hall)]
      refine (hnone fun d hd => ?_).trans rfl
      rw [hcurrent] at hd
      cases hd
      exact hsteady

theorem keeps_step (hgenuine : Genuine env s) (hs : s.eventHandler env r = some s')
    (hclock : ∀ p ∈ tr, p.2.now ≤ r.now) (h : Keeps env s tr id) : Keeps env s' ((s, r) :: tr) id := by
  have hget := sessions_of_step hgenuine hs id
  cases hlogin : login env s r with
  | some session =>
    rw [nextSession_of_login hlogin] at hget
    by_cases hid : session.id = id
    · have hcurrent : current env id ((s, r) :: tr) = some ⟨session, r.now, []⟩ := by
        rw [current, hlogin]
        exact if_pos hid
      have hopened : session.expire = r.now + sessionTTL := by
        unfold login at hlogin
        split at hlogin
        · cases hlogin
          rfl
        · cases hlogin
      rw [if_pos hid] at hget
      constructor
      · intro c hc _
        rw [hcurrent] at hc
        cases hc
        rw [hget, ← hopened]
      · intro hnot
        exact absurd (List.isChain_singleton _) (hnot _ hcurrent)
    · rw [if_neg hid] at hget
      refine h.of_same ?_ hget
      rw [current, hlogin]
      exact if_neg hid
  | none =>
    by_cases hcookie : Protected env r ∧ r.cookie = id
    · obtain ⟨hprotected, rfl⟩ := hcookie
      have hsession := h.getSession hclock
      have hcurrent : current env r.cookie ((s, r) :: tr) = if LogsOut env r then none
          else (current env r.cookie tr).map fun c => ⟨c.session, r.now, c.last :: c.earlier⟩ := by
        rw [current, hlogin]
        exact if_pos ⟨hprotected, rfl⟩
      cases hserved : s.getSession r with
      | none =>
        rw [nextSession_of_refused hprotected hserved] at hget
        rw [hserved] at hsession
        constructor
        · intro c hc hsteady
          rw [hcurrent] at hc
          split at hc
          · cases hc
          · obtain ⟨d, hd, rfl⟩ := Option.map_eq_some_iff.mp hc
            rw [hd, Option.filter_some, if_pos (decide_eq_true hsteady)] at hsession
            cases hsession
        · intro _ session hsome
          rw [hget] at hsome
          have hexpired := Option.filter_eq_none_iff.mp hserved session hsome
          rw [decide_eq_true_eq] at hexpired
          exact ⟨(s, r), List.mem_cons_self, by dsimp only; omega⟩
      | some session =>
        rw [nextSession_of_served hprotected hserved, if_pos rfl] at hget
        rw [hserved] at hsession
        obtain ⟨c, hc, rfl⟩ := Option.map_eq_some_iff.mp hsession.symm
        obtain ⟨hc, hsteady⟩ := Option.filter_eq_some_iff.mp hc
        rw [hc, Option.map_some] at hcurrent
        by_cases hlogout : LogsOut env r
        · rw [if_pos hlogout] at hget hcurrent
          constructor
          · intro d hd
            rw [hcurrent] at hd
            cases hd
          · intro _ session hsome
            rw [hget] at hsome
            cases hsome
        · rw [if_neg hlogout] at hget hcurrent
          constructor
          · intro d hd _
            rw [hcurrent] at hd
            cases hd
            exact hget
          · intro hnot
            exact absurd (of_decide_eq_true hsteady) (hnot _ hcurrent)
    · have hcurrent : current env id ((s, r) :: tr) = current env id tr := by
        rw [current, hlogin]
        exact if_neg hcookie
      refine h.of_same hcurrent (hget.trans ?_)
      rw [nextSession, hlogin]
      exact if_neg hcookie

theorem keeps_of_run (h : (machine env).Run tr s) (hclock : Clock (tr.map Prod.snd)) (id : String) :
    Keeps env s tr id := by
  induction h with
  | init hinit =>
    constructor
    · intro c hc
      cases hc
    · intro _ session hget
      rw [hinit.1] at hget
      cases hget
  | @step tr s s' r hrun hs ih =>
    obtain ⟨hnow, hbefore⟩ := List.pairwise_cons.mp hclock
    exact keeps_step (genuine_of_run hrun) hs
      (fun p hp => hnow p.2 (List.mem_map_of_mem hp)) (ih hbefore)

/-- A request that needs a session is served for the one that the last login with the id in its cookie
opened, if nobody logged out with this cookie since then and no two requests with it were two minutes
apart, up to this one. Otherwise it is not served. -/
theorem served_of_run (h : (machine env).Run tr s) (hclock : Clock (r :: tr.map Prod.snd)) {uri : String}
    (huri : uri ∉ State.publicURIs) :
    s.getSession r =
      (((current env r.cookie tr).filter fun c => Steady (r.now :: c.last :: c.earlier)).map fun c =>
        { c.session with expire := c.last + sessionTTL }) ∧
    (s.isAuthorized env r uri).isSome = (s.getSession r).isSome := by
  obtain ⟨hnow, hbefore⟩ := List.pairwise_cons.mp hclock
  refine ⟨(keeps_of_run h hbefore r.cookie).getSession fun p hp => hnow p.2 (List.mem_map_of_mem hp), ?_⟩
  rw [isAuthorized_of_not_public (genuine_of_run h) huri, Option.isSome_map]

/-! ## Calls of the administrator -/

theorem startsWith_iff {start uri : String} : startsWith start uri = true ↔ start.toList <+: uri.toList :=
  List.isPrefixOf_iff_prefix

theorem not_startsWith {start other uri : String} (h : startsWith start uri = true)
    (hne : ¬ start.toList <+: other.toList ∧ ¬ other.toList <+: start.toList) :
    startsWith other uri = false := by
  refine Bool.eq_false_iff.mpr fun hother => ?_
  rcases List.prefix_or_prefix_of_prefix (startsWith_iff.mp h) (startsWith_iff.mp hother) with hp | hp
  · exact hne.1 hp
  · exact hne.2 hp

theorem serve_api {uri : String} (h : startsWith "/api/v1/" uri = true) : s.serve env r uri =
    (handleRequest env.storage r (s.getSession r) s.db uri).map fun o =>
      State.finish r { s with db := o.1 } o.2 := by
  have hauthorize : uri ≠ "/authorize" := by
    rintro rfl
    exact absurd h (by decide)
  have hlogout : uri ≠ "/logout" := by
    rintro rfl
    exact absurd h (by decide)
  have hoauth2 : startsWith "/oauth2" uri = false := not_startsWith h (by decide)
  unfold State.serve
  rw [if_neg hauthorize, if_neg hlogout, hoauth2, if_neg Bool.false_ne_true, if_pos h]
  cases handleRequest env.storage r (s.getSession r) s.db uri <;> rfl

theorem eventHandler_public {uri : String} (huri : State.stripped env r.uri = some uri)
    (hpublic : uri ∈ State.publicURIs) : s.eventHandler env r = s.serve env r uri := by
  unfold State.eventHandler
  rw [huri, Option.bind_eq_bind, Option.bind_some, isAuthorized_of_public hpublic]

/-- The calls of an API with a session. -/
theorem eventHandler_api (hgenuine : Genuine env s) {uri : String}
    (huri : State.stripped env r.uri = some uri) (hpublic : uri ∉ State.publicURIs)
    (hapi : startsWith "/api/v1/" uri = true) {session : Session} (hsession : s.getSession r = some session) :
    s.eventHandler env r =
      (handleRequest env.storage r (some (prolonged r session)) s.db uri).map fun o =>
        State.finish r { s with
          sessions := s.sessions.set r.cookie (prolonged r session)
          db := o.1 } o.2 := by
  unfold State.eventHandler
  rw [huri, Option.bind_eq_bind, Option.bind_some, isAuthorized_of_not_public hgenuine hpublic, hsession,
    Option.map_some]
  dsimp only
  rw [serve_api hapi, getSession_prolonged]

theorem eventHandler_refused (hgenuine : Genuine env s) {uri : String}
    (huri : State.stripped env r.uri = some uri) (hpublic : uri ∉ State.publicURIs)
    (hsession : s.getSession r = none) :
    s.eventHandler env r = some (s.finish r [.redirect "/login"]) := by
  unfold State.eventHandler
  rw [huri, Option.bind_eq_bind, Option.bind_some, isAuthorized_of_not_public hgenuine hpublic, hsession]
  rfl

/-- The calls that only administrators can do. -/
def adminApis : List Api := [.start, .stop, .usersRemove, .users]

theorem startsWith_trans {start longer uri : String} (hlonger : start.toList <+: longer.toList)
    (h : startsWith longer uri = true) : startsWith start uri = true :=
  startsWith_iff.mpr (hlonger.trans (startsWith_iff.mp h))

theorem apiOf_eq_unknown {uri : String} (h : startsWith "/api/v1/" uri = false) :
    apiOf uri = .unknown := by
  have hno : ∀ start : String, "/api/v1/".toList <+: start.toList → ¬ startsWith start uri = true :=
    fun _ hp hstart => Bool.eq_false_iff.mp h (startsWith_trans hp hstart)
  have hne : ∀ other, startsWith "/api/v1/" other = true → ¬ uri = other := by
    rintro other hother rfl
    exact Bool.eq_false_iff.mp h hother
  unfold apiOf
  rw [if_neg (hno _ (by decide +kernel)), if_neg (hno _ (by decide +kernel)),
    if_neg (hno _ (by decide +kernel)), if_neg (hno _ (by decide +kernel)),
    if_neg (hno _ (by decide +kernel)), if_neg (hno _ (by decide +kernel)),
    if_neg (hno _ (by decide +kernel)), if_neg (hno _ (by decide +kernel)),
    if_neg (hno _ (by decide +kernel)), if_neg (hne _ (by decide +kernel)),
    if_neg (hne _ (by decide +kernel)), if_neg (hne _ (by decide +kernel))]

theorem startsWith_of_api {uri : String} (h : apiOf uri ≠ .unknown) : startsWith "/api/v1/" uri = true := by
  by_contra hnot
  exact h (apiOf_eq_unknown (Bool.eq_false_iff.mpr hnot))

theorem not_public_of_api {uri : String} (h : apiOf uri ≠ .unknown) (hadd : apiOf uri ≠ .usersAdd) :
    uri ∉ State.publicURIs := by
  have hall : ∀ uri ∈ State.publicURIs, apiOf uri = .unknown ∨ apiOf uri = .usersAdd := by decide +kernel
  exact fun hpublic => (hall uri hpublic).elim h hadd

theorem ne_of_admin {uri : String} (h : apiOf uri ∈ adminApis) :
    apiOf uri ≠ .unknown ∧ apiOf uri ≠ .usersAdd := by
  constructor <;> intro heq <;> rw [heq] at h <;> exact absurd h (by decide)

/-- What everyone else is told. -/
def onlyAdmin : List Effect := [.ack true "Only administrators can do this API call."]

theorem handleRequest_of_admin {storage : Option Storage.Backend} {session : Session} {db : Db}
    {uri : String} (h : apiOf uri ∈ adminApis) (hadmin : session.admin = false) :
    handleRequest storage r (some session) db uri = some (db, onlyAdmin) := by
  have hrefused : ∀ outcome, allowOnlyAdmin session db outcome = some (db, onlyAdmin) :=
    fun _ => if_neg (Bool.eq_false_iff.mp hadmin)
  unfold handleRequest
  cases hapi : apiOf uri with
  | start => exact hrefused _
  | stop => exact hrefused _
  | usersRemove => exact hrefused _
  | users => exact hrefused _
  | _ =>
    rw [hapi] at h
    exact absurd h (by decide)

theorem login_of_current {c : History} (h : current env id tr = some c) :
    ∃ p ∈ tr, login env p.1 p.2 = some c.session ∧ c.session.id = id := by
  induction tr generalizing c with
  | nil => cases h
  | cons p tr ih =>
    obtain ⟨s, r⟩ := p
    have hlater : ∀ {d}, current env id tr = some d →
        ∃ p ∈ (s, r) :: tr, login env p.1 p.2 = some d.session ∧ d.session.id = id := by
      intro d hd
      obtain ⟨p, hp, hall⟩ := ih hd
      exact ⟨p, List.mem_cons_of_mem _ hp, hall⟩
    rw [current] at h
    split at h
    · rename_i session hlogin
      split at h
      · rename_i hid
        cases h
        exact ⟨(s, r), List.mem_cons_self, hlogin, hid⟩
      · exact hlater h
    · split at h
      · split at h
        · cases h
        · obtain ⟨d, hd, rfl⟩ := Option.map_eq_some_iff.mp h
          obtain ⟨p, hp, hlogin⟩ := hlater hd
          exact ⟨p, hp, hlogin⟩
      · exact hlater h

/-- The password is that of the administrator, or that of an account with his name. -/
def KnowsPassword (env : Env) (s : State) (password : String) : Prop :=
  password = env.password ∨ ∃ b info, env.storage = some b ∧ b.getUser env.user s.db = .found info ∧
    info.password = password.toUTF8.toList

theorem knowsPassword_of_login {session : Session} (h : login env s r = some session)
    (hadmin : session.admin = true) :
    r.var "user" = env.user ∧ KnowsPassword env s (r.var "password") := by
  unfold login at h
  split at h
  · rename_i haccepted
    cases h
    have huser : r.var "user" = env.user := of_decide_eq_true hadmin
    refine ⟨huser, ?_⟩
    have hcheck := haccepted.2
    unfold State.checkPassword at hcheck
    split at hcheck
    · rename_i heq
      exact .inl heq.2.symm
    split at hcheck
    · cases hcheck
    rename_i b hstorage
    split at hcheck
    · cases hcheck
    · cases hcheck
    · rename_i info hfound
      refine .inr ⟨b, info, hstorage, huser ▸ hfound, ?_⟩
      exact of_decide_eq_true (Option.some_inj.mp hcheck)
  · cases h

/-- A call that only administrators can do is refused, unless the session of the request was opened with
the name of the administrator, and with his password or that of an account with his name. -/
theorem privileged_of_run (h : (machine env).Run tr s) (hclock : Clock (r :: tr.map Prod.snd))
    {uri : String} (huri : State.stripped env r.uri = some uri) (hapi : apiOf uri ∈ adminApis) :
    (∃ c p, current env r.cookie tr = some c ∧ Steady (r.now :: c.last :: c.earlier) ∧ p ∈ tr ∧
      login env p.1 p.2 = some c.session ∧ p.2.var "user" = env.user ∧
      KnowsPassword env p.1 (p.2.var "password")) ∨
    ∃ s' effects, s.eventHandler env r = some s' ∧ s'.done = (r, effects) :: s.done ∧ s'.db = s.db ∧
      (effects = [.redirect "/login"] ∨ effects = onlyAdmin) := by
  have hgenuine := genuine_of_run h
  obtain ⟨hknown, hadd⟩ := ne_of_admin hapi
  have hpublic := not_public_of_api hknown hadd
  obtain ⟨hnow, hbefore⟩ := List.pairwise_cons.mp hclock
  have hsession := (keeps_of_run h hbefore r.cookie).getSession
    fun p hp => hnow p.2 (List.mem_map_of_mem hp)
  cases hserved : s.getSession r with
  | none =>
    exact .inr ⟨_, _, eventHandler_refused hgenuine huri hpublic hserved, rfl, rfl, .inl rfl⟩
  | some session =>
    have hevent := eventHandler_api hgenuine huri hpublic (startsWith_of_api hknown) hserved
    by_cases hadmin : session.admin = true
    · rw [hserved] at hsession
      obtain ⟨c, hc, rfl⟩ := Option.map_eq_some_iff.mp hsession.symm
      obtain ⟨hc, hsteady⟩ := Option.filter_eq_some_iff.mp hc
      obtain ⟨p, hp, hlogin, -⟩ := login_of_current hc
      obtain ⟨huser, hknows⟩ := knowsPassword_of_login hlogin hadmin
      exact .inl ⟨c, p, hc, of_decide_eq_true hsteady, hp, hlogin, huser, hknows⟩
    · have hno : (prolonged r session).admin = false := Bool.eq_false_iff.mpr hadmin
      rw [handleRequest_of_admin hapi hno] at hevent
      exact .inr ⟨_, _, hevent, rfl, rfl, .inr rfl⟩

/-! ## An account with the name of the administrator -/

section Takeover

variable {c : Storage.Config} {open_ : MySQL.Undefined} {kind : Storage.Kind} {db : Db}
  {user : Storage.UserInfo}

theorem getUser_notFound (h : db.userRow user.jid = none) :
    (createBackend c open_ kind).getUser user.jid db = .notFound := by
  cases kind with
  | sqlite3 => simp [createBackend, sqlite3, SQLite3.getUser, h]
  | mysql =>
    simp [createBackend, mysql, MySQL.getUser, Script.finish, MySQL.select, MySQL.finish_askVip, h]
  | pqxx => simp [createBackend, pqxx, PQXX.getUser, h]

/-- An account that could be written is found with its password. -/
theorem getUser_setUser (hholds : db.Holds (kind.columns open_))
    (hok : ((createBackend c open_ kind).setUser user db).2 = true)
    (hfits : UserFits c open_ user db kind) :
    ∃ read, (createBackend c open_ kind).getUser user.jid
      ((createBackend c open_ kind).setUser user db).1 = .found read ∧ read.password = user.password := by
  have hwrites : WritesUser (createBackend c open_ kind) user db := by
    cases kind with
    | sqlite3 => exact (writesUser_sqlite3_iff hholds).mpr hfits
    | mysql => exact (writesUser_mysql_iff hholds).mpr hfits
    | pqxx => exact (writesUser_pqxx_iff hholds).mpr hfits
  obtain ⟨⟨read, hread, hdata⟩, -⟩ := hwrites hok
  exact ⟨read, hread, congrArg (fun data => data.2.2.1) hdata⟩

theorem eventHandler_usersAdd (hstorage : env.storage = some (createBackend c open_ kind))
    (huri : State.stripped env r.uri = some "/api/v1/users/add") (hname : r.account.jid ≠ "")
    (hpassword : r.var "password" ≠ "") (hfree : s.db.userRow r.account.jid = none) :
    s.eventHandler env r = some (State.finish r
      { s with db := ((createBackend c open_ kind).setUser r.account s.db).1 } [.ack false ""]) := by
  have hnot : ¬ (r.var "username" = "" ∨ r.var "password" = "") := not_or.mpr ⟨hname, hpassword⟩
  have hnew : (createBackend c open_ kind).getUser (r.var "username") s.db = .notFound :=
    getUser_notFound hfree
  rw [eventHandler_public huri (by decide), serve_api (by decide +kernel), hstorage]
  simp only [handleRequest, show apiOf "/api/v1/users/add" = .usersAdd by decide +kernel,
    serveUsersAdd, if_neg hnot, hnew, Option.map_some]

theorem eventHandler_authorize (huri : State.stripped env r.uri = some "/authorize")
    (haccepted : s.checkPassword env (r.var "user") (r.var "password") = some true) :
    s.eventHandler env r = some (State.finish r
      { s with
        sessions := s.sessions.set (State.newSession env r (r.var "user")).id
          (State.newSession env r (r.var "user")) }
      [.loggedIn (State.newSession env r (r.var "user"))]) := by
  rw [eventHandler_public huri (by decide)]
  change State.authorize env r s = _
  unfold State.authorize
  dsimp only
  rw [haccepted]
  rfl

theorem eventHandler_stop (hgenuine : Genuine env s) {uri : String}
    (huri : State.stripped env r.uri = some uri) (hapi : apiOf uri = .stop) {session : Session}
    (hsession : s.getSession r = some session) (hadmin : session.admin = true) :
    s.eventHandler env r = some (State.finish r
      { s with sessions := s.sessions.set r.cookie (prolonged r session) }
      [.stop (lastPart uri), .ack (!contains "OK" (r.manage (lastPart uri))) (r.manage (lastPart uri))]) := by
  have hknown : apiOf uri ≠ .unknown := by simp [hapi]
  have hadd : apiOf uri ≠ .usersAdd := by simp [hapi]
  have hprolonged : (prolonged r session).admin = true := hadmin
  rw [eventHandler_api hgenuine huri (not_public_of_api hknown hadd) (startsWith_of_api hknown) hsession]
  simp only [handleRequest, hapi, serveInstancesStop, allowOnlyAdmin, hprolonged, if_true,
    Option.bind_eq_bind, Option.bind_some, Option.map_some]

/-- While nobody has registered under the name of the administrator, someone who knows no password can
register an account with this name and a password of his own, log in with it and stop an instance. -/
theorem takeover_of_run (h : (machine env).Run tr s)
    (hstorage : env.storage = some (createBackend c open_ kind)) (hname : env.user ≠ "")
    (hfree : s.db.userRow env.user = none) {r₁ r₂ r₃ : Request} {uri : String}
    (hadd : State.stripped env r₁.uri = some "/api/v1/users/add") (hjid : r₁.account.jid = env.user)
    (hpassword : r₁.var "password" ≠ "") (hholds : s.db.Holds (kind.columns open_))
    (hok : ((createBackend c open_ kind).setUser r₁.account s.db).2 = true)
    (hfits : UserFits c open_ r₁.account s.db kind)
    (hauthorize : State.stripped env r₂.uri = some "/authorize") (huser : r₂.var "user" = env.user)
    (hsame : r₂.var "password" = r₁.var "password")
    (hstop : State.stripped env r₃.uri = some uri) (hapi : apiOf uri = .stop)
    (hcookie : r₃.cookie = (State.newSession env r₂ env.user).id) (hnow : r₃.now < r₂.now + sessionTTL) :
    ∃ s₁ s₂ s₃, s.eventHandler env r₁ = some s₁ ∧ s₁.eventHandler env r₂ = some s₂ ∧
      s₂.eventHandler env r₃ = some s₃ ∧
      s₃.done = (r₃, [.stop (lastPart uri), .ack (!contains "OK" (r₃.manage (lastPart uri)))
        (r₃.manage (lastPart uri))]) :: (r₂, [.loggedIn (State.newSession env r₂ env.user)]) ::
        (r₁, [.ack false ""]) :: s.done := by
  rw [← hjid] at hfree hname
  have hadded := eventHandler_usersAdd hstorage hadd hname hpassword hfree
  obtain ⟨read, hread, hreads⟩ := @getUser_setUser c open_ kind s.db r₁.account hholds hok hfits
  generalize hs₁ : State.finish r₁ _ [Effect.ack false ""] = s₁ at hadded
  have hdb : s₁.db = ((createBackend c open_ kind).setUser r₁.account s.db).1 := by rw [← hs₁]; rfl
  have haccepted : s₁.checkPassword env (r₂.var "user") (r₂.var "password") = some true := by
    unfold State.checkPassword
    split
    · rfl
    · rw [hstorage, huser, ← hjid, hdb]
      simp only [hread, hreads, hsame]
      exact congrArg some (decide_eq_true rfl)
  have hlogin := eventHandler_authorize hauthorize haccepted
  rw [huser] at hlogin
  have hgenuine := genuine_step (genuine_step (genuine_of_run h) hadded) hlogin
  have hsession : State.getSession r₃ (State.finish r₂ { s₁ with
      sessions := s₁.sessions.set (State.newSession env r₂ env.user).id (State.newSession env r₂ env.user) }
      [.loggedIn (State.newSession env r₂ env.user)]) = some (State.newSession env r₂ env.user) := by
    change ((s₁.sessions.set _ _).get r₃.cookie).filter _ = _
    rw [SortedMap.get_set, if_pos hcookie, Option.filter_some, if_pos]
    refine decide_eq_true ⟨?_, hnow⟩
    change r₂.now + sessionTTL ≠ 0
    omega
  have hstopped := eventHandler_stop hgenuine hstop hapi hsession (decide_eq_true rfl)
  refine ⟨_, _, _, hadded, hlogin, hstopped, ?_⟩
  rw [← hs₁]
  rfl

end Takeover

end Spectrum.Manager
