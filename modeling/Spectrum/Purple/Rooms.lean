import Spectrum.Purple.Sessions
import Spectrum.Server.Directory

/-!
# The rooms of libpurple in the directory

The backend keeps the rooms of a user from one list that libpurple fetches to the next and reports them
all, each time with the topics of the last list. The directory of the transport takes a report as it
comes.

* `rooms_of_run`: what the transport shows of the lists that were fetched, and when this is the last of
  them.
-/

namespace Spectrum.Purple

open Lib

/-- A list that libpurple fetched for an account of a user, with the room and the topic of each entry. -/
structure Fetch where
  user : String
  list : List (String × String)
  deriving DecidableEq, Repr

/-- The rooms of a user that the backend knows. -/
def State.known (s : State) (user : String) : List String := s.rooms.read [] user

/-- What is known after another list. -/
def learn (known : String → List String) (f : Fetch) (user : String) : List String :=
  if user = f.user then known user ++ f.list.map Prod.fst else known user

/-- The lists of rooms that are reported, each with its user and its names. -/
def reports (known : String → List String) : List Fetch → List (String × List String × List String)
  | [] => []
  | f :: fs => (f.user, learn known f f.user, f.list.map Prod.snd) :: reports (learn known f) fs

/-- The list that an output reports. -/
def Output.roomList? : Output → Option (String × List String × List String)
  | .report user (.roomList rooms names) => some (user, rooms, names)
  | _ => none

/-- The lists that were fetched are reported, and nothing else is known or reported. -/
def Told (s s' : State) (fs : List Fetch) : Prop :=
  ∃ os, s'.done = s.done ++ os ∧ os.filterMap Output.roomList? = reports s.known fs ∧
    s'.known = fs.foldl learn s.known

variable {env : Env} {s s' s₁ : State} {user u : String} {a : AccountId} {fs gs : List Fetch}

theorem reports_append (known : String → List String) (fs gs : List Fetch) :
    reports known (fs ++ gs) = reports known fs ++ reports (fs.foldl learn known) gs := by
  induction fs generalizing known with
  | nil => rfl
  | cons f fs ih => rw [List.cons_append, reports, ih, reports, List.foldl_cons, List.cons_append]

theorem Told.trans (h : Told s s₁ fs) (h' : Told s₁ s' gs) : Told s s' (fs ++ gs) := by
  obtain ⟨os, hdone, hlists, hknown⟩ := h
  obtain ⟨os', hdone', hlists', hknown'⟩ := h'
  refine ⟨os ++ os', by rw [hdone', hdone, List.append_assoc], ?_, ?_⟩
  · rw [List.filterMap_append, hlists, hlists', reports_append, hknown]
  · rw [hknown', hknown, List.foldl_append]

theorem told_of_same (hd : s'.done = s.done) (hr : s'.rooms = s.rooms) : Told s s' [] := by
  refine ⟨[], by rw [hd, List.append_nil], rfl, ?_⟩
  unfold State.known
  rw [hr]
  rfl

theorem Told.of_same (h : Told s s₁ fs) (hd : s'.done = s₁.done) (hr : s'.rooms = s₁.rooms) :
    Told s s' fs := by
  have hall := h.trans (told_of_same hd hr)
  rwa [List.append_nil] at hall

theorem Told.put (h : Told s s' []) {o : Output} (ho : o.roomList? = none) : Told s (s'.put o) [] := by
  obtain ⟨os, hdone, hlists, hknown⟩ := h
  refine ⟨os ++ [o], ?_, ?_, hknown⟩
  · rw [State.put, hdone, List.append_assoc]
  · rw [List.filterMap_append, hlists, List.filterMap_cons_none ho]
    rfl

/-! ## Requests -/

theorem told_readRooms (s : State) (a : AccountId) : Told s (s.readRooms a) [] := by
  refine ⟨[], (List.append_nil _).symm, rfl, funext fun u => ?_⟩
  exact SortedMap.read_touch s.rooms [] (s.userOf a) u

theorem told_withAccount {f : AccountId → State → State} (hf : ∀ a s₁, Told s₁ (f a s₁) [])
    (user : String) (s : State) : Told s (s.withAccount user f) [] := by
  have hread : Told s (s.readSession user) [] := told_of_same rfl rfl
  unfold State.withAccount
  dsimp only
  split
  · exact hread
  · exact hread.trans (hf _ _)

theorem told_answerAuth (answer : Nat → Output) (hanswer : ∀ n, (answer n).roomList? = none)
    (user buddyName : String) (s : State) : Told s (s.answerAuth answer user buddyName) [] := by
  unfold State.answerAuth
  cases s.authRequests.get (user ++ buddyName) with
  | none => exact told_of_same rfl rfl
  | some req => exact ((told_of_same rfl rfl).put (hanswer req.userData)).of_same rfl rfl

theorem told_report (s : State) (a : AccountId) {r : Report}
    (hr : ∀ rooms names, r ≠ .roomList rooms names) : Told s (s.report a r) [] := by
  refine Told.put (told_of_same rfl rfl) ?_
  cases r with
  | roomList rooms names => exact absurd rfl (hr rooms names)
  | _ => rfl

theorem told_notifyUserInfo (s : State) (a : AccountId) (who : String) :
    Told s (s.notifyUserInfo env a who) [] :=
  (told_report s a fun _ _ => Report.noConfusion).of_same rfl rfl

theorem told_handleRequest (user : String) (r : Request) : Told s (s.handleRequest env user r) [] := by
  have hrefl : ∀ s₁ : State, Told s₁ s₁ [] := fun _ => told_of_same rfl rfl
  have hcall : ∀ c, Told s (s.callFor user c) [] := fun c =>
    told_withAccount (fun _ s₁ => (hrefl s₁).put rfl) user s
  cases r with
  | typing buddyName => exact hcall _
  | typed buddyName => exact hcall _
  | stoppedTyping buddyName => exact hcall _
  | attention buddyName => exact hcall _
  | messageSend legacyName text =>
    refine told_withAccount (fun a s₁ => ?_) user s
    have hrooms := told_readRooms s₁ a
    dsimp only
    split
    · cases (s₁.readRooms a).inputRequests.get user with
      | none => exact hrooms
      | some req => exact (hrooms.put (o := .okCb req.userData text) rfl).of_same rfl rfl
    · exact hrooms.put rfl
  | vcard legacyName requestId =>
    refine told_withAccount (fun a s₁ => ?_) user s
    dsimp only
    have hset : Told s₁ { s₁ with
        vcards := s₁.vcards.set (user ++ State.vcardName env legacyName) requestId } [] :=
      told_of_same rfl rfl
    split
    · exact hset.trans (told_notifyUserInfo _ _ _)
    · exact hset.put rfl
  | buddyUpdated buddyName aliasName groups =>
    exact told_withAccount
      (fun a s₁ => (told_answerAuth .authorize (fun _ => rfl) _ _ s₁).put rfl) user s
  | buddyRemoved buddyName =>
    refine told_withAccount (fun a s₁ => ?_) user s
    have hdeny := told_answerAuth .deny (fun _ => rfl) user buddyName s₁
    dsimp only
    split
    · exact hdeny.put rfl
    · exact hdeny
  | joinRoom room => exact told_withAccount (fun a s₁ => (told_readRooms s₁ a).put rfl) user s
  | leaveRoom room => exact told_withAccount (fun a s₁ => (told_readRooms s₁ a).put rfl) user s

/-! ## Logins -/

theorem told_useAccount (user password protocol : String) (a : AccountId) (newAccount : Bool) :
    Told s (s.useAccount env user password protocol a newAccount) [] := by
  unfold State.useAccount
  dsimp only
  split
  · exact Told.put (told_of_same rfl rfl) rfl
  · exact told_of_same rfl rfl

theorem told_handleLoginRequest (user legacyName password : String) :
    Told s (s.handleLoginRequest env user legacyName password) [] := by
  have hadmin : Told s (s.setAdminName (getProtocolAndName env legacyName).2) [] := told_of_same rfl rfl
  refine hadmin.trans ?_
  unfold State.handleLoginRequest State.logIn
  dsimp only
  split
  · exact Told.put (told_of_same rfl rfl) rfl
  · split
    · split
      · exact Told.put (told_of_same rfl rfl) rfl
      · exact told_useAccount _ _ _ _ _
    · exact (told_of_same rfl rfl).trans (told_useAccount _ _ _ _ _)

/-! ## Callbacks -/

/-- The list that a callback brings. -/
def Callback.fetched (s : State) : Callback → List Fetch
  | .roomList a list => [⟨s.userOf a, list⟩]
  | _ => []

theorem told_roomlistFetched (a : AccountId) (list : List (String × String)) :
    Told s (s.roomlistFetched a list) [⟨s.userOf a, list⟩] := by
  refine ⟨[.report (s.userOf a) (.roomList (s.known (s.userOf a) ++ list.map Prod.fst)
    (list.map Prod.snd))], rfl, ?_, funext fun u => ?_⟩
  · rw [reports, learn, if_pos rfl]
    rfl
  · rw [List.foldl_cons, List.foldl_nil, learn]
    refine (SortedMap.read_set _ _ _ _ _).trans ?_
    split
    · rename_i heq
      rw [heq]
      rfl
    · rfl

theorem told_prompts (texts : List String) (s : State) : Told s
    (texts.foldl (fun s text => s.report a (.message s.adminLegacyName text "")) s) [] := by
  induction texts generalizing s with
  | nil => exact told_of_same rfl rfl
  | cons text texts ih => exact (told_report s a fun _ _ => Report.noConfusion).trans (ih _)

theorem told_requestInput (a : AccountId) (primary : String) (userData : Nat) :
    Told s (s.requestInput a primary userData) [] := by
  unfold State.requestInput
  cases ownAnswer primary with
  | some answer => exact (told_of_same (s := s) rfl rfl).put rfl
  | none =>
    cases prompts primary with
    | none => exact told_of_same rfl rfl
    | some texts => exact (told_prompts texts s).of_same rfl rfl

theorem told_handleCallback (c : Callback) : Told s (s.handleCallback env c) (c.fetched s) := by
  cases c with
  | requestAuth a who userData =>
    have hread : Told s (s.readAccount a) [] := told_of_same rfl rfl
    exact (hread.put (o := .report (s.userOf a) (.authorization who)) rfl).of_same rfl rfl
  | requestClose req => exact told_of_same rfl rfl
  | requestInput a primary userData =>
    exact told_requestInput a primary userData
  | notifyUserInfo a who => exact told_notifyUserInfo s a who
  | roomList a list => exact told_roomlistFetched a list
  | writeChat a conversation who text =>
    exact (told_readRooms s a).trans (told_report _ _ fun _ _ => Report.noConfusion)
  | _ => exact told_report _ _ fun _ _ => Report.noConfusion

/-- Callbacks look users up and change none. -/
theorem userOf_handleCallback (c : Callback) : (s.handleCallback env c).userOf = s.userOf := by
  unfold State.userOf
  rw [(heard_handleCallback env s c).accounts]
  split
  · exact funext fun a => SortedMap.read_touch _ _ _ _
  · rfl

theorem told_callbacks (cs : List Callback) (s : State) :
    Told s (cs.foldl (State.handleCallback env) s) (cs.flatMap (Callback.fetched s)) := by
  induction cs generalizing s with
  | nil => exact told_of_same rfl rfl
  | cons c cs ih =>
    have hrest := ih (s.handleCallback env c)
    have hsame : Callback.fetched (s.handleCallback env c) = Callback.fetched s := by
      funext c'
      cases c' with
      | roomList a list => rw [Callback.fetched, userOf_handleCallback, Callback.fetched]
      | _ => rfl
    rw [hsame] at hrest
    rw [List.foldl_cons, List.flatMap_cons]
    exact (told_handleCallback c).trans hrest

/-- The lists that come with an event. -/
def Event.fetched (s : State) : Event → List Fetch
  | .callback c => c.fetched s
  | .logout user during => if s.session user = null then [] else during.flatMap (Callback.fetched s)
  | _ => []

theorem told_handleLogoutRequest (user : String) (during : List Callback) :
    Told s (s.handleLogoutRequest env user during) (Event.fetched s (.logout user during)) := by
  have hread : Told s (s.readSession user) [] := told_of_same rfl rfl
  have hsession : (s.readSession user).session user = s.session user :=
    (quiet_readSession user s).session user
  unfold State.handleLogoutRequest State.withAccount
  dsimp only
  rw [hsession, Event.fetched]
  split
  · exact hread
  · have hleft : Told s ({ s.readSession user with
        sessions := (s.readSession user).sessions.erase user } : State) [] := told_of_same rfl rfl
    have hcall := hleft.put (o := .call (s.session user) .disconnect) rfl
    exact (hcall.trans (told_callbacks during _)).of_same rfl rfl

theorem told_step {e : Event} (hs : step env s e = some s') : Told s s' (e.fetched s) := by
  cases e with
  | login user legacyName password =>
    cases hs
    exact told_handleLoginRequest _ _ _
  | logout user during =>
    rw [step] at hs
    split at hs
    · cases hs
      exact told_handleLogoutRequest user during
    · cases hs
  | request user r =>
    cases hs
    exact told_handleRequest user r
  | callback c =>
    rw [step] at hs
    split at hs
    · cases hs
      exact told_handleCallback c
    · cases hs

/-! ## The backend and the directory -/

/-- A backend and the directory of the transport. -/
structure System where
  backend : State := {}
  directory : Directory.State := {}

/-- An event of the backend, or a user who is created or removed in the transport. -/
inductive SystemEvent
  | backend (e : Event)
  | created (user : String)
  | removed (user : String)
  deriving DecidableEq, Repr

/-- The transport takes what the backend sends. -/
def deliver (denv : Directory.Env) (d : Directory.State) (o : Output) : Directory.State :=
  o.roomList?.elim d fun r => d.handleRoomListPayload denv r.1 r.2.1 r.2.2

def System.step (env : Env) (denv : Directory.Env) (s : System) : SystemEvent → Option System
  | .backend e => (Purple.step env s.backend e).map fun b =>
    ⟨b, (b.done.drop s.backend.done.length).foldl (deliver denv) s.directory⟩
  | .created user => (Directory.step denv s.directory (.created user)).map (⟨s.backend, ·⟩)
  | .removed user => (Directory.step denv s.directory (.removed user)).map (⟨s.backend, ·⟩)

def system (env : Env) (denv : Directory.Env) : Machine System SystemEvent where
  init s := Fresh s.backend ∧ s.directory = {}
  step := System.step env denv

/-! ## The history -/

/-- What happened to the rooms. -/
inductive Entry
  | fetched (f : Fetch)
  | created (user : String)
  | removed (user : String)
  deriving DecidableEq, Repr

/-- The lists that came with an event, newest first, before the others. -/
def record (fs : List Fetch) (es : List Entry) : List Entry :=
  fs.foldl (fun es f => .fetched f :: es) es

def SystemEvent.record (s : System) (es : List Entry) : SystemEvent → List Entry
  | .backend e => Purple.record (e.fetched s.backend) es
  | .created user => .created user :: es
  | .removed user => .removed user :: es

/-- What happened in a run, newest first. -/
def entries : List (System × SystemEvent) → List Entry
  | [] => []
  | (s, e) :: tr => e.record s (entries tr)

/-- The rooms of a user in all lists so far. -/
def known : List Entry → String → List String
  | [] => fun _ => []
  | .fetched f :: es => learn (known es) f
  | _ :: es => known es

/-- The list that was fetched last for a user since he logged in, and the rooms known before. -/
def lastFetch (u : String) : List Entry → Option (List String × List (String × String))
  | [] => none
  | .fetched f :: es => if f.user = u then some (known es u, f.list) else lastFetch u es
  | .created user :: es => if user = u then none else lastFetch u es
  | .removed user :: es => if user = u then none else lastFetch u es

/-- What the directory gets. -/
def payloads : List Entry → List Directory.Event
  | [] => []
  | .fetched f :: es =>
    .roomList f.user (known (.fetched f :: es) f.user) (f.list.map Prod.snd) :: payloads es
  | .created user :: es => .created user :: payloads es
  | .removed user :: es => .removed user :: payloads es

variable {denv : Directory.Env} {d : Directory.State} {es : List Entry} {x x' : System}

/-- The directory has what was reported, and the backend knows what was fetched. -/
structure Tracks (denv : Directory.Env) (x : System) (es : List Entry) : Prop where
  known : x.backend.known = known es
  directory : Directory.Follows denv x.directory (payloads es)

theorem known_record (fs : List Fetch) (es : List Entry) :
    known (record fs es) = fs.foldl learn (known es) := by
  induction fs generalizing es with
  | nil => rfl
  | cons f fs ih => exact ih (.fetched f :: es)

theorem foldl_deliver (os : List Output) (d : Directory.State) :
    os.foldl (deliver denv) d = (os.filterMap Output.roomList?).foldl
      (fun d r => d.handleRoomListPayload denv r.1 r.2.1 r.2.2) d := by
  induction os generalizing d with
  | nil => rfl
  | cons o os ih =>
    rw [List.foldl_cons, ih, deliver]
    cases ho : o.roomList? with
    | none =>
      rw [List.filterMap_cons_none ho]
      rfl
    | some r =>
      rw [List.filterMap_cons_some ho]
      rfl

/-- The reports of a step, one after the other. -/
theorem follows_reports (fs : List Fetch)
    (h : Directory.Follows denv d (payloads es)) : Directory.Follows denv ((reports (known es) fs).foldl
      (fun d r => d.handleRoomListPayload denv r.1 r.2.1 r.2.2) d) (payloads (record fs es)) := by
  induction fs generalizing d es with
  | nil => exact h
  | cons f fs ih =>
    have hnext : Directory.Follows denv _ (payloads (.fetched f :: es)) :=
      Directory.follows_step h rfl
    exact ih hnext

theorem tracks_step {e : SystemEvent} (h : Tracks denv x es)
    (hs : System.step env denv x e = some x') : Tracks denv x' (e.record x es) := by
  cases e with
  | backend e =>
    obtain ⟨b, hb, rfl⟩ := Option.map_eq_some_iff.mp hs
    obtain ⟨os, hdone, hlists, hknown⟩ := told_step hb
    constructor
    · exact hknown.trans (h.known ▸ (known_record _ _).symm)
    · dsimp only
      rw [hdone, List.drop_left, foldl_deliver, hlists, h.known]
      exact follows_reports _ h.directory
  | created user =>
    obtain ⟨d, hd, rfl⟩ := Option.map_eq_some_iff.mp hs
    exact ⟨h.known, Directory.follows_step h.directory hd⟩
  | removed user =>
    cases hs
    exact ⟨h.known, Directory.follows_step h.directory rfl⟩

theorem tracks_of_run {tr : List (System × SystemEvent)} (h : (system env denv).Run tr x) :
    Tracks denv x (entries tr) := by
  induction h with
  | init h0 =>
    obtain ⟨⟨stored, hstored⟩, hdirectory⟩ := h0
    refine ⟨by rw [hstored]; rfl, ?_⟩
    rw [hdirectory]
    exact Directory.follows_of_run (.init rfl)
  | step _ hs ih => exact tracks_step ih hs

/-! ## What is shown -/

/-- The rooms that are listed for a user who is logged in: none, or those of the last list. -/
theorem listedFor_payloads {own : List (String × String)} (hu : u ≠ "")
    (h : Directory.listedFor denv u (payloads es) = some own) :
    own = ((lastFetch u es).elim [] fun p => (p.1 ++ p.2.map Prod.fst).zip (p.2.map Prod.snd)).map
      (Directory.handleOf denv) := by
  induction es with
  | nil => cases h
  | cons e es ih =>
    cases e with
    | fetched f =>
      rw [payloads, Directory.listedFor] at h
      rw [lastFetch]
      by_cases heq : f.user = u
      · rw [if_pos ⟨heq, heq.symm ▸ hu⟩, known, learn, if_pos rfl, heq] at h
        obtain ⟨_, -, rfl⟩ := Option.map_eq_some_iff.mp h
        rw [if_pos heq]
        rfl
      · rw [if_neg fun h => heq h.1] at h
        rw [if_neg heq]
        exact ih h
    | created user =>
      rw [payloads, Directory.listedFor] at h
      rw [lastFetch]
      split at h
      · cases h
        rename_i heq
        rw [if_pos heq]
        rfl
      · rename_i hne
        rw [if_neg hne]
        exact ih h
    | removed user =>
      rw [payloads, Directory.listedFor] at h
      rw [lastFetch]
      split at h
      · cases h
      · rename_i hne
        rw [if_neg hne]
        exact ih h

/-- The names of a list fit the rooms exactly if these come first. -/
theorem zip_eq_iff {rooms : List String} {list : List (String × String)} :
    rooms.zip (list.map Prod.snd) = list ↔ list.map Prod.fst <+: rooms := by
  induction list generalizing rooms with
  | nil => simp
  | cons p list ih =>
    cases rooms with
    | nil => simp
    | cons room rooms =>
      rw [List.map_cons, List.zip_cons_cons, List.map_cons, List.cons_prefix_cons, ← ih,
        List.cons.injEq, Prod.ext_iff]
      exact and_congr_left' ((and_iff_left rfl).trans eq_comm)

theorem listed_payloads (hall : ∀ f, .fetched f ∈ es → f.user ≠ "") :
    Directory.listed denv (payloads es) = [] := by
  induction es with
  | nil => rfl
  | cons e es ih =>
    have hrest := ih fun f hf => hall f (List.mem_cons_of_mem _ hf)
    cases e with
    | fetched f =>
      rw [payloads, Directory.listed, if_neg (hall f List.mem_cons_self)]
      exact hrest
    | created user => exact hrest
    | removed user => exact hrest

/-- A user who is logged in is shown all rooms that were ever fetched for him, as far as the last list
goes and with its topics. This is the last list if and only if its rooms come first among all of them.
No room is made public by lists for users. -/
theorem rooms_of_run {tr : List (System × SystemEvent)} (h : (system env denv).Run tr x) (hu : u ≠ "")
    {items : List Directory.Item} (hitems : x.directory.users.get u = some items) :
    (lastFetch u (entries tr) = none → items = []) ∧
    (∀ before list, lastFetch u (entries tr) = some (before, list) → ∃ shown,
      items = (shown.map (Directory.handleOf denv)).map (Directory.itemOf denv) ∧
      shown = (before ++ list.map Prod.fst).zip (list.map Prod.snd) ∧
      (shown = list ↔ list.map Prod.fst <+: before ++ list.map Prod.fst)) ∧
    ((∀ f, .fetched f ∈ entries tr → f.user ≠ "") → x.directory.rooms = []) := by
  have htracks := tracks_of_run h
  rw [htracks.directory.users] at hitems
  obtain ⟨own, hown, rfl⟩ := Option.map_eq_some_iff.mp hitems
  have hshown := listedFor_payloads hu hown
  refine ⟨fun hnone => ?_, fun before list hlast => ?_, fun hall => ?_⟩
  · rw [hshown, hnone]
    rfl
  · rw [hlast] at hshown
    exact ⟨_, congrArg (List.map _) hshown, rfl, zip_eq_iff⟩
  · rw [htracks.directory.rooms.items, Directory.shown, listed_payloads hall, List.take_nil]
    rfl

namespace Sample

def directory : Directory.Env where
  jid := "discord.capulet.lit"
  parseJid := fun handle => ⟨before '@' handle, after '@' handle, ""⟩
  escapedNode := id
  toLower := id

/-- Two lists are fetched for a user, each with one room. -/
def listings : List SystemEvent := [.created juliet, .backend (.login juliet "capulet" "secret"),
  .backend (.callback (.roomList 1 [("garden", "The garden")])),
  .backend (.callback (.roomList 1 [("orchard", "The orchard")]))]

/-- The system after some of the events. -/
def stateAt (n : Nat) : System := ((system discord directory).exec {} (listings.take n)).getD {}

end Sample

/-- The room of the first list is shown under the topic of the second. -/
theorem rooms_of_run_listings : ∃ tr x shown, (system Sample.discord Sample.directory).Run tr x ∧
    x.directory.users.get Sample.juliet = some ((shown.map (Directory.handleOf Sample.directory)).map
      (Directory.itemOf Sample.directory)) ∧
    shown = [("garden", "The orchard")] ∧ shown ≠ [("orchard", "The orchard")] := by
  have hrun : (system Sample.discord Sample.directory).Run
      [(Sample.stateAt 3, .backend (.callback (.roomList 1 [("orchard", "The orchard")]))),
        (Sample.stateAt 2, .backend (.callback (.roomList 1 [("garden", "The garden")]))),
        (Sample.stateAt 1, .backend (.login Sample.juliet "capulet" "secret")),
        ({}, .created Sample.juliet)] (Sample.stateAt 4) :=
    .step (.step (.step (.step (.init ⟨⟨[], rfl⟩, rfl⟩) rfl) rfl) rfl) rfl
  have hitems : (Sample.stateAt 4).directory.users.get Sample.juliet =
      some [⟨"The orchard", ⟨"garden", "discord.capulet.lit", ""⟩⟩] := by
    decide +kernel
  obtain ⟨-, hlast, -⟩ := rooms_of_run hrun (by decide) hitems
  obtain ⟨shown, hshown, heq, hiff⟩ := hlast ["garden"] [("orchard", "The orchard")] (by decide +kernel)
  exact ⟨_, _, shown, hrun, hitems.trans (congrArg some hshown), heq,
    fun h => absurd (hiff.mp h) (by decide)⟩

end Spectrum.Purple
