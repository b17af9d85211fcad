import Spectrum.Manager.Execute

/-!
# Under which name a user is registered

The database of the web interface says under which name a user is registered at an instance. Queries for
him are sent under this name, and an instance does not ask who sends them.

* `names_of_run`: the name is the one in his last registration that was answered, whatever the answer.
* `unregistered_of_run`: this name is what he has unregistered.
-/

namespace Spectrum.Manager

open Lib Storage

/-! ## The table of the names -/

/-- The name under which a user is registered at an instance, or empty. -/
def storedName (db : Db) (id : Int) (instance_ : String) : String :=
  (db.userSetting id instance_).elim "" UserSettingRow.value

section Table

variable {c : Storage.Config} {open_ : MySQL.Undefined} {kind : Storage.Kind} {db : Db} {id : Int}
  {instance_ : String}

/-- A name that is inserted is empty. -/
theorem storedName_insert {k : Columns} {id' : Int} {instance' : String} {type : Int}
    (hempty : (k.varchar 255).Takes "") : storedName
      (db.insertUserSetting k { userId := id', var := instance', type, value := "" }) id instance_ =
      storedName db id instance_ := by
  unfold storedName
  cases hrow : k.userSetting { userId := id', var := instance', type, value := "" } with
  | none => rw [Db.insertUserSetting_of_refused hrow]
  | some row =>
    by_cases hkey : row.userId = id ∧ row.var = instance_
    · obtain ⟨rfl, rfl⟩ := hkey
      rw [Db.userSetting_insertUserSetting_self hrow]
      cases db.userSetting row.userId row.var with
      | none => exact Column.eq_of_store hempty (Columns.userSetting_eq_some hrow).value
      | some r => rfl
    · rw [Db.userSetting_insertUserSetting_of_ne hrow hkey]

theorem takes_empty (kind : Storage.Kind) (open_ : MySQL.Undefined) :
    ((kind.columns open_).varchar 255).Takes "" := by
  cases kind with
  | sqlite3 => exact (show '\x00' ∉ "".toList by decide)
  | mysql => exact (show MySQL.Fits 255 "" by decide +kernel)
  | pqxx => exact (show '\x00' ∉ "".toList ∧ "".length ≤ 255 by decide +kernel)

/-- To read a name may make a row for it, but changes no name. -/
theorem getUserSetting_spec (id' : Int) (instance' : String) (db : Db) :
    let read := (createBackend c open_ kind).getUserSetting id' instance' (typeString, "") db
    (∀ id instance_, storedName read.1 id instance_ = storedName db id instance_) ∧
      read.2.2 = storedName db id' instance' ∧
      (((kind.columns open_).varchar 50).Takes instance' →
        (read.1.userSetting id' instance').isSome) := by
  rw [createBackend_getUserSetting]
  cases hrow : db.userSetting id' instance' with
  | some r =>
    refine ⟨fun _ _ => rfl, ?_, fun _ => ?_⟩
    · rw [storedName, hrow]
      rfl
    · simp only [hrow, Option.isSome_some]
  | none =>
    refine ⟨fun id instance_ => storedName_insert (takes_empty kind open_), ?_, fun hname => ?_⟩
    · rw [storedName, hrow]
      rfl
    · have hsetting := @SlackRegistration.userSetting_of_takes instance' id' (kind.columns open_)
        typeString "" hname (SlackRegistration.takes_typeString kind open_)
      rw [Column.store_of_takes (takes_empty kind open_), Option.map_some] at hsetting
      have hself := @Db.userSetting_insertUserSetting_self _ db _ _ hsetting
      simp only at hself ⊢
      rw [hself]
      rfl

theorem storedName_update {id' : Int} {instance' : String} (h : (db.userSetting id' instance').isSome)
    {name : String} (hname : ((kind.columns open_).varchar 255).Takes name) :
    storedName ((createBackend c open_ kind).updateUserSetting id' instance' name db) id instance_ =
      if id' = id ∧ instance' = instance_ then name else storedName db id instance_ := by
  unfold storedName
  rw [createBackend_updateUserSetting, Db.userSetting_writeUserSetting, Column.store_of_takes hname]
  cases hrow : db.userSetting id instance_ with
  | none =>
    rw [if_neg]
    · rfl
    · rintro ⟨rfl, rfl⟩
      rw [hrow] at h
      cases h
  | some r =>
    obtain ⟨-, hid, hvar⟩ := Db.userSetting_eq_some_iff.mp hrow
    rw [Option.map_some, hid, hvar]
    by_cases hkey : id' = id ∧ instance' = instance_
    · rw [if_pos hkey, if_pos ⟨hkey.1.symm, hkey.2.symm⟩]
      rfl
    · rw [if_neg hkey, if_neg fun h => hkey ⟨h.1.symm, h.2.symm⟩]

theorem storedName_removeUser (id' : Int) :
    storedName ((createBackend c open_ kind).removeUser id' db) id instance_ =
      if id' = id then "" else storedName db id instance_ := by
  have htable := (removeUser_tables c open_ kind id' db).2.2.1
  have hsame : ∀ r, ((createBackend c open_ kind).removeUser id' db).userSetting id instance_ = some r ↔
      db.userSetting id instance_ = some r ∧ r.userId ≠ id' := by
    intro r
    rw [Db.userSetting_eq_some_iff, Db.userSetting_eq_some_iff, htable, Table.mem_delete]
    simp only [decide_eq_false_iff_not]
    tauto
  unfold storedName
  by_cases hid : id' = id
  · have hnone : ((createBackend c open_ kind).removeUser id' db).userSetting id instance_ = none := by
      refine Option.eq_none_iff_forall_ne_some.mpr fun r hr => ?_
      obtain ⟨hrow, hne⟩ := (hsame r).mp hr
      exact hne ((Db.userSetting_eq_some_iff.mp hrow).2.1.trans hid.symm)
    rw [hnone, if_pos hid]
    rfl
  · rw [if_neg hid]
    congr 1
    refine Option.ext fun r => (hsame r).trans (and_iff_left_of_imp fun hrow => ?_)
    rw [(Db.userSetting_eq_some_iff.mp hrow).2.1]
    exact Ne.symm hid

theorem storedName_setUser (user : Storage.UserInfo) :
    storedName ((createBackend c open_ kind).setUser user db).1 id instance_ = storedName db id instance_ := by
  unfold storedName Db.userSetting
  rw [SlackRegistration.setUser_usersSettings]

end Table

/-! ## What a request stores -/

/-- A name that is stored, and the answer of the instance because of which it is. -/
structure Record where
  id : Int
  instance_ : String
  name : String
  answer : String
  deriving DecidableEq, Repr

/-- The name fits its column, and so does the name of the instance. -/
def Record.Fits (k : Columns) (record : Record) : Prop :=
  (k.varchar 50).Takes record.instance_ ∧ (k.varchar 255).Takes record.name

/-- The answer to `register`, after so many other commands. None if the user is sent elsewhere. -/
def Request.registerAnswer (r : Request) (n : Nat) (instance_ data : String) : Option String :=
  let url := r.sendCommand n instance_ ("get_oauth2_url " ++ data)
  if url ≠ "" ∧ startsWith "Error:" url = false then none
  else some (r.sendCommand (n + 1) instance_ ("register " ++ data))

/-- The answer to the registration of a request to register. -/
def Request.registrationAnswer (r : Request) (instance_ : String) : Option String :=
  let jid := r.var "jid"
  if r.var "uin" ≠ "" ∧ r.var "password" ≠ "" then
    if jid = "" then none
    else r.registerAnswer 0 instance_ (jid ++ " " ++ r.var "uin" ++ " " ++ r.var "password")
  else if (split '\n' (r.sendCommand 0 instance_ "registration_fields")).length = 1 ∧ jid ≠ "" then
    r.registerAnswer 1 instance_ (jid ++ " " ++ "unknown" ++ " " ++ "unknown")
  else none

/-- The name under which a request to unregister is sent. -/
def unregistered (r : Request) (session : Session) (name : String) : String :=
  if name = "" ∧ session.admin then r.var "command_arg0" else name

/-- The name and the answer that a request stores, if it does. -/
def stored (r : Request) (session : Session) (uri name : String) : Option (String × String) :=
  let instance_ := lastPart uri
  if startsWith "/oauth2" uri then
    let response := r.sendCommand 0 instance_ ("set_oauth2_code " ++ r.var "code" ++ " " ++ r.var "state")
    match startsWith "Registered as " response, split ' ' response with
    | true, [_, _, jid] => some (jid, response)
    | _, _ => none
  else
    match apiOf uri with
    | .register =>
      ((r.registrationAnswer instance_).filter fun answer => answer ≠ "").map fun answer =>
        (r.var "jid", answer)
    | .unregister =>
      let answer := r.sendCommand 0 instance_ ("unregister " ++ unregistered r session name)
      if unregistered r session name = "" ∨ answer = "" then none else some ("", answer)
    | _ => none

section Requests

variable (b : Storage.Backend) (r : Request) (session : Session) (db : Db) (uri : String)

def recordIn : Option Record := do
  let id ← SlackRegistration.getUserId b session.user r.junk db
  let (name, answer) ← stored r session uri (storedName db id (lastPart uri))
  return ⟨id, lastPart uri, name, answer⟩

/-- The user that a request removes. -/
def removedIn : Option Int :=
  if apiOf uri = .usersRemove ∧ session.admin then SlackRegistration.getUserId b (lastPart uri) r.junk db
  else none

variable (env : Env) (s : State)

/-- The storage, the URI and the session of a request that needs one. -/
def served : Option (Storage.Backend × String × Session) := do
  let b ← env.storage
  let uri ← State.stripped env r.uri
  let session ← s.getSession r
  if uri ∈ State.publicURIs then none else return (b, uri, session)

def recordOf : Option Record := do
  let (b, uri, session) ← served r env s
  recordIn b r session s.db uri

def removedBy : Option Int := do
  let (b, uri, session) ← served r env s
  removedIn b r session s.db uri

end Requests

/-- The last name that was stored, unless the user was removed since then. -/
def lastRecord (env : Env) (id : Int) (instance_ : String) : List (State × Request) → Option Record
  | [] => none
  | (s, r) :: tr =>
    match recordOf r env s with
    | some record =>
      if record.id = id ∧ record.instance_ = instance_ then some record
      else lastRecord env id instance_ tr
    | none => if removedBy r env s = some id then none else lastRecord env id instance_ tr

/-! ## The handlers -/

section Handlers

variable {c : Storage.Config} {open_ : MySQL.Undefined} {kind : Storage.Kind} {db db' : Db} {r : Request}
  {session : Session} {uri : String} {effects : List Effect}

/-- No name has changed. -/
def SameNames (db db' : Db) : Prop := ∀ id instance_, storedName db' id instance_ = storedName db id instance_

theorem SameNames.refl (db : Db) : SameNames db db := fun _ _ => rfl

theorem username_spec {id : Int} {instance_ name : String}
    (h : username (some (createBackend c open_ kind)) r session db instance_ = some (id, db', name)) :
    SlackRegistration.getUserId (createBackend c open_ kind) session.user r.junk db = some id ∧
      SameNames db db' ∧ name = storedName db id instance_ ∧
      (((kind.columns open_).varchar 50).Takes instance_ → (db'.userSetting id instance_).isSome) := by
  obtain ⟨id, hid, h⟩ := Option.bind_eq_some_iff.mp h
  cases h
  obtain ⟨hsame, hname, hrow⟩ := @getUserSetting_spec c open_ kind id instance_ db
  exact ⟨hid, hsame, hname, hrow⟩

theorem names_listInstances {is : List Instance} {n : Nat} {entries : List Entry}
    (h : listInstances (some (createBackend c open_ kind)) r session n is db = some (db', effects, entries)) :
    SameNames db db' := by
  induction is generalizing n db effects entries with
  | nil =>
    cases h
    exact .refl _
  | cons i is ih =>
    obtain ⟨⟨id, db₁, name⟩, hname, h⟩ := Option.bind_eq_some_iff.mp h
    obtain ⟨⟨db₂, effects₂, entries₂⟩, hrest, h⟩ := Option.bind_eq_some_iff.mp h
    cases h
    have hfirst := (username_spec hname).2.1
    exact fun id instance_ => (ih hrest id instance_).trans (hfirst id instance_)

theorem allowOnlyAdmin_cases {outcome : Outcome}
    (h : allowOnlyAdmin session db outcome = some (db', effects)) :
    session.admin = true ∧ outcome = some (db', effects) ∨ session.admin = false ∧ db' = db := by
  unfold allowOnlyAdmin at h
  split at h
  · rename_i hadmin
    exact .inl ⟨hadmin, h⟩
  · rename_i hadmin
    cases h
    exact .inr ⟨Bool.eq_false_iff.mpr hadmin, rfl⟩

theorem names_execute
    (h : serveInstancesExecute (some (createBackend c open_ kind)) r session db uri = some (db', effects)) :
    SameNames db db' := by
  obtain ⟨found, -, h⟩ := Option.bind_eq_some_iff.mp h
  cases found with
  | refused =>
    cases h
    exact .refl _
  | named command userContext =>
    obtain ⟨⟨id, db₁, name⟩, hname, h⟩ := Option.bind_eq_some_iff.mp h
    have hsame := (username_spec hname).2.1
    dsimp only at h
    split at h
    · cases h
      exact hsame
    · obtain ⟨shown, -, h⟩ := Option.bind_eq_some_iff.mp h
      cases h
      exact hsame

theorem names_commandArgs (h : serveInstancesCommandArgs r session db uri = some (db', effects)) :
    db' = db := by
  obtain ⟨found, -, h⟩ := Option.bind_eq_some_iff.mp h
  cases found with
  | refused =>
    cases h
    rfl
  | named command userContext =>
    dsimp only at h
    split at h
    · cases h
      rfl
    · obtain ⟨list, -, h⟩ := Option.bind_eq_some_iff.mp h
      cases h
      rfl

/-- The names after a request that stores one or removes a user, if it does. What is stored has to fit
its columns. -/
def Next (k : Columns) (db db' : Db) (record : Option Record) (removed : Option Int) : Prop :=
  (∀ fitting ∈ record, fitting.Fits k) → ∀ id instance_, storedName db' id instance_ =
    match record with
    | some record => if record.id = id ∧ record.instance_ = instance_ then record.name else storedName db id instance_
    | none => if removed = some id then "" else storedName db id instance_

theorem SameNames.next {k : Columns} (h : SameNames db db') : Next k db db' none none :=
  fun _ id instance_ => (h id instance_).trans (if_neg nofun).symm

theorem SameNames.next_update {id : Int} {instance_ : String} (h : SameNames db db')
    (hrow : ((kind.columns open_).varchar 50).Takes instance_ → (db'.userSetting id instance_).isSome)
    (name answer : String) (removed : Option Int) :
    Next (kind.columns open_) db
      ((createBackend c open_ kind).updateUserSetting id instance_ name db')
      (some ⟨id, instance_, name, answer⟩) removed := by
  intro hfits id' instance'
  obtain ⟨hinstance, hname⟩ := hfits _ rfl
  rw [storedName_update (hrow hinstance) hname, h]

theorem registerWith_cases {b : Storage.Backend} {id : Int} {instance_ jid uin password : String}
    {sent : List Effect}
    (h : registerWith r db b id instance_ jid uin password sent = some (db', effects)) :
    ((r.registerAnswer sent.length instance_ (jid ++ " " ++ uin ++ " " ++ password)).filter
        fun answer => answer ≠ "") = none ∧ db' = db ∨
      ∃ answer, ((r.registerAnswer sent.length instance_ (jid ++ " " ++ uin ++ " " ++ password)).filter
        fun answer => answer ≠ "") = some answer ∧ db' = b.updateUserSetting id instance_ jid db := by
  unfold registerWith at h
  unfold Request.registerAnswer
  dsimp only at h ⊢
  split at h
  · rename_i hurl
    cases h
    rw [if_pos hurl]
    exact .inl ⟨rfl, rfl⟩
  · rename_i hurl
    rw [if_neg hurl, Option.filter_some]
    rw [List.length_append, List.length_singleton] at h
    split at h
    · rename_i hempty
      cases h
      rw [if_neg (by simpa using hempty)]
      exact .inl ⟨rfl, rfl⟩
    · rename_i hanswer
      cases h
      rw [if_pos (by simpa using hanswer)]
      exact .inr ⟨_, rfl, rfl⟩

/-- The request to register stores the name even if the answer is an error. -/
theorem next_register (hapi : apiOf uri = .register) (hoauth2 : startsWith "/oauth2" uri = false)
    (h : serveInstancesRegister (some (createBackend c open_ kind)) r session db uri = some (db', effects)) :
    Next (kind.columns open_) db db' (recordIn (createBackend c open_ kind) r session db uri) none := by
  obtain ⟨⟨id, db₁, name⟩, hname, h⟩ := Option.bind_eq_some_iff.mp h
  obtain ⟨hid, hsame, -, hrow⟩ := username_spec hname
  have hstored : stored r session uri (storedName db id (lastPart uri)) =
      ((r.registrationAnswer (lastPart uri)).filter fun answer => answer ≠ "").map fun answer =>
        (r.var "jid", answer) := by
    simp only [stored, hoauth2, hapi, Bool.false_eq_true, if_false]
  have hdone : ∀ {answered : Option String}, r.registrationAnswer (lastPart uri) = answered →
      (answered.filter (fun answer => answer ≠ "") = none ∧ db' = db₁ ∨
        ∃ answer, answered.filter (fun answer => answer ≠ "") = some answer ∧
          db' = (createBackend c open_ kind).updateUserSetting id (lastPart uri) (r.var "jid") db₁) →
      Next (kind.columns open_) db db' (recordIn (createBackend c open_ kind) r session db uri) none := by
    intro answered hanswered hcases
    unfold recordIn
    rw [hid, Option.bind_eq_bind, Option.bind_some, hstored, hanswered]
    rcases hcases with ⟨hnone, rfl⟩ | ⟨answer, hanswer, rfl⟩
    · rw [hnone]
      exact hsame.next
    · rw [hanswer]
      exact hsame.next_update hrow _ _ _
  have hnothing : r.registrationAnswer (lastPart uri) = none → db' = db₁ →
      Next (kind.columns open_) db db' (recordIn (createBackend c open_ kind) r session db uri) none :=
    fun hnone hdb => hdone hnone (.inl ⟨Option.filter_none _, hdb⟩)
  dsimp only at h
  split at h
  · rename_i hdata
    split at h
    · rename_i hjid
      cases h
      refine hnothing ?_ rfl
      simp only [Request.registrationAnswer, if_pos hdata, if_pos hjid]
    · rename_i hjid
      refine hdone ?_ (registerWith_cases h)
      simp only [Request.registrationAnswer, if_pos hdata, if_neg hjid, List.length_nil]
  · rename_i hdata
    split at h
    · rename_i hfields
      refine hdone ?_ (registerWith_cases h)
      simp only [Request.registrationAnswer, if_neg hdata, if_pos hfields, List.length_singleton]
    · rename_i hfields
      cases h
      refine hnothing ?_ rfl
      simp only [Request.registrationAnswer, if_neg hdata, if_neg hfields]

theorem next_unregister (hapi : apiOf uri = .unregister) (hoauth2 : startsWith "/oauth2" uri = false)
    (h : serveInstancesUnregister (some (createBackend c open_ kind)) r session db uri =
      some (db', effects)) :
    Next (kind.columns open_) db db' (recordIn (createBackend c open_ kind) r session db uri) none := by
  obtain ⟨⟨id, db₁, name⟩, hname, h⟩ := Option.bind_eq_some_iff.mp h
  obtain ⟨hid, hsame, rfl, hrow⟩ := username_spec hname
  unfold recordIn
  rw [hid, Option.bind_eq_bind, Option.bind_some]
  simp only [stored, hoauth2, hapi, Bool.false_eq_true, if_false]
  have hfold : (if storedName db id (lastPart uri) = "" ∧ session.admin then r.var "command_arg0"
      else storedName db id (lastPart uri)) = unregistered r session (storedName db id (lastPart uri)) := rfl
  dsimp only at h
  rw [hfold] at h
  by_cases hempty : unregistered r session (storedName db id (lastPart uri)) = ""
  · rw [if_pos hempty] at h
    cases h
    rw [if_pos (.inl hempty)]
    exact hsame.next
  · rw [if_neg hempty] at h
    split at h
    · rename_i hanswer
      cases h
      rw [if_pos (.inr hanswer)]
      exact hsame.next
    · rename_i hanswer
      cases h
      rw [if_neg (not_or.mpr ⟨hempty, hanswer⟩)]
      exact hsame.next_update hrow _ _ _

/-- What an instance is asked for someone without rights who unregisters. -/
theorem serveInstancesUnregister_commands (hadmin : session.admin = false) {id : Int}
    (hid : SlackRegistration.getUserId (createBackend c open_ kind) session.user r.junk db = some id) :
    ∃ db' effects,
      serveInstancesUnregister (some (createBackend c open_ kind)) r session db uri = some (db', effects) ∧
      ∀ instance_ query, (∃ answer, .command instance_ query answer ∈ effects) ↔
        storedName db id (lastPart uri) ≠ "" ∧ instance_ = lastPart uri ∧
          query = "unregister " ++ storedName db id (lastPart uri) := by
  have hname : username (some (createBackend c open_ kind)) r session db (lastPart uri) =
      some (id, ((createBackend c open_ kind).getUserSetting id (lastPart uri) (typeString, "") db).1,
        storedName db id (lastPart uri)) := by
    unfold username
    rw [Option.bind_eq_bind, Option.bind_some, hid, ← (getUserSetting_spec id (lastPart uri) db).2.1]
    rfl
  unfold serveInstancesUnregister
  simp only [Option.bind_eq_bind, Option.bind_some, hname, hadmin, Bool.false_eq_true, and_false, if_false]
  by_cases hempty : storedName db id (lastPart uri) = ""
  · rw [if_pos hempty]
    refine ⟨_, _, rfl, fun instance_ query => ⟨?_, fun h => absurd hempty h.1⟩⟩
    rintro ⟨answer, hmem⟩
    cases List.mem_singleton.mp hmem
  · rw [if_neg hempty]
    split
    · exact ⟨_, _, rfl, fun instance_ query => by simp [hempty]⟩
    · exact ⟨_, _, rfl, fun instance_ query => by simp [hempty]⟩

theorem next_oauth2 {env : Env} {s s' : State}
    (hstorage : env.storage = some (createBackend c open_ kind)) (hsession : s.getSession r = some session)
    (huri : startsWith "/oauth2" uri = true) (hs : s.serveOAuth2 env r uri = some s') :
    Next (kind.columns open_) s.db s'.db (recordIn (createBackend c open_ kind) r session s.db uri) none := by
  unfold State.serveOAuth2 at hs
  dsimp only at hs
  split at hs
  · rename_i first second jid hstart hwords
    obtain ⟨session', hsession', hs⟩ := Option.bind_eq_some_iff.mp hs
    obtain ⟨b, hb, hs⟩ := Option.bind_eq_some_iff.mp hs
    obtain ⟨⟨id, db₁, name⟩, hname, hs⟩ := Option.bind_eq_some_iff.mp hs
    cases hs
    rw [hsession] at hsession'
    cases hsession'
    rw [hstorage] at hb hname
    cases hb
    obtain ⟨hid, hsame, -, hrow⟩ := username_spec hname
    have hstored : ∀ name, stored r session uri name = some (jid,
        r.sendCommand 0 (lastPart uri) ("set_oauth2_code " ++ r.var "code" ++ " " ++ r.var "state")) := by
      intro name
      unfold stored
      rw [if_pos huri]
      dsimp only
      rw [hstart, hwords]
    unfold recordIn
    rw [hid, Option.bind_eq_bind, Option.bind_some, hstored]
    exact hsame.next_update hrow _ _ _
  · rename_i hnot
    cases hs
    have hnone : ∀ name, stored r session uri name = none := by
      intro name
      unfold stored
      rw [if_pos huri]
      dsimp only
      split
      · rename_i first second jid hstart hwords
        exact absurd hwords (hnot first second jid hstart)
      · rfl
    have hrecord : recordIn (createBackend c open_ kind) r session s.db uri = none := by
      unfold recordIn
      simp only [hnone, Option.bind_eq_bind, Option.bind_none, Option.bind_fun_none]
    rw [hrecord]
    exact (SameNames.refl _).next

theorem recordIn_eq_none {b : Storage.Backend} (hoauth2 : startsWith "/oauth2" uri = false)
    (hregister : apiOf uri ≠ .register) (hunregister : apiOf uri ≠ .unregister) :
    recordIn b r session db uri = none := by
  have hnone : ∀ name, stored r session uri name = none := by
    intro name
    simp only [stored, hoauth2, Bool.false_eq_true, if_false]
  unfold recordIn
  simp only [hnone, Option.bind_eq_bind, Option.bind_none, Option.bind_fun_none]

theorem removedIn_eq_none {b : Storage.Backend} (h : apiOf uri ≠ .usersRemove) :
    removedIn b r session db uri = none := if_neg fun hremove => h hremove.1

theorem names_usersAdd (h : serveUsersAdd (some (createBackend c open_ kind)) r db = some (db', effects)) :
    SameNames db db' := by
  unfold serveUsersAdd at h
  dsimp only at h
  split at h
  · cases h
    exact .refl _
  · split at h
    · cases h
    · cases h
      exact .refl _
    · cases h
      exact fun id instance_ => storedName_setUser r.account

theorem next_usersRemove (hapi : apiOf uri = .usersRemove) (hoauth2 : startsWith "/oauth2" uri = false)
    (h : serveUsersRemove (some (createBackend c open_ kind)) r session db uri = some (db', effects)) :
    Next (kind.columns open_) db db' (recordIn (createBackend c open_ kind) r session db uri)
      (removedIn (createBackend c open_ kind) r session db uri) := by
  rw [recordIn_eq_none hoauth2 (by simp [hapi]) (by simp [hapi])]
  unfold removedIn
  rcases allowOnlyAdmin_cases h with ⟨hadmin, houtcome⟩ | ⟨hadmin, rfl⟩
  · obtain ⟨id, hid, houtcome⟩ := Option.bind_eq_some_iff.mp houtcome
    cases houtcome
    rw [if_pos ⟨hapi, hadmin⟩, hid]
    intro _ id' instance_
    rw [storedName_removeUser]
    simp only [Option.some_inj]
  · rw [if_neg fun hremove => Bool.eq_false_iff.mp hadmin hremove.2]
    exact (SameNames.refl _).next

/-- The calls of the API. -/
theorem next_handleRequest (hoauth2 : startsWith "/oauth2" uri = false)
    (h : handleRequest (some (createBackend c open_ kind)) r (some session) db uri = some (db', effects)) :
    Next (kind.columns open_) db db' (recordIn (createBackend c open_ kind) r session db uri)
      (removedIn (createBackend c open_ kind) r session db uri) := by
  have hquiet : apiOf uri ∉ [.register, .unregister, .usersRemove] → SameNames db db' →
      Next (kind.columns open_) db db' (recordIn (createBackend c open_ kind) r session db uri)
        (removedIn (createBackend c open_ kind) r session db uri) := by
    intro hnot hsame
    simp only [List.mem_cons, List.not_mem_nil, or_false, not_or] at hnot
    obtain ⟨hregister, hunregister, hremove⟩ := hnot
    rw [recordIn_eq_none hoauth2 hregister hunregister, removedIn_eq_none hremove]
    exact hsame.next
  cases hapi : apiOf uri with
  | start | stop | users =>
    simp only [handleRequest, hapi, Option.bind_eq_bind, Option.bind_some] at h
    refine hquiet (by simp [hapi]) ?_
    rcases allowOnlyAdmin_cases h with ⟨-, houtcome⟩ | ⟨-, rfl⟩
    · cases houtcome
      exact .refl _
    · exact .refl _
  | unregister =>
    simp only [handleRequest, hapi, Option.bind_eq_bind, Option.bind_some] at h
    rw [removedIn_eq_none (by simp [hapi])]
    exact next_unregister hapi hoauth2 h
  | register =>
    simp only [handleRequest, hapi, Option.bind_eq_bind, Option.bind_some] at h
    rw [removedIn_eq_none (by simp [hapi])]
    exact next_register hapi hoauth2 h
  | commands =>
    simp only [handleRequest, hapi, Option.bind_eq_bind, Option.bind_some] at h
    obtain ⟨⟨id, db₁, name⟩, hname, h⟩ := Option.bind_eq_some_iff.mp h
    obtain ⟨cmds, -, h⟩ := Option.bind_eq_some_iff.mp h
    cases h
    exact hquiet (by simp [hapi]) (username_spec hname).2.1
  | variables_ =>
    simp only [handleRequest, hapi, Option.bind_eq_bind, Option.bind_some] at h
    obtain ⟨⟨id, db₁, name⟩, hname, h⟩ := Option.bind_eq_some_iff.mp h
    obtain ⟨vars, -, h⟩ := Option.bind_eq_some_iff.mp h
    cases h
    exact hquiet (by simp [hapi]) (username_spec hname).2.1
  | commandArgs =>
    simp only [handleRequest, hapi, Option.bind_eq_bind, Option.bind_some] at h
    rw [names_commandArgs h] at hquiet ⊢
    exact hquiet (by simp [hapi]) (.refl _)
  | execute =>
    simp only [handleRequest, hapi, Option.bind_eq_bind, Option.bind_some] at h
    exact hquiet (by simp [hapi]) (names_execute h)
  | usersRemove =>
    simp only [handleRequest, hapi, Option.bind_eq_bind, Option.bind_some] at h
    exact next_usersRemove hapi hoauth2 h
  | usersAdd =>
    simp only [handleRequest, hapi] at h
    exact hquiet (by simp [hapi]) (names_usersAdd h)
  | instances =>
    simp only [handleRequest, hapi, Option.bind_eq_bind, Option.bind_some] at h
    obtain ⟨⟨db₁, effects₁, entries⟩, hlist, h⟩ := Option.bind_eq_some_iff.mp h
    cases h
    exact hquiet (by simp [hapi]) (names_listInstances hlist)
  | unknown =>
    simp only [handleRequest, hapi] at h
    cases h
    exact hquiet (by simp [hapi]) (.refl _)

end Handlers

/-! ## Runs -/

section Runs

variable {c : Storage.Config} {open_ : MySQL.Undefined} {kind : Storage.Kind} {env : Env} {s s' : State}
  {r : Request} {tr : List (State × Request)} {uri : String}

theorem served_of_public (huri : State.stripped env r.uri = some uri) (hpublic : uri ∈ State.publicURIs) :
    served r env s = none := by
  unfold served
  simp only [huri, Option.bind_eq_bind, Option.bind_some, if_pos hpublic, Option.bind_fun_none]

theorem served_of_not_public {b : Storage.Backend} (hstorage : env.storage = some b)
    (huri : State.stripped env r.uri = some uri) (hpublic : uri ∉ State.publicURIs) :
    served r env s = (s.getSession r).map fun session => (b, uri, session) := by
  unfold served
  simp only [hstorage, huri, Option.bind_eq_bind, Option.bind_some, if_neg hpublic]
  cases s.getSession r <;> rfl

/-- What everyone may ask for changes no name. -/
theorem names_public (hstorage : env.storage = some (createBackend c open_ kind))
    (hpublic : uri ∈ State.publicURIs) (hs : s.serve env r uri = some s') : SameNames s.db s'.db := by
  unfold State.serve at hs
  by_cases hauthorize : uri = "/authorize"
  · rw [if_pos hauthorize] at hs
    obtain ⟨accepted, -, hs⟩ := Option.bind_eq_some_iff.mp hs
    cases accepted <;> (cases hs; exact .refl _)
  · have hall : ∀ uri ∈ State.publicURIs, uri ≠ "/logout" ∧ startsWith "/oauth2" uri = false ∧
        (startsWith "/api/v1/" uri = true → apiOf uri = .usersAdd) := by decide +kernel
    obtain ⟨hlogout, hoauth2, hadd⟩ := hall uri hpublic
    rw [if_neg hauthorize, if_neg hlogout, hoauth2, if_neg Bool.false_ne_true] at hs
    by_cases hapi : startsWith "/api/v1/" uri = true
    · rw [if_pos hapi] at hs
      obtain ⟨⟨db, effects⟩, hserved, hs⟩ := Option.bind_eq_some_iff.mp hs
      cases hs
      rw [hstorage] at hserved
      simp only [handleRequest, hadd hapi] at hserved
      exact names_usersAdd hserved
    · rw [if_neg hapi] at hs
      cases hs
      unfold State.serveFile
      split <;> exact .refl _

theorem next_serve (hstorage : env.storage = some (createBackend c open_ kind)) {session : Session}
    (hsession : s.getSession r = some session) (hpublic : uri ∉ State.publicURIs)
    (hs : s.serve env r uri = some s') :
    Next (kind.columns open_) s.db s'.db (recordIn (createBackend c open_ kind) r session s.db uri)
      (removedIn (createBackend c open_ kind) r session s.db uri) := by
  have hother : startsWith "/oauth2" uri = false → apiOf uri = .unknown → s'.db = s.db →
      Next (kind.columns open_) s.db s'.db (recordIn (createBackend c open_ kind) r session s.db uri)
        (removedIn (createBackend c open_ kind) r session s.db uri) := by
    intro hoauth2 hapi hdb
    rw [recordIn_eq_none hoauth2 (by simp [hapi]) (by simp [hapi]), removedIn_eq_none (by simp [hapi]), hdb]
    exact (SameNames.refl _).next
  unfold State.serve at hs
  by_cases hauthorize : uri = "/authorize"
  · rw [hauthorize] at hpublic
    exact absurd (by decide) hpublic
  by_cases hlogout : uri = "/logout"
  · rw [if_neg hauthorize, if_pos hlogout] at hs
    obtain ⟨session', -, hs⟩ := Option.bind_eq_some_iff.mp hs
    cases hs
    rw [hlogout] at hother ⊢
    exact hother (by decide) (by decide +kernel) rfl
  by_cases hoauth2 : startsWith "/oauth2" uri = true
  · rw [if_neg hauthorize, if_neg hlogout, if_pos hoauth2] at hs
    have hunknown : apiOf uri = .unknown := apiOf_eq_unknown (not_startsWith hoauth2 (by decide))
    rw [removedIn_eq_none (by simp [hunknown])]
    exact next_oauth2 hstorage hsession hoauth2 hs
  rw [if_neg hauthorize, if_neg hlogout, if_neg hoauth2] at hs
  have hno : startsWith "/oauth2" uri = false := Bool.eq_false_iff.mpr hoauth2
  by_cases hapi : startsWith "/api/v1/" uri = true
  · rw [if_pos hapi, hstorage, hsession] at hs
    obtain ⟨⟨db, effects⟩, hserved, hs⟩ := Option.bind_eq_some_iff.mp hs
    cases hs
    exact next_handleRequest hno hserved
  · rw [if_neg hapi] at hs
    cases hs
    refine hother hno (apiOf_eq_unknown (Bool.eq_false_iff.mpr hapi)) ?_
    unfold State.serveFile
    split <;> rfl

/-- The step lemma for the names. -/
theorem next_of_step (hstorage : env.storage = some (createBackend c open_ kind)) (hgenuine : Genuine env s)
    (hs : s.eventHandler env r = some s') : Next (kind.columns open_) s.db s'.db (recordOf r env s) (removedBy r env s) := by
  obtain ⟨uri, huri, hcases⟩ := step_cases hs
  by_cases hpublic : uri ∈ State.publicURIs
  · rw [isAuthorized_of_public hpublic] at hcases
    obtain ⟨hnone, -⟩ | ⟨sessions, hsome, hs⟩ := hcases
    · cases hnone
    · cases hsome
      unfold recordOf removedBy
      rw [served_of_public huri hpublic]
      exact (names_public hstorage hpublic hs).next
  · rw [isAuthorized_of_not_public hgenuine hpublic] at hcases
    unfold recordOf removedBy
    rw [served_of_not_public hstorage huri hpublic]
    cases hsession : s.getSession r with
    | none =>
      rw [hsession] at hcases
      obtain ⟨-, rfl⟩ | ⟨sessions, hsome, -⟩ := hcases
      · exact (SameNames.refl _).next
      · cases hsome
    | some session =>
      rw [hsession] at hcases
      obtain ⟨hnone, -⟩ | ⟨sessions, hsome, hs⟩ := hcases
      · cases hnone
      · cases hsome
        have hprolonged := getSession_prolonged s r session
        have hnext := next_serve hstorage hprolonged hpublic hs
        exact hnext

/-- After every run in which the names fit, the name under which a user is registered is the one that
was stored last, and the name of a registration is stored whenever there is an answer, also if the answer
is an error. -/
theorem names_of_run (hstorage : env.storage = some (createBackend c open_ kind)) (h : (machine env).Run tr s)
    (hfits : ∀ p ∈ tr, ∀ record ∈ recordOf p.2 env p.1, record.Fits (kind.columns open_)) (id : Int) (instance_ : String) :
    storedName s.db id instance_ = (lastRecord env id instance_ tr).elim "" Record.name := by
  induction h with
  | init hinit =>
    unfold storedName Db.userSetting
    rw [hinit.2]
    rfl
  | @step tr s s' r hrun hs ih =>
    have hfit : ∀ record ∈ recordOf r env s, record.Fits (kind.columns open_) :=
      hfits (s, r) List.mem_cons_self
    have hnext := next_of_step hstorage (genuine_of_run hrun) hs hfit id instance_
    have ih := ih fun p hp => hfits p (List.mem_cons_of_mem _ hp)
    rw [hnext, lastRecord]
    cases recordOf r env s with
    | none =>
      dsimp only
      by_cases hremoved : removedBy r env s = some id
      · rw [if_pos hremoved, if_pos hremoved]
        rfl
      · rw [if_neg hremoved, if_neg hremoved, ih]
    | some record =>
      dsimp only
      by_cases hkey : record.id = id ∧ record.instance_ = instance_
      · rw [if_pos hkey, if_pos hkey]
        rfl
      · rw [if_neg hkey, if_neg hkey, ih]

/-- For someone without rights an instance is asked to unregister the name that was stored last for him,
if there is one, whoever is registered under it there. -/
theorem unregistered_of_run (hstorage : env.storage = some (createBackend c open_ kind))
    (h : (machine env).Run tr s)
    (hfits : ∀ p ∈ tr, ∀ record ∈ recordOf p.2 env p.1, record.Fits (kind.columns open_))
    (huri : State.stripped env r.uri = some uri) (hapi : apiOf uri = .unregister)
    {session : Session} (hsession : s.getSession r = some session) (hadmin : session.admin = false) {id : Int}
    (hid : SlackRegistration.getUserId (createBackend c open_ kind) session.user r.junk s.db = some id) :
    ∃ s' effects, s.eventHandler env r = some s' ∧ s'.done = (r, effects) :: s.done ∧
      ∀ instance_ query, (∃ answer, .command instance_ query answer ∈ effects) ↔
        ∃ record, lastRecord env id (lastPart uri) tr = some record ∧ record.name ≠ "" ∧
          instance_ = lastPart uri ∧ query = "unregister " ++ record.name := by
  have hknown : apiOf uri ≠ .unknown := by simp [hapi]
  have hadd : apiOf uri ≠ .usersAdd := by simp [hapi]
  have hprolonged : (prolonged r session).admin = false := hadmin
  obtain ⟨db', effects, hserved, hcommands⟩ : ∃ db' effects, serveInstancesUnregister
      (some (createBackend c open_ kind)) r (prolonged r session) s.db uri = some (db', effects) ∧ _ :=
    serveInstancesUnregister_commands hprolonged hid
  have hevent := eventHandler_api (genuine_of_run h) huri (not_public_of_api hknown hadd)
    (startsWith_of_api hknown) hsession
  rw [hstorage] at hevent
  simp only [handleRequest, hapi, Option.bind_eq_bind, Option.bind_some, hserved, Option.map_some] at hevent
  refine ⟨_, effects, hevent, rfl, fun instance_ query => (hcommands instance_ query).trans ?_⟩
  rw [names_of_run hstorage h hfits id (lastPart uri)]
  cases lastRecord env id (lastPart uri) tr with
  | none => simp
  | some record => simp

end Runs

end Spectrum.Manager
