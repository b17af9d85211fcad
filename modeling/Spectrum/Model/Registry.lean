import Spectrum.Model.World

/-!
# The user registry

`Transport::UserRegistry`: the logins of server mode that wait for the answer of a backend,
one per bare JID, each with the password and the session that made it. The calls that
start and stop a login go through `UserManager` and stand in `Spectrum.Model.Transport`.
-/

namespace Spectrum.UserRegistry

open World

/-- Call an operation of a session and record what it did. -/
def callSession (s : SessionId) (f : Session → Session × List Session.Output) (w : World) :
    World :=
  match w.session s with
  | none => { w with fault := true }
  | some x =>
    { w with
      session := Function.update w.session s (some (f x).1)
      log := ((f x).2.map (Effect.session s)).reverse ++ w.log }

def setEntry (key : Jid) (e : Option Sess) (w : World) : World :=
  { w with registry := Function.update w.registry key e }

def onPasswordValid (user : Jid) (w : World) : World :=
  match w.registry user.toBare with
  | none => w
  | some e =>
    setEntry user.toBare none
      (callSession e.session Session.handlePasswordValid
        (w.emit (.passwordValid e.session user.toBare e.password)))

def onPasswordInvalid (user : Jid) (error : String) (w : World) : World :=
  match w.registry user.toBare with
  | none => w
  | some e =>
    setEntry user.toBare none (callSession e.session (Session.handlePasswordInvalid error) w)

def getUserPassword (key : Jid) (w : World) : String :=
  match w.registry key with
  | none => ""
  | some e => e.password

def removeLater (user : Jid) (w : World) : World :=
  { w with registrySlots := w.registrySlots ++ [user], registryTimer := true }

def handleRemoveTimeout (user : Jid) (w : World) : World :=
  { onPasswordInvalid user "" { w with inRemoveLater := true } with inRemoveLater := false }

end Spectrum.UserRegistry
