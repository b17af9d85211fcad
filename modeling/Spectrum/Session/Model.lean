import Spectrum.Model.Stanza

/-!
# The server-mode client session

`ServerFromClientSession`: one XMPP stream of a client that connects to the transport
in server mode. Every operation returns the new session together with what it did, in
order (`Output`): the elements written to the peer, the calls to the user registry and
the signals to the listeners. `Swift::Session` itself is outside the repository: of
`finishSession` it is recorded that it was called, and the session is marked as finishing.
When the connection then reports the end of the stream is an assumption on it (`Ending`).
-/

namespace Spectrum.Session

/-- What a session does to its peer, to the registry and to its listeners. -/
inductive Output
  | header (fromJid : Jid)
  | features (startTls plain external bind session : Bool)
  | authSuccess
  | authFailure
  | streamError (error : String)
  | tlsProceed
  | tlsConnect
  | nullTlsLayer
  | resetParser
  | bindResult (jid : Jid) (id : String)
  | sessionResult (toJid : Jid) (id : String)
  | isValidUserPassword (user : Jid) (password : String)
  | stopLogin (user : Jid)
  | onSessionStarted
  | onElementReceived (e : Element)
  | finishSession
  deriving DecidableEq, Repr

end Spectrum.Session

namespace Spectrum

/-- When a connection reports the end of a stream that `finishSession` ends: in the call, or
later through the event loop. -/
inductive Session.Ending
  | atOnce
  | later
  deriving DecidableEq, Repr

structure Session where
  authenticated : Bool := false
  initialized : Bool := false
  allowSaslExternal : Bool := false
  user : String := ""
  tlsLayer : Bool := false
  tlsConnected : Bool := false
  localJid : Jid := Jid.empty
  remoteJid : Jid := Jid.empty
  finishing : Bool := false
  deriving DecidableEq, Repr

namespace Session

/-- `getBareJID`, the JID under which the session asks the registry. -/
def getBareJid (prep : StringPrep) (s : Session) : Jid :=
  prep.bareJid s.user s.localJid.domain

def handlePasswordValid (s : Session) : Session × List Output :=
  if s.initialized then (s, [])
  else ({ s with authenticated := true }, [.authSuccess, .resetParser])

def handlePasswordInvalid (error : String) (s : Session) : Session × List Output :=
  if s.initialized then (s, [])
  else
    ({ s with finishing := true },
      [.authFailure] ++ (if error = "" then [] else [.streamError error]) ++ [.finishSession])

/-- `handleElement`. The argument `uuid` is the resource drawn with `rand` for a bind. -/
def handleElement (prep : StringPrep) (uuid : String) (e : Element) (s : Session) :
    Session × List Output :=
  if s.initialized then (s, [.onElementReceived e])
  else
    match e with
    | .authRequest mechanism message =>
      if mechanism = "PLAIN" ∨ (s.allowSaslExternal = true ∧ mechanism = "EXTERNAL") then
        if mechanism = "EXTERNAL" then
          ({ s with authenticated := true }, [.authSuccess, .resetParser])
        else
          let plain := message.getD ⟨"", ""⟩
          ({ s with user := plain.authenticationID },
            [.isValidUserPassword (prep.bareJid plain.authenticationID s.localJid.domain)
              plain.password])
      else ({ s with finishing := true }, [.authFailure, .finishSession])
    | .startTls =>
      -- the layer is moved into the stream stack; without one the pointer is null
      if s.tlsLayer then
        ({ s with tlsLayer := false }, [.tlsProceed, .tlsConnect, .resetParser])
      else (s, [.tlsProceed, .nullTlsLayer])
    | .iq .resourceBind id =>
      let jid := prep.fullJid s.user s.localJid.domain uuid
      ({ s with remoteJid := jid }, [.bindResult jid id])
    | .iq .startSession id =>
      ({ s with initialized := true }, [.sessionResult s.remoteJid id, .onSessionStarted])
    | .iq .other _ => (s, [])
    | .presence _ => (s, [])
    | .message => (s, [])
    | .other => (s, [])

def handleStreamStart (toJid : Jid) (s : Session) : Session × List Output :=
  let features : Output :=
    if s.authenticated then .features false false false true true
    else .features (s.tlsLayer && !s.tlsConnected) true s.allowSaslExternal false false
  ({ s with localJid := toJid }, [.header toJid, features])

def handleTlsConnected (s : Session) : Session × List Output :=
  ({ s with tlsConnected := true }, [])

def handleSessionFinished (prep : StringPrep) (s : Session) : Session × List Output :=
  (s, [.stopLogin (s.getBareJid prep)])

end Session

end Spectrum
