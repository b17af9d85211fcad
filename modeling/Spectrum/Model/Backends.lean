import Spectrum.Model.World

/-!
# Backends

The part of `NetworkPluginServer` that assigns users to backends: the search for a free
backend, the queue of waiting users, the handlers connected to the signals of a user, the
first PONG, and the move of idle users to a long-running backend.
-/

namespace Spectrum.NetworkPluginServer

open World

/-- Write a message to the connection of a backend. -/
def send (b : BackendId) (m : ToBackend) (w : World) : World :=
  if b ∈ w.clients then w.emit (.send b m) else { w with fault := true }

/-! ## The search for a free backend -/

def loginPostponed (w : World) : Bool :=
  w.cfg.loginDelay != 0 && decide (w.now - w.lastLogin < w.cfg.loginDelay)

def isFree (acceptUsers longRun : Bool) (w : World) (b : BackendId) : Bool :=
  let c := w.backends b
  !c.willDie && c.acceptUsers == acceptUsers &&
    decide ((c.users.length : Int) < w.cfg.usersPerBackend) && c.connection &&
    c.longRun == longRun

def findFree (acceptUsers longRun : Bool) (w : World) : Option BackendId :=
  w.clients.find? (isFree acceptUsers longRun w)

/-- The end of `getFreeClient` when no backend was found. -/
def spawn (longRun : Bool) (w : World) : World :=
  if w.startingBackend then w
  else { w with isNextLongRun := longRun, startingBackend := true }.emit (.exec longRun)

/-- Without `reuse_old_backends` a backend that gets its last user accepts no more. -/
def closeIfFull (check : Bool) (c : BackendId) (w : World) : World :=
  if !w.cfg.reuseOldBackends && !check &&
      decide (((w.backends c).users.length : Int) + 1 ≥ w.cfg.usersPerBackend) then
    w.modBackend c fun b => { b with acceptUsers := false }
  else w

def getFreeClient (acceptUsers longRun check : Bool) (w : World) : Option BackendId × World :=
  if loginPostponed w then (none, { w with loginTimer := true })
  else
    let w := if check then w else { w with lastLogin := w.now }
    match findFree acceptUsers longRun w with
    | some c => (some c, closeIfFull check c w)
    | none => (none, spawn longRun w)

/-! ## Handlers of the signals of a user -/

/-- `user->setData(c); c->users.push_back(user)`. -/
def attach (how : Assignment) (u : UserId) (c : BackendId) (w : World) : World :=
  ((w.setData u (some c)).emit (.assign how u c (w.backends c))).modBackend c fun b =>
    { b with users := b.users ++ [u] }

def handleUserCreated (u : UserId) (w : World) : World :=
  match getFreeClient true false false w with
  | (none, w) => { w with waitingUsers := w.waitingUsers ++ [u] }
  | (some c, w) => (attach .created u c w).modUser u fun x => { x with slots := x.slots + 1 }

/-- The message the handlers of a user send to his backend, if he has one. -/
def sendToBackendOf (u : UserId) (m : ToBackend) (w : World) : World :=
  match (w.user u).data with
  | none => w
  | some c => send c m w

def handleUserReadyToConnect (u : UserId) (w : World) : World :=
  let x := w.user u
  let w := sendToBackendOf u (.login x.jid.toBare x.info.uin x.info.password) w
  if w.cfg.sendBuddiesOnLogin then sendToBackendOf u (.buddies x.jid.toBare) w else w

/-- The status a presence stands for. -/
def statusOf (p : Presence) : StatusType :=
  if p.invisible then .invisible else .ofShow p.getShow

def handleUserPresenceChanged (u : UserId) (p : Presence) (w : World) : World :=
  if p.getShow = .none then w
  else sendToBackendOf u (.statusChanged (w.user u).jid.toBare (statusOf p) p.status) w

def handleRoomJoined (u : UserId) (room nickname password : String) (w : World) : World :=
  sendToBackendOf u (.joinRoom (w.user u).jid.toBare nickname room password) w

def handleRoomLeft (u : UserId) (room : String) (w : World) : World :=
  sendToBackendOf u (.leaveRoom (w.user u).jid.toBare room) w

/-- `c->users.remove(user)`. -/
def removeFrom (u : UserId) (c : BackendId) (w : World) : World :=
  w.modBackend c fun b => { b with users := b.users.filter fun v => v ≠ u }

/-- The last statement of `handleUserDestroyed`. -/
def dieIfEmpty (c : BackendId) (w : World) : World :=
  if (w.backends c).users = [] ∧ w.cfg.usersPerBackend = 1 then
    w.modBackend c fun b => { b with willDie := true }
  else w

/-- `handleUserDestroyed`. The handlers are disconnected and the backend, if there is one,
is told; `getData` keeps its value. -/
def handleUserDestroyed (u : UserId) (w : World) : World :=
  let w := { w with waitingUsers := w.waitingUsers.filter fun v => v ≠ u }
  let w := w.modUser u fun x => { x with slots := 0 }
  match (w.user u).data with
  | none => w
  | some c =>
    let w := send c (.logout (w.user u).jid.toBare (w.user u).info.uin) w
    dieIfEmpty c (removeFrom u c w)

/-! ## The queue of waiting users -/

/-- The loop of `connectWaitingUsers`. -/
def drain : Nat → World → World
  | 0, w => w
  | n + 1, w =>
    match w.waitingUsers with
    | [] => w
    | u :: rest =>
      match getFreeClient true false true w with
      | (none, w) => w
      | (some _, w) =>
        let w := handleUserCreated u { w with waitingUsers := rest }
        drain n (if (w.user u).readyForConnect then handleUserReadyToConnect u w else w)

/-- `connectWaitingUsers`. A user is taken from the queue only after a successful check, so
the loop runs at most once for each user that is waiting. -/
def connectWaitingUsers (w : World) : World :=
  drain w.waitingUsers.length (w.emit .connectWaitingUsers)

/-! ## Connections and PONGs -/

def sendPing (b : BackendId) (w : World) : World :=
  if (w.backends b).connection then
    (send b .ping w).modBackend b fun c => { c with pongReceived := 0 }
  else w

def handleNewClientConnection (w : World) : World :=
  let b := w.nextBackend
  let w := { w with
    backends := Function.update w.backends b
      { connection := true, acceptUsers := !w.isNextLongRun, longRun := w.isNextLongRun }
    nextBackend := b + 1
    startingBackend := false
    clients := b :: w.clients }
  (sendPing b w).modBackend b fun c => { c with pongReceived := -1 }

/-- `m_component->start()` at the first PONG of the first backend. -/
def startComponent (w : World) : World :=
  if w.firstPong then { w with firstPong := false }.emit .componentStart else w

def handlePongReceived (b : BackendId) (w : World) : World :=
  let w := w.emit (.pong b)
  let w :=
    if (w.backends b).pongReceived = -1 then
      connectWaitingUsers (startComponent (w.modBackend b fun c => { c with willDie := false }))
    else w
  w.modBackend b fun c => { c with pongReceived := 1 }

/-- The start of `handleDataRead` for every message: data counts as an answer to the PING. -/
def noteData (b : BackendId) (w : World) : World :=
  if (w.backends b).pongReceived = 0 then
    w.modBackend b fun c => { c with pongReceived := 1 }
  else w

def handleStatsPayload (b : BackendId) (res : Nat) (id : String) (w : World) : World :=
  w.modBackend b fun c => { c with res := res, id := id }

def loginDelayFinished (w : World) : World :=
  connectWaitingUsers { w with loginTimer := false }

/-- The loop of `collectBackend`: the first backend with the most memory, if it is not 0. -/
def biggest (w : World) : Option BackendId :=
  (w.clients.foldl (fun (best : Nat × Option BackendId) b =>
    if (w.backends b).res > best.1 then ((w.backends b).res, some b) else best) (0, none)).2

def collectBackend (w : World) : World :=
  match biggest w with
  | none => w
  | some b => w.modBackend b fun c => { c with acceptUsers := false }

/-! ## Moving idle users -/

/-- `moveToLongRunBackend`, with its return value. -/
def moveToLongRunBackend (u : UserId) (w : World) : Bool × World :=
  match (w.user u).data with
  | none => (true, w)
  | some old =>
    if old ∉ w.clients then (true, { w with fault := true })
    else if (w.backends old).longRun then (true, w)
    else
      match getFreeClient false true false w with
      | (none, w) => (false, w)
      | (some c, w) =>
        let w := w.modUser u fun x => { x with ignoreDisconnect := true }
        (true, handleUserReadyToConnect u (attach .moved u c (removeFrom u old w)))

def idleUsersOf (w : World) (b : BackendId) : List UserId :=
  if (w.backends b).longRun then []
  else (w.backends b).users.filter fun u =>
    decide (w.now - (w.user u).lastActivity > w.cfg.idleReconnectTime)

def usersToMove (w : World) : List UserId := w.clients.flatMap (idleUsersOf w)

/-- Move users until one of them finds no long-running backend. -/
def moveUsers : List UserId → World → World
  | [], w => w
  | u :: us, w =>
    match moveToLongRunBackend u w with
    | (true, w) => moveUsers us w
    | (false, w) => w

/-- The first part of `pingTimeout`. -/
def moveIdleUsers (w : World) : World :=
  if w.cfg.idleReconnectTime = 0 then w else moveUsers (usersToMove w) w

end Spectrum.NetworkPluginServer
