import RoLauncher.Tables.Table

/-!
# The session supervisor (`ro-sessiond/src/supervisor.rs`)

One process owns the prefix of a session: it launches controllers on request,
reaps every child the kernel gives it (its own and the orphans it adopts) and
reports what happened on its standard output.

The supervisor is one thread. What it meets outside is an argument of each
function: how a spec validates, which process a fork gives, what `waitpid`
returns. The kernel's side is the list of children that are not reaped yet. A
writer that fails once fails from then on, so what is emitted is always the
beginning of `events`.
-/

namespace RoLauncher.Session

open Tables

inductive SessionPhase where
  | ready
  | stopping
  | stopped
  deriving DecidableEq, Repr

/-- The requests behind the handshake. What a spec comes to is in `Outcome`. -/
inductive SessionRequest where
  | hello
  | launch (requestId : String)
  | shutdown (requestId : String) (graceMs : Nat)

inductive SessionEvent where
  | launchAccepted (requestId : String) (controllerPid : UInt32) (controllerStartTime : UInt64)
  | shutdownAccepted (requestId : String)
  | controllerExited (requestId : String) (controllerPid : UInt32) (exitCode signal : Option Int)
  | error (requestId : Option String) (stage : String) (errno : Option Int) (message : String)
  | stopped
  deriving DecidableEq, Repr

structure ControllerRecord where
  controllerPid : UInt32
  isShutdownController : Bool
  deriving DecidableEq, Repr

structure LaunchControllerError where
  message : String
  errno : Option Int

/-- What a request finds: how its spec validates (a shutdown validates it twice),
the fork, the start time of the new process, and the time. -/
structure Outcome where
  validated : Except String Unit
  validatedAgain : Except String Unit
  forked : Except LaunchControllerError UInt32
  startTime : Option UInt64
  now : Nat

/-- What the kernel does during a drain: it hands over an orphan, or `waitpid`
returns. -/
inductive Reaping where
  | adopted (pid : UInt32)
  | reaped (pid : UInt32) (exitCode signal : Option Int)
  | nothing
  | echild

def MAX_IN_FLIGHT_LAUNCHES : Nat := 32

def clampGraceMs (graceMs : Nat) : Nat := max 1000 (min graceMs 10000)

structure Supervisor where
  phase : SessionPhase
  requestIds : List String
  inFlight : Nat
  pidToRequest : Table UInt32 String
  controllers : Table String ControllerRecord
  shutdownRequestId : Option String
  shutdownDeadline : Option Nat
  shutdownGraceMs : Nat
  forcedShutdown : Bool
  termSentAt : Option Nat
  killSent : Bool
  lastWaitEchild : Bool
  /-- The processes that `waitpid` can still return. -/
  children : List UInt32
  events : List SessionEvent

namespace Supervisor

def new : Supervisor where
  phase := .ready
  requestIds := []
  inFlight := 0
  pidToRequest := ∅
  controllers := ∅
  shutdownRequestId := none
  shutdownDeadline := none
  shutdownGraceMs := 2000
  forcedShutdown := false
  termSentAt := none
  killSent := false
  lastWaitEchild := false
  children := []
  events := []

def emit (event : SessionEvent) (sup : Supervisor) : Supervisor :=
  { sup with events := sup.events ++ [event] }

def emitValidationError (requestId : Option String) (message : String) (sup : Supervisor) :
    Supervisor := sup.emit (.error requestId "validation" none message)

def emitLaunchError (requestId : Option String) (err : LaunchControllerError) (sup : Supervisor) :
    Supervisor := sup.emit (.error requestId "launch" err.errno err.message)

def emitStageError (requestId : Option String) (stage message : String) (errno : Option Int)
    (sup : Supervisor) : Supervisor := sup.emit (.error requestId stage errno message)

def beginForcedShutdown (now : Nat) (sup : Supervisor) : Supervisor :=
  if sup.phase = .stopped then sup
  else
    { sup with
      forcedShutdown := true
      phase := .stopping
      shutdownDeadline := some (sup.shutdownDeadline.getD (now + 2000)) }

/-- A fork that succeeded: the kernel has one more child, and `on_spawn` records its pid. -/
def spawned (pid : UInt32) (requestId : String) (isShutdownController : Bool) (sup : Supervisor) :
    Supervisor :=
  { sup with
    children := pid :: sup.children
    pidToRequest := sup.pidToRequest.insert pid requestId
    controllers := sup.controllers.insert requestId ⟨pid, isShutdownController⟩ }

def handleLaunch (requestId : String) (outcome : Outcome) (sup : Supervisor) :
    Except String Unit × Supervisor :=
  if sup.phase ≠ .ready then
    (.ok (), sup.emitValidationError (some requestId) "Launch rejected while not Ready")
  else if requestId ∈ sup.requestIds then
    (.ok (), sup.emitValidationError (some requestId) "duplicate request_id")
  else
    let sup := { sup with requestIds := requestId :: sup.requestIds }
    if MAX_IN_FLIGHT_LAUNCHES ≤ sup.inFlight then
      (.ok (), sup.emitValidationError (some requestId) "too many in-flight launches")
    else
      match outcome.validated with
      | .error message => (.ok (), sup.emitValidationError (some requestId) message)
      | .ok () =>
        match outcome.forked with
        | .error err => (.ok (), sup.emitLaunchError (some requestId) err)
        | .ok controllerPid =>
          let sup := sup.spawned controllerPid requestId false
          let sup := { sup with inFlight := sup.inFlight + 1 }
          match outcome.startTime with
          | none => (.error "failed to capture unreaped controller identity", sup)
          | some controllerStartTime =>
            (.ok (), sup.emit (.launchAccepted requestId controllerPid controllerStartTime))

def handleShutdown (requestId : String) (graceMs : Nat) (outcome : Outcome) (sup : Supervisor) :
    Except String Unit × Supervisor :=
  if sup.phase = .stopping then
    (.ok (), sup.emitValidationError (some requestId) "second Shutdown rejected")
  else if sup.phase ≠ .ready then
    (.ok (), sup.emitValidationError (some requestId) "Shutdown rejected")
  else if requestId ∈ sup.requestIds then
    (.ok (), sup.emitValidationError (some requestId) "duplicate request_id")
  else
    let sup := { sup with
      requestIds := requestId :: sup.requestIds
      phase := .stopping
      shutdownRequestId := some requestId
      shutdownGraceMs := clampGraceMs graceMs }
    match outcome.validated with
    | .error message =>
      (.ok (), (sup.emitStageError (some requestId) "shutdown" message none).beginForcedShutdown
        outcome.now)
    | .ok () =>
      match outcome.validatedAgain with
      | .error message => (.error message, sup)
      | .ok () =>
        match outcome.forked with
        | .ok controllerPid =>
          let sup := sup.spawned controllerPid requestId true
          let sup := { sup with shutdownDeadline := some (outcome.now + sup.shutdownGraceMs) }
          (.ok (), sup.emit (.shutdownAccepted requestId))
        | .error err =>
          (.ok (), (sup.emitStageError (some requestId) "shutdown" err.message
            err.errno).beginForcedShutdown outcome.now)

/-- `handle_line`, on what the line parses to. -/
def handleLine (request : Except String SessionRequest) (outcome : Outcome) (sup : Supervisor) :
    Except String Unit × Supervisor :=
  match request with
  | .error e => (.error ("invalid JSON: " ++ e), sup)
  | .ok .hello =>
    (.ok (), (sup.emitValidationError none "second Hello rejected").beginForcedShutdown outcome.now)
  | .ok (.launch requestId) => sup.handleLaunch requestId outcome
  | .ok (.shutdown requestId graceMs) => sup.handleShutdown requestId graceMs outcome

/-- What the main loop does with a line. -/
def readLine (request : Except String SessionRequest) (outcome : Outcome) (sup : Supervisor) :
    Supervisor :=
  match sup.handleLine request outcome with
  | (.ok (), sup) => sup
  | (.error e, sup) => sup.emit (.error none "protocol" none ("invalid request: " ++ e))

/-- One child is reaped. -/
def reap (pid : UInt32) (exitCode signal : Option Int) (sup : Supervisor) : Supervisor :=
  let sup := { sup with lastWaitEchild := false, children := sup.children.erase pid }
  match sup.pidToRequest.lookup pid with
  | none => sup
  | some requestId =>
    let isShutdown := (sup.controllers.lookup requestId).any (·.isShutdownController)
    let sup := { sup with pidToRequest := sup.pidToRequest.erase pid }
    let sup :=
      if isShutdown then sup
      else
        { sup with inFlight := sup.inFlight - 1 }.emit
          (.controllerExited requestId pid exitCode signal)
    { sup with controllers := sup.controllers.erase requestId }

/-- `drain_reap_events`, along what the kernel does meanwhile. -/
def drainReapEvents : List Reaping → Supervisor → Supervisor
  | [], sup => sup
  | .adopted pid :: reapings, sup =>
    drainReapEvents reapings { sup with children := pid :: sup.children }
  | .reaped pid exitCode signal :: reapings, sup =>
    drainReapEvents reapings (sup.reap pid exitCode signal)
  | .nothing :: _, sup => { sup with lastWaitEchild := false }
  | .echild :: _, sup => { sup with lastWaitEchild := true }

/-- `advance_shutdown`, with its two drains and the times it looks at the clock;
the signals it sends show in what the kernel does next. -/
def advanceShutdown (before : List Reaping) (now later : Nat) (behind : List Reaping)
    (sup : Supervisor) : Supervisor :=
  if sup.phase ≠ .stopping then sup
  else
    let sup := drainReapEvents before sup
    if sup.lastWaitEchild then { sup with phase := .stopped }
    else
      let deadline := sup.shutdownDeadline.getD now
      let sup :=
        if sup.forcedShutdown ∨ deadline ≤ now then
          { sup with termSentAt := some (sup.termSentAt.getD now) }
        else sup
      let sup :=
        if sup.termSentAt.any fun termAt => termAt + 2000 ≤ later then
          { sup with killSent := true }
        else sup
      let sup := drainReapEvents behind sup
      if sup.termSentAt.isSome ∧ sup.lastWaitEchild then { sup with phase := .stopped } else sup

end Supervisor

end RoLauncher.Session
