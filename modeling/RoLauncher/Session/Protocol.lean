import Mathlib.Logic.Function.Basic
import Mathlib.Logic.Relation

/-!
# Exits of controllers (`runner_sessions/protocol.rs`)

The client of a supervisor shares its maps between the task that reads events,
the tasks that write requests, and the callers that ask for the exit of a
controller. Each map has its own lock, so a step is one critical section of one
lock, or one use of a oneshot channel.

Waiters of launches, of shutdowns and of the handshake are left out: no call
about exits reads them.
-/

namespace RoLauncher.Session

structure ControllerExit where
  exitCode : Option Int
  signal : Option Int
  deriving DecidableEq, Repr

structure SessionError where
  message : String
  deriving DecidableEq, Repr

/-- The receiver's side of a oneshot channel. -/
inductive Oneshot (α : Type) where
  | empty
  | sent (value : α)
  | dropped
  deriving DecidableEq, Repr

namespace Oneshot

variable {α : Type}

/-- A sender is used once, so a channel that is not empty has no sender. -/
def send (value : α) : Oneshot α → Oneshot α
  | .empty => .sent value
  | channel => channel

/-- The sender goes away unused. -/
def dropSender : Oneshot α → Oneshot α
  | .empty => .dropped
  | channel => channel

@[grind =] theorem send_eq_sent {value other : α} {channel : Oneshot α} :
    channel.send value = .sent other ↔
      channel = .sent other ∨ channel = .empty ∧ value = other := by
  cases channel <;> simp [send]

theorem send_ne_dropped {value : α} {channel : Oneshot α} (h : channel ≠ .dropped) :
    channel.send value ≠ .dropped := by
  cases channel <;> simp_all [send]

@[grind =] theorem dropSender_eq_sent {value : α} {channel : Oneshot α} :
    channel.dropSender = .sent value ↔ channel = .sent value := by
  cases channel <;> simp [dropSender]

end Oneshot

abbrev WaitResult := Except SessionError ControllerExit

/-- The two ways to ask: `try_controller_exit` and `wait_controller_exit`. -/
inductive Ask where
  | tryExit
  | wait
  deriving DecidableEq, Repr

/-- Where a call stands: each name is what it does next. -/
inductive CallPhase where
  | taking
  | checking
  | registering
  | retaking
  | rechecking
  | removing (result : WaitResult)
  | awaiting
  | received (exit : ControllerExit)
  | gone

structure ExitCall where
  ask : Ask
  request : String
  phase : CallPhase
  channel : Oneshot WaitResult

def ExitCall.start (ask : Ask) (request : String) : ExitCall where
  ask := ask
  request := request
  phase := .taking
  channel := .empty

/-- What a caller is told. -/
inductive Answer where
  | exit (value : ControllerExit)
  /-- The exit with neither code nor signal that `try_controller_exit` reports of a dead
  supervisor. -/
  | standIn
  | failed (error : SessionError)
  /-- `None` of `try_controller_exit`. -/
  | running
  deriving DecidableEq, Repr

def Answer.ofResult : WaitResult → Answer
  | .ok value => .exit value
  | .error error => .failed error

inductive Happening where
  | recorded (request : String) (exit : ControllerExit)
  | answered (request : String) (answer : Answer)
  deriving DecidableEq, Repr

/-- What the reader task still has to do for the event it dispatches. -/
inductive Dispatch where
  | removing (request : String) (result : WaitResult)
  | sending (call : Nat) (result : WaitResult)

structure SessionProtocol where
  fatal : Option SessionError
  completedExits : String → Option ControllerExit
  /-- The call whose sender the map holds. -/
  exitWaiters : String → Option Nat
  dispatching : Option Dispatch
  /-- The errors of the calls of `fail_pending_waiters` that have not drained the map. -/
  failing : List SessionError
  calls : Nat → Option ExitCall
  /-- What happened so far, the newest first. -/
  history : List Happening

/-- The next step of one of the tasks. -/
inductive ProtocolAct where
  | controllerExited (request : String) (exit : ControllerExit)
  | error (request message : String)
  | dispatch
  | setFatal (error : SessionError)
  | streamClosed (error : SessionError)
  | failPendingWaiters (error : SessionError)
  | start (call : Nat) (ask : Ask) (request : String)
  | advance (call : Nat)
  | cancel (call : Nat)

namespace SessionProtocol

def new : SessionProtocol where
  fatal := none
  completedExits := fun _ => none
  exitWaiters := fun _ => none
  dispatching := none
  failing := []
  calls := fun _ => none
  history := []

def put (call : Nat) (entry : ExitCall) (s : SessionProtocol) : SessionProtocol :=
  { s with calls := Function.update s.calls call (some entry) }

/-- A use of the channel of one call. -/
def onChannel (call : Nat) (use : Oneshot WaitResult → Oneshot WaitResult) (s : SessionProtocol) :
    SessionProtocol :=
  { s with
    calls := Function.update s.calls call
      ((s.calls call).map fun entry => { entry with channel := use entry.channel }) }

/-- The sender that the map holds for a request goes away. -/
def dropWaiter (request : String) (s : SessionProtocol) : SessionProtocol :=
  match s.exitWaiters request with
  | some call =>
    { s.onChannel call Oneshot.dropSender with
      exitWaiters := Function.update s.exitWaiters request none }
  | none => s

def forget (request : String) (s : SessionProtocol) : SessionProtocol :=
  { s with completedExits := Function.update s.completedExits request none }

/-- The call returns, and its receiver goes away. -/
def answer (call : Nat) (entry : ExitCall) (answer : Answer) (s : SessionProtocol) :
    SessionProtocol :=
  { s.put call { entry with phase := .gone } with
    history := .answered entry.request answer :: s.history }

/-- `insert` into the waiters: the sender of an earlier call of the same request goes away. -/
def register (call : Nat) (entry : ExitCall) (s : SessionProtocol) : SessionProtocol :=
  { (s.dropWaiter entry.request).put call { entry with phase := .retaking } with
    exitWaiters := Function.update s.exitWaiters entry.request (some call) }

/-- `insert` into the completed exits, before the waiter is looked up. -/
def record (request : String) (exit : ControllerExit) (s : SessionProtocol) : SessionProtocol :=
  { s with
    completedExits := Function.update s.completedExits request (some exit)
    dispatching := some (.removing request (.ok exit))
    history := .recorded request exit :: s.history }

/-- `remove` from the waiters: the reader task has the sender now. -/
def unhook (request : String) (result : WaitResult) (s : SessionProtocol) : SessionProtocol :=
  { s with
    exitWaiters := Function.update s.exitWaiters request none
    dispatching := (s.exitWaiters request).map fun call => .sending call result }

/-- `drain` of the waiters in `fail_pending_waiters`, under their lock. -/
def drain (error : SessionError) (s : SessionProtocol) : SessionProtocol :=
  { s with
    failing := s.failing.erase error
    exitWaiters := fun _ => none
    calls := fun call => (s.calls call).map fun entry =>
      if s.exitWaiters entry.request = some call then
        { entry with channel := entry.channel.send (.error error) } else entry }

/-- One step of `try_controller_exit` or of `wait_controller_exit`. -/
def advance (call : Nat) (entry : ExitCall) (s : SessionProtocol) : Option SessionProtocol :=
  match entry.phase with
  | .taking =>
    match s.completedExits entry.request with
    | some exit => some ((s.forget entry.request).answer call entry (.exit exit))
    | none => some (s.put call { entry with phase := .checking })
  | .checking =>
    match entry.ask, s.fatal with
    | .tryExit, some _ => some (s.answer call entry .standIn)
    | .tryExit, none => some (s.answer call entry .running)
    | .wait, some error => some (s.answer call entry (.failed error))
    | .wait, none => some (s.put call { entry with phase := .registering })
  | .registering =>
    some (s.register call entry)
  | .retaking =>
    match s.completedExits entry.request with
    | some exit =>
      some ((s.forget entry.request).put call { entry with phase := .removing (.ok exit) })
    | none => some (s.put call { entry with phase := .rechecking })
  | .rechecking =>
    match s.fatal with
    | some error => some (s.put call { entry with phase := .removing (.error error) })
    | none => some (s.put call { entry with phase := .awaiting })
  | .removing result =>
    some ((s.dropWaiter entry.request).answer call entry (.ofResult result))
  | .awaiting =>
    match entry.channel with
    | .empty => none
    | .sent (.ok exit) => some (s.put call { entry with phase := .received exit })
    | .sent (.error error) => some (s.answer call entry (.failed error))
    | .dropped => some (s.answer call entry (.failed ⟨"exit waiter dropped"⟩))
  | .received exit => some ((s.forget entry.request).answer call entry (.exit exit))
  | .gone => none

/-- What a step comes to, when its task can take it. -/
def step (s : SessionProtocol) : ProtocolAct → Option SessionProtocol
  | .controllerExited request exit =>
    match s.dispatching with
    | none => some (s.record request exit)
    | some _ => none
  | .error request message =>
    match s.dispatching with
    | none => some { s with dispatching := some (.removing request (.error ⟨message⟩)) }
    | some _ => none
  | .dispatch =>
    match s.dispatching with
    | none => none
    | some (.removing request result) => some (s.unhook request result)
    | some (.sending call result) =>
      some { s.onChannel call (Oneshot.send result) with dispatching := none }
  | .setFatal error =>
    some { s with fatal := s.fatal.or (some error), failing := error :: s.failing }
  | .streamClosed error => some { s with failing := error :: s.failing }
  | .failPendingWaiters error =>
    if error ∈ s.failing then some (s.drain error) else none
  | .start call ask request =>
    match s.calls call with
    | none => some (s.put call (.start ask request))
    | some _ => none
  | .advance call =>
    match s.calls call with
    | some entry => s.advance call entry
    | none => none
  | .cancel call =>
    -- A future can be dropped only where it awaits.
    match s.calls call with
    | some entry =>
      match entry.phase with
      | .awaiting => some (s.put call { entry with phase := .gone })
      | _ => none
    | none => none

/-! ## What a step does -/

/-- The phases a call passes without answering or touching a map. -/
inductive Passes (s : SessionProtocol) (entry : ExitCall) : CallPhase → Prop
  | missed : entry.phase = .taking → s.completedExits entry.request = none →
      Passes s entry .checking
  | healthy : entry.phase = .checking → entry.ask = .wait → s.fatal = none →
      Passes s entry .registering
  | missedAgain : entry.phase = .retaking → s.completedExits entry.request = none →
      Passes s entry .rechecking
  | stillHealthy : entry.phase = .rechecking → s.fatal = none → Passes s entry .awaiting
  | fatalAgain {error : SessionError} : entry.phase = .rechecking → s.fatal = some error →
      Passes s entry (.removing (.error error))
  | woken {exit : ControllerExit} : entry.phase = .awaiting → entry.channel = .sent (.ok exit) →
      Passes s entry (.received exit)

/-- The answers other than an exit, and where a call gives them. -/
inductive Tells (s : SessionProtocol) (entry : ExitCall) : Answer → Prop
  | standIn : entry.phase = .checking → entry.ask = .tryExit → s.fatal.isSome →
      Tells s entry .standIn
  | running : entry.phase = .checking → entry.ask = .tryExit → s.fatal = none →
      Tells s entry .running
  | fatal {error : SessionError} : entry.phase = .checking → entry.ask = .wait →
      s.fatal = some error → Tells s entry (.failed error)
  | woken {error : SessionError} : entry.phase = .awaiting → entry.channel = .sent (.error error) →
      Tells s entry (.failed error)
  | dropped : entry.phase = .awaiting → entry.channel = .dropped →
      Tells s entry (.failed ⟨"exit waiter dropped"⟩)

/-- Everything a step can do, with what it found. -/
inductive Moves (s : SessionProtocol) : ProtocolAct → SessionProtocol → Prop
  | recorded {request : String} {exit : ControllerExit} : s.dispatching = none →
      Moves s (.controllerExited request exit) (s.record request exit)
  | error {request message : String} : s.dispatching = none →
      Moves s (.error request message)
        { s with dispatching := some (.removing request (.error ⟨message⟩)) }
  | unhooked {request : String} {result : WaitResult} :
      s.dispatching = some (.removing request result) →
      Moves s .dispatch (s.unhook request result)
  | sent {call : Nat} {result : WaitResult} : s.dispatching = some (.sending call result) →
      Moves s .dispatch { s.onChannel call (Oneshot.send result) with dispatching := none }
  | fatal {error : SessionError} : Moves s (.setFatal error)
      { s with fatal := s.fatal.or (some error), failing := error :: s.failing }
  | closed {error : SessionError} :
      Moves s (.streamClosed error) { s with failing := error :: s.failing }
  | drained {error : SessionError} : error ∈ s.failing →
      Moves s (.failPendingWaiters error) (s.drain error)
  | started {call : Nat} {ask : Ask} {request : String} : s.calls call = none →
      Moves s (.start call ask request) (s.put call (.start ask request))
  | cancelled {call : Nat} {entry : ExitCall} : s.calls call = some entry →
      entry.phase = .awaiting → Moves s (.cancel call) (s.put call { entry with phase := .gone })
  | passed {call : Nat} {entry : ExitCall} {next : CallPhase} : s.calls call = some entry →
      Passes s entry next → Moves s (.advance call) (s.put call { entry with phase := next })
  | told {call : Nat} {entry : ExitCall} {answer : Answer} : s.calls call = some entry →
      Tells s entry answer → Moves s (.advance call) (s.answer call entry answer)
  | took {call : Nat} {entry : ExitCall} {exit : ControllerExit} : s.calls call = some entry →
      entry.phase = .taking → s.completedExits entry.request = some exit →
      Moves s (.advance call) ((s.forget entry.request).answer call entry (.exit exit))
  | registered {call : Nat} {entry : ExitCall} : s.calls call = some entry →
      entry.phase = .registering → Moves s (.advance call) (s.register call entry)
  | retook {call : Nat} {entry : ExitCall} {exit : ControllerExit} : s.calls call = some entry →
      entry.phase = .retaking → s.completedExits entry.request = some exit →
      Moves s (.advance call)
        ((s.forget entry.request).put call { entry with phase := .removing (.ok exit) })
  | removed {call : Nat} {entry : ExitCall} {result : WaitResult} : s.calls call = some entry →
      entry.phase = .removing result →
      Moves s (.advance call) ((s.dropWaiter entry.request).answer call entry (.ofResult result))
  | received {call : Nat} {entry : ExitCall} {exit : ControllerExit} : s.calls call = some entry →
      entry.phase = .received exit →
      Moves s (.advance call) ((s.forget entry.request).answer call entry (.exit exit))

theorem moves_of_advance {s s' : SessionProtocol} {call : Nat} {entry : ExitCall}
    (here : s.calls call = some entry) (step : s.advance call entry = some s') :
    Moves s (.advance call) s' := by
  unfold advance at step
  split at step
  next phase =>
    split at step <;> cases step
    next exit done => exact .took here phase done
    next none => exact .passed here (.missed phase none)
  next phase =>
    split at step <;> cases step
    next error ask fatal => exact .told here (.standIn phase ask (by rw [fatal]; rfl))
    next ask none => exact .told here (.running phase ask none)
    next error ask fatal => exact .told here (.fatal phase ask fatal)
    next ask none => exact .passed here (.healthy phase ask none)
  next phase =>
    cases step
    exact .registered here phase
  next phase =>
    split at step <;> cases step
    next exit done => exact .retook here phase done
    next none => exact .passed here (.missedAgain phase none)
  next phase =>
    split at step <;> cases step
    next error fatal => exact .passed here (.fatalAgain phase fatal)
    next none => exact .passed here (.stillHealthy phase none)
  next result phase =>
    cases step
    exact .removed here phase
  next phase =>
    split at step <;> cases step
    next exit sent => exact .passed here (.woken phase sent)
    next error sent => exact .told here (.woken phase sent)
    next dropped => exact .told here (.dropped phase dropped)
  next exit phase =>
    cases step
    exact .received here phase
  next => cases step

theorem moves_of_step {s s' : SessionProtocol} {act : ProtocolAct} (step : s.step act = some s') :
    Moves s act s' := by
  unfold SessionProtocol.step at step
  split at step
  next => split at step <;> cases step; exact .recorded ‹_›
  next => split at step <;> cases step; exact .error ‹_›
  next =>
    split at step <;> cases step
    next removing => exact .unhooked removing
    next sending => exact .sent sending
  next => cases step; exact .fatal
  next => cases step; exact .closed
  next => split at step <;> cases step; exact .drained ‹_›
  next => split at step <;> cases step; exact .started ‹_›
  next =>
    split at step
    next entry here => exact moves_of_advance here step
    next => cases step
  next =>
    split at step
    next entry here => split at step <;> cases step; exact .cancelled here ‹_›
    next => cases step

end SessionProtocol

/-- Runs whose steps are all allowed. -/
abbrev ProtocolRun (allowed : SessionProtocol → ProtocolAct → Prop) :
    SessionProtocol → SessionProtocol → Prop :=
  Relation.ReflTransGen fun s s' => ∃ act, allowed s act ∧ s.step act = some s'

end RoLauncher.Session
