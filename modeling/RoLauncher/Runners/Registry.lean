import RoLauncher.Prefix.Resolver
import RoLauncher.Session.Protocol
import RoLauncher.Threads.Pool

/-!
# Runner sessions (`runner_sessions/registry.rs`)

A prefix has at most one session: the anchor it runs on, its supervisor, and
the counters of what still needs it. An operation begins on the session of
its prefix or starts one; sessions stop when they are idle, when they are
asked to, or when the launcher closes.

Sessions, by number, and the leases on them live in one shared state. A step
of a task is one atomic operation on a counter or a map, or one acquisition of
a lock; what a supervisor answers, and whether a future is dropped where it
waits, are arguments of the tasks. `tokio::spawn` leaves a job for any thread.

The launches that are outstanding are kept beside the counter the code has of
them. Five flags remember what befell a run: an acceptance that came late, an
end of no launch, a client on a session stopped by force, requests that a dead
supervisor leaves, an operation on a session of one. Counters are unbounded
numbers. What a call writes to the log, the redactions, the child handles and
the signals that end a supervisor are left out.
-/

namespace RoLauncher.Runners

open RoLauncher.Threads RoLauncher.Prefix
open RoLauncher.Session (SessionError)

/-! ## Sessions -/

inductive SessionState where
  | ready
  | stopping
  | stopped
  | failed
  deriving DecidableEq, Repr

/-- A session in this state is on its way out of the map. -/
def SessionState.Over (state : SessionState) : Prop := state = .stopped ∨ state = .failed

inductive ShutdownCause where
  | idle (generation : Nat)
  | quiescent
  | forced
  deriving DecidableEq, Repr

structure RunnerAnchor where
  kind : RunnerKind
  path : String
  deriving DecidableEq, Repr

/-- What an operation asks of the session of its prefix. -/
structure Request where
  runner : RunnerAnchor
  planId : String
  deriving DecidableEq, Repr

/-- `RunnerSessionInner`, and whether its protocol is fatal. -/
structure RunnerSession where
  prefixKey : String
  asked : Request
  state : SessionState
  activeRequests : Nat
  operationLeases : Nat
  clientLeases : Nat
  idleGeneration : Nat
  fatal : Bool
  /-- The map has had it. -/
  published : Bool
  /-- Why it left `ready`. -/
  stopCause : Option ShutdownCause
  deriving DecidableEq, Repr

namespace RunnerSession

/-- Where no session was created. -/
def blank : RunnerSession where
  prefixKey := ""
  asked := { runner := { kind := .wine, path := "" }, planId := "" }
  state := .ready
  activeRequests := 0
  operationLeases := 0
  clientLeases := 0
  idleGeneration := 0
  fatal := false
  published := true
  stopCause := none

/-- A session that was just made holds the lease of its operation. -/
def new (prefixKey : String) (request : Request) (fatal published : Bool) : RunnerSession :=
  { blank with prefixKey, asked := request, operationLeases := 1, fatal, published }

def Quiet (session : RunnerSession) : Prop :=
  session.operationLeases = 0 ∧ session.clientLeases = 0 ∧ session.activeRequests = 0

/-- Go to another state, and remember why if it was the first one. -/
def leave (session : RunnerSession) (state : SessionState) (cause : ShutdownCause) :
    RunnerSession :=
  { session with
    state
    stopCause := if session.state = .ready then some cause else session.stopCause }

end RunnerSession

/-- A lease, and what was asked when it was handed out. -/
structure OperationLease where
  session : Nat
  request : Request
  deriving DecidableEq, Repr

/-- The holder of a session's state lock, and what it asks if it begins an operation. -/
structure StateGuard where
  thread : Nat
  request : Option Request
  deriving DecidableEq, Repr

/-- What was spawned and has not started. -/
inductive Job where
  | idleTimer (prefixKey : String) (generation session : Nat)
  | shutdownKey (call : Nat) (prefixKey : String)
  | forceKill (prefixKey : String) (session : Nat)
  deriving DecidableEq, Repr

/-- `RunnerSessionRegistryInner`, the sessions, and the leases that are alive. -/
structure Registry where
  session : Nat → RunnerSession
  created : Nat
  sessions : String → Option Nat
  startupLocks : List String
  startupHolder : String → Option Nat
  stateHolder : Nat → Option StateGuard
  closing : Bool
  leases : List OperationLease
  clients : List Nat
  /-- The launches that were accepted and have not ended, by session and request. -/
  outstanding : List (Nat × String)
  spawned : List Job
  /-- The calls of `shutdown_all`, and which of their keys are done. -/
  calls : Nat
  joined : List (Nat × String)
  /-- The keys the first call of `shutdown_all` found. -/
  census : Option (List String)
  /-- The keys found without a session, under their locks, since the launcher closes. -/
  emptied : List String
  /-- A timeout of `shutdown_all` has passed. -/
  timedOut : Bool
  /-- A call of `shutdown_all` has returned, and none had timed out. -/
  returned : Bool
  /-- A launch that was given up was accepted while the state of its session was locked. -/
  late : Bool
  /-- The end of a launch was reported that was not outstanding. -/
  misreported : Bool
  /-- A client was attached to a session that had been stopped by force. -/
  attachedForced : Bool
  /-- A protocol became fatal while a request was active, or a request was accepted on a fatal one. -/
  stranded : Bool
  /-- An operation that fits a ready session had its state locked while its protocol was fatal,
  or started a session whose protocol was. -/
  metFatal : Bool

namespace Registry

def new : Registry where
  session _ := .blank
  created := 0
  sessions _ := none
  startupLocks := []
  startupHolder _ := none
  stateHolder _ := none
  closing := false
  leases := []
  clients := []
  outstanding := []
  spawned := []
  calls := 0
  joined := []
  census := none
  emptied := []
  timedOut := false
  returned := false
  late := false
  misreported := false
  attachedForced := false
  stranded := false
  metFatal := false

def put (s : Registry) (sid : Nat) (session : RunnerSession) : Registry :=
  { s with session := Function.update s.session sid session }

def spawn (s : Registry) (job : Job) : Registry := { s with spawned := job :: s.spawned }

def lockStartup (s : Registry) (key : String) (holder : Option Nat) : Registry :=
  { s with startupHolder := Function.update s.startupHolder key holder }

def lockState (s : Registry) (sid : Nat) (holder : Option StateGuard) : Registry :=
  { s with stateHolder := Function.update s.stateHolder sid holder }

/-- `startup_lock` of a prefix. -/
def nameLock (s : Registry) (key : String) : Registry :=
  { s with startupLocks := if key ∈ s.startupLocks then s.startupLocks else key :: s.startupLocks }

/-- The operation could use the session. -/
def Fits (s : Registry) (sid : Nat) (request : Option Request) : Prop :=
  request = some (s.session sid).asked ∧ (s.session sid).state = .ready

instance (s : Registry) (sid : Nat) (request : Option Request) : Decidable (s.Fits sid request) :=
  inferInstanceAs (Decidable (_ ∧ _))

def remove (s : Registry) (key : String) : Registry :=
  { s with sessions := Function.update s.sessions key none }

/-- A session that no map has. -/
def create (s : Registry) (session : RunnerSession) : Registry :=
  { s.put s.created session with created := s.created + 1 }

/-- Hand out a lease on a session, and count it. -/
def hand (s : Registry) (lease : OperationLease) : Registry :=
  { s.put lease.session { s.session lease.session with
      operationLeases := (s.session lease.session).operationLeases + 1 } with
    leases := lease :: s.leases }

/-- `insert_session`, with the lease that comes with a new session. -/
def publish (s : Registry) (key : String) (request : Request) (fatal : Bool) : Registry :=
  { s.create (.new key request fatal true) with
    sessions := Function.update s.sessions key (some s.created)
    leases := { session := s.created, request } :: s.leases
    metFatal := s.metFatal || fatal }

end Registry

section Fields

@[grind =]
theorem session_put (s : Registry) (sid : Nat) (session : RunnerSession) (other : Nat) :
    (s.put sid session).session other = if other = sid then session else s.session other := by
  by_cases same : other = sid
  · rw [same, if_pos rfl]
    exact Function.update_self sid session s.session
  · rw [if_neg same]
    exact Function.update_of_ne same session s.session

@[grind =]
theorem sessions_put (s : Registry) (sid : Nat) (session : RunnerSession) (key : String) :
    (s.put sid session).sessions key = s.sessions key := rfl

@[grind =]
theorem startupHolder_put (s : Registry) (sid : Nat) (session : RunnerSession) (key : String) :
    (s.put sid session).startupHolder key = s.startupHolder key := rfl

@[grind =]
theorem sessions_remove (s : Registry) (key other : String) :
    (s.remove key).sessions other = if other = key then none else s.sessions other := by
  by_cases same : other = key
  · rw [same, if_pos rfl]
    exact Function.update_self key none s.sessions
  · rw [if_neg same]
    exact Function.update_of_ne same none s.sessions

@[grind =]
theorem startupHolder_remove (s : Registry) (key other : String) :
    (s.remove key).startupHolder other = s.startupHolder other := rfl

@[grind =]
theorem sessions_lockStartup (s : Registry) (key : String) (holder : Option Nat) (other : String) :
    (s.lockStartup key holder).sessions other = s.sessions other := rfl

@[grind =]
theorem startupHolder_lockStartup (s : Registry) (key : String) (holder : Option Nat) (other : String) :
    (s.lockStartup key holder).startupHolder other = if other = key then holder else s.startupHolder other := by
  by_cases same : other = key
  · rw [same, if_pos rfl]
    exact Function.update_self key holder s.startupHolder
  · rw [if_neg same]
    exact Function.update_of_ne same holder s.startupHolder

theorem sessions_publish {s : Registry} {key : String} {request : Request} {fatal : Bool} (other : String) :
    (s.publish key request fatal).sessions other = if other = key then some s.created else s.sessions other := by
  by_cases same : other = key
  · rw [same, if_pos rfl]
    exact Function.update_self key (some s.created) s.sessions
  · rw [if_neg same]
    exact Function.update_of_ne same (some s.created) s.sessions

theorem session_publish {s : Registry} {key : String} {request : Request} {fatal : Bool} (other : Nat) :
    (s.publish key request fatal).session other =
      if other = s.created then .new key request fatal true else s.session other := session_put _ _ _ _

end Fields

/-! ## Tasks -/

/-- How an asynchronous call ends without a value. -/
inductive Failure where
  | error (error : SessionError)
  /-- Its future is dropped where it waits. -/
  | dropped

abbrev RegistryTask (α : Type) := Task Registry Failure α

/-- `SessionError::validation`, `SessionError::internal`. -/
def sessionError {α : Type} (message : String) : RegistryTask α := .fail (.error { message })

/-- How waiting for `Stopped` ends. -/
inductive Conversation where
  | stopped (exits : Bool)
  | failed (error : SessionError)
  | timedOut
  | dropped

/-- What the outside answers to one turn of the loop of `begin_operation_opt`. -/
structure Attempt where
  /-- The supervisor that is shut down first, when there is one. -/
  shutdown : Bool → Conversation
  /-- The bootstrap, the invocation for the shutdown, and the spawn. -/
  bootstrap : Except Failure Unit
  /-- The new protocol is fatal when its session is inserted. -/
  fatal : Bool
  /-- The new supervisor, when the launcher closes meanwhile. -/
  discard : Bool → Conversation

def runnerConflictMsg : String :=
  "El prefix ya está activo con otro runner; ciérralo antes de cambiarlo."

def planConflictMsg : String :=
  "El entorno todavía está en uso con otra configuración. Espera a que termine la preparación o cierra el juego y las herramientas de ese servidor."

def closingMsg : String := "El launcher se está cerrando"

section Tasks

variable {α : Type} (me : Nat)

/-! ### Locks -/

/-- `startup_lock`, and what its guard covers. -/
def withStartupLock (key : String) (body : RegistryTask α) : RegistryTask α := do
  .modify (·.nameLock key)
  .await (fun s => s.startupHolder key = none) (·.lockStartup key (some me))
  let result ← body.attempt
  .modify (·.lockStartup key none)
  .ofExcept result

/-- What the guard of a session's `state` covers. -/
def withStateLock (sid : Nat) (request : Option Request) (body : RegistryTask α) :
    RegistryTask α := do
  .await (fun s => s.stateHolder sid = none) fun s =>
    { s.lockState sid (some { thread := me, request }) with
      metFatal := s.metFatal || ((s.session sid).fatal && s.Fits sid request) }
  let result ← body.attempt
  .modify (·.lockState sid none)
  .ofExcept result

/-- `*state.lock() = state`. -/
def setState (sid : Nat) (state : SessionState) : RegistryTask Unit :=
  .await (fun s => s.stateHolder sid = none) fun s => s.put sid ((s.session sid).leave state .forced)

/-! ### Counters -/

def isQuiet (sid : Nat) : RegistryTask Bool := do
  let operationLeases ← .read fun s => (s.session sid).operationLeases
  if operationLeases = 0 then
    let clientLeases ← .read fun s => (s.session sid).clientLeases
    if clientLeases = 0 then .read fun s => (s.session sid).activeRequests = 0
    else .ret false
  else .ret false

def bumpIdleGeneration (sid : Nat) : RegistryTask Unit :=
  .modify fun s => s.put sid { s.session sid with
    idleGeneration := (s.session sid).idleGeneration + 1 }

def scheduleIdleShutdown (sid : Nat) : RegistryTask Unit := do
  if ← isQuiet sid then
    let generation ← .fetch (fun s => (s.session sid).idleGeneration + 1)
      fun s => s.put sid { s.session sid with idleGeneration := (s.session sid).idleGeneration + 1 }
    .modify fun s => s.spawn (.idleTimer (s.session sid).prefixKey generation sid)
  else .ret ()

/-- `release_operation_lease`, when the lease is dropped. -/
def releaseOperationLease (lease : OperationLease) : RegistryTask Unit := do
  .await (fun s => lease ∈ s.leases) fun s =>
    { s.put lease.session { s.session lease.session with
        operationLeases := (s.session lease.session).operationLeases - 1 } with
      leases := s.leases.erase lease }
  scheduleIdleShutdown lease.session

/-- `release_client_lease`, when the lease is dropped. -/
def releaseClientLease (sid : Nat) : RegistryTask Unit := do
  .await (fun s => sid ∈ s.clients) fun s =>
    { s.put sid { s.session sid with clientLeases := (s.session sid).clientLeases - 1 } with
      clients := s.clients.erase sid }
  scheduleIdleShutdown sid

/-- The update of `on_launch_accepted`. -/
def accepted (sid : Nat) (requestId : String) (s : Registry) : Registry :=
  { s.put sid { s.session sid with activeRequests := (s.session sid).activeRequests + 1 } with
    outstanding := (sid, requestId) :: s.outstanding
    stranded := s.stranded || (s.session sid).fatal }

/-- `LaunchAccepted` for a call that was given up. -/
def onLaunchAccepted (sid : Nat) (requestId : String) : RegistryTask Unit :=
  .modify fun s => { accepted sid requestId s with late := s.late || (s.stateHolder sid).isSome }

/-- The update of `on_controller_exited`, which does not look at the request. -/
def exited (sid : Nat) (requestId : String) (s : Registry) : Registry :=
  { s.put sid { s.session sid with activeRequests := (s.session sid).activeRequests - 1 } with
    outstanding := s.outstanding.erase (sid, requestId)
    misreported := s.misreported || (sid, requestId) ∉ s.outstanding }

/-- `ControllerExited`. -/
def onControllerExited (sid : Nat) (requestId : String) : RegistryTask Unit := do
  .modify (exited sid requestId)
  scheduleIdleShutdown sid

/-- `set_fatal` of the session's protocol. -/
def setFatal (sid : Nat) : RegistryTask Unit :=
  .modify fun s =>
    { s.put sid { s.session sid with fatal := true } with
      stranded := s.stranded || (s.session sid).activeRequests ≠ 0
      metFatal := s.metFatal || (s.stateHolder sid).any fun guard => s.Fits sid guard.request }

/-! ### Shutdown -/

def removeSessionIfSame (key : String) (sid : Nat) : RegistryTask Unit :=
  .modify fun s => if s.sessions key = some sid then s.remove key else s

def failSession (key : String) (sid : Nat) (error : SessionError) : RegistryTask Unit := do
  setState sid .failed
  removeSessionIfSame key sid
  .fail (.error error)

/-- The block of `shutdown_session_locked` under the state lock: nothing to do
when it is none, else whether the request is skipped. -/
def decideShutdown (sid : Nat) (cause : ShutdownCause) : RegistryTask (Option Bool) :=
  withStateLock me sid none do
    let proceed : RegistryTask (Option Bool) := do
      match ← Task.read fun s => (s.session sid).state with
      | .stopped | .failed => .ret none
      | .stopping => .ret (some true)
      | .ready =>
        let stop : RegistryTask (Option Bool) :=
          .fetch (fun _ => some false) fun s => s.put sid ((s.session sid).leave .stopping cause)
        match cause with
        | .idle generation => do
          if (← Task.read fun s => (s.session sid).idleGeneration) = generation then
            if ← isQuiet sid then stop else .ret none
          else .ret none
        | .quiescent | .forced => stop
    match cause with
    | .quiescent => do
      if ← isQuiet sid then proceed
      else sessionError "cannot shutdown prefix while leases or requests are active"
    | .idle _ | .forced => proceed

/-- What `shutdown_session_locked` does with the end of the conversation. -/
def settleShutdown (key : String) (sid : Nat) : Conversation → RegistryTask Unit
  | .stopped true => do
    setState sid .stopped
    removeSessionIfSame key sid
  | .stopped false => failSession key sid { message := "supervisor did not exit after Stopped" }
  | .failed error => failSession key sid error
  | .timedOut => failSession key sid { message := "wait Stopped timed out" }
  | .dropped => .fail .dropped

def shutdownSessionLocked (key : String) (sid : Nat) (cause : ShutdownCause)
    (supervisor : Bool → Conversation) : RegistryTask Unit := do
  match ← decideShutdown me sid cause with
  | none => .ret ()
  | some skipShutdownRequest => settleShutdown key sid (supervisor skipShutdownRequest)

def shutdownSession (key : String) (sid : Nat) (cause : ShutdownCause)
    (supervisor : Bool → Conversation) : RegistryTask Unit :=
  withStartupLock me key do
    if (← Task.read fun s => s.sessions key) = some sid then
      shutdownSessionLocked me key sid cause supervisor
    else .ret ()

/-- `force_kill_session`. -/
def forceKillSession (key : String) (sid : Nat) : RegistryTask Unit :=
  (failSession key sid { message := "forced supervisor shutdown" }).attempt.discard

/-- The callback of the timer. -/
def idleShutdownIfQuiet (key : String) (generation sid : Nat) (supervisor : Bool → Conversation) :
    RegistryTask Unit := do
  if (← Task.read fun s => s.sessions key) = some sid then
    if (← Task.read fun s => (s.session sid).idleGeneration) = generation then
      if ← isQuiet sid then
        let state ← .step (fun s => s.stateHolder sid = none) id fun s => .ret (s.session sid).state
        if state = .ready then shutdownSession me key sid (.idle generation) supervisor
        else .ret ()
      else .ret ()
    else .ret ()
  else .ret ()

/-! ### Operations -/

/-- What the critical section of `begin_operation_opt` comes to. -/
inductive Admission where
  | lease (lease : OperationLease)
  /-- The registered session must be shut down first. -/
  | shutdown (sid : Nat) (cause : ShutdownCause)

/-- The block of `begin_operation_opt` under the state lock of the registered
session. None when that is over and was removed. -/
def beginOnExisting (key : String) (request : Request) (sid : Nat) :
    RegistryTask (Option Admission) :=
  withStateLock me sid (some request) do
    let existing ← .read (·.session sid)
    match existing.state with
    | .ready =>
      if existing.asked.runner ≠ request.runner then sessionError runnerConflictMsg
      else if existing.asked.planId ≠ request.planId then
        if ← isQuiet sid then
          let generation ← .read fun s => (s.session sid).idleGeneration
          .ret (some (.shutdown sid (.idle generation)))
        else sessionError planConflictMsg
      else
        bumpIdleGeneration sid
        .modify (·.hand { session := sid, request })
        .ret (some (.lease { session := sid, request }))
    | .stopping => .ret (some (.shutdown sid .forced))
    | .stopped | .failed =>
      removeSessionIfSame key sid
      .ret none

/-- `begin_operation_opt` from the bootstrap on. -/
def startSession (key : String) (request : Request) (attempt : Attempt) :
    RegistryTask Admission := do
  .ofExcept attempt.bootstrap
  if ← Task.read (·.closing) then
    let sid ← .fetch (·.created) (·.create (.new key request attempt.fatal false))
    shutdownSessionLocked me key sid .forced attempt.discard
    sessionError closingMsg
  else
    let sid ← .fetch (·.created) (·.publish key request attempt.fatal)
    .ret (.lease { session := sid, request })

/-- One turn of the loop, under the startup lock. -/
def beginLocked (key : String) (request : Request) (attempt : Attempt) :
    RegistryTask Admission := do
  if ← Task.read (·.closing) then sessionError closingMsg
  else
    match ← Task.read fun s => s.sessions key with
    | none => startSession me key request attempt
    | some sid =>
      match ← beginOnExisting me key request sid with
      | some admission => .ret admission
      | none => startSession me key request attempt

/-- The loop, as far as its turns are known. Then the thread is asleep. -/
def beginLoop (key : String) (request : Request) : List Attempt → RegistryTask OperationLease
  | [] => .step (fun _ => false) id fun _ => .fail .dropped
  | attempt :: later => do
    match ← withStartupLock me key (beginLocked me key request attempt) with
    | .lease lease => .ret lease
    | .shutdown sid cause =>
      shutdownSession me key sid cause attempt.shutdown
      beginLoop key request later

/-- The answer of `canonicalize_prefix_path`. -/
def canonicalKey (canonical : Option String) : RegistryTask String :=
  match canonical with
  | some key => .ret key
  | none => sessionError "prefix path could not be canonicalized"

def beginOperationOpt (canonical : Option String) (request : Request) (attempts : List Attempt) :
    RegistryTask OperationLease := do
  let key ← canonicalKey canonical
  beginLoop me key request attempts

/-- The caller lends its lease for the call. -/
def attachClient (lease : OperationLease) : RegistryTask Nat := do
  .await (fun s => lease ∈ s.leases) fun s =>
    { s.put lease.session { s.session lease.session with
        clientLeases := (s.session lease.session).clientLeases + 1 } with
      clients := lease.session :: s.clients
      attachedForced := s.attachedForced || (s.session lease.session).stopCause = some .forced }
  bumpIdleGeneration lease.session
  .ret lease.session

/-- The caller lends its lease for the call, which ends with `answer`. -/
def launch (lease : OperationLease) (requestId : String) (answer : Except SessionError Unit) :
    RegistryTask Unit := do
  let state ← .step (fun s => s.stateHolder lease.session = none) id
    fun s => .ret (s.session lease.session).state
  if state = .ready then
    match answer with
    | .ok () => .await (fun s => lease ∈ s.leases) (accepted lease.session requestId)
    | .error error => .fail (.error error)
  else sessionError "session is not ready for launch"

def shutdownPrefix (canonical : Option String) (supervisor : Bool → Conversation) :
    RegistryTask Unit := do
  let key ← canonicalKey canonical
  match ← Task.read fun s => s.sessions key with
  | some sid => shutdownSession me key sid .quiescent supervisor
  | none => sessionError "no active session for prefix"

/-! ### Closing -/

/-- The end of a call of `shutdown_all`. -/
def returnErrors : RegistryTask Unit :=
  .modify fun s => { s with returned := s.returned || !s.timedOut }

/-- After the global timeout. -/
def killRemaining : List String → RegistryTask Unit
  | [] => .ret ()
  | key :: remaining => do
    match ← Task.read fun s => s.sessions key with
    | some sid => .modify (·.spawn (.forceKill key sid))
    | none => .ret ()
    killRemaining remaining

def shutdownAllOwned (timesOut : Bool) : RegistryTask Unit := do
  .modify fun s => { s with closing := true }
  let keys ← .fetch (·.startupLocks)
    fun s => { s with census := some (s.census.getD s.startupLocks) }
  if keys = [] then returnErrors
  else
    let call ← .fetch (·.calls) fun s =>
      { s with calls := s.calls + 1, spawned := keys.map (.shutdownKey s.calls) ++ s.spawned }
    if timesOut then
      .modify fun s => { s with timedOut := true }
      let remaining ← .read fun s => s.startupLocks.filter fun key => (s.sessions key).isSome
      killRemaining remaining
    else
      .await (fun s => ∀ key ∈ keys, (call, key) ∈ s.joined) id
      returnErrors

def shutdownAll (timesOut : Bool) : RegistryTask Unit := do
  .modify fun s => { s with closing := true }
  shutdownAllOwned timesOut

/-- The `shutdown` future of a key, under its startup lock. -/
def shutdownKeyLocked (key : String) (supervisor : Bool → Conversation) : RegistryTask Unit := do
  let result : Except Failure Unit ← (do
    match ← Task.read fun s => s.sessions key with
    | some sid => shutdownSessionLocked me key sid .forced supervisor
    | none => .ret () : RegistryTask Unit).attempt
  .modify fun s => if s.sessions key = none ∧ s.closing then { s with emptied := key :: s.emptied }
    else s
  .ofExcept result

/-- What happens to the task of a key while it waits for the startup lock, and later. -/
structure KeyAnswers where
  lockTimesOut : Bool
  supervisor : Bool → Conversation
  /-- Its future is dropped with the others, by the global timeout. -/
  aborted : Bool

/-- `SHUTDOWN_ALL_SESSION_TIMEOUT` has passed. -/
def expireKey (key : String) : RegistryTask Unit := do
  .modify fun s => { s with timedOut := true }
  match ← Task.read fun s => s.sessions key with
  | some sid => forceKillSession key sid
  | none => .ret ()

def joinKey (call : Nat) (key : String) : RegistryTask Unit :=
  .modify fun s => { s with joined := (call, key) :: s.joined }

/-- The task of a key, to its end. -/
def shutdownKey (call : Nat) (key : String) (answers : KeyAnswers) : RegistryTask Unit := do
  if answers.lockTimesOut then
    expireKey key
    joinKey call key
  else
    let result : Except Failure Unit ←
      (withStartupLock me key (shutdownKeyLocked me key answers.supervisor)).attempt
    match result with
    | .ok () | .error (.error _) => joinKey call key
    | .error .dropped =>
      if answers.aborted then .ret ()
      else
        expireKey key
        joinKey call key

/-- Take a job that was spawned, and do it. -/
def runJob (job : Job) (body : RegistryTask Unit) : RegistryTask Unit := do
  .await (fun s => job ∈ s.spawned) fun s => { s with spawned := s.spawned.erase job }
  body

end Tasks

/-- What a thread may start. -/
inductive RegistryEntry (me : Nat) (s : Registry) : RegistryTask Unit → Prop
  | beginOperation (canonical : Option String) (request : Request) (attempts : List Attempt) :
      RegistryEntry me s (beginOperationOpt me canonical request attempts).discard
  | attachClient (lease : OperationLease) : RegistryEntry me s (attachClient lease).discard
  | releaseOperationLease (lease : OperationLease) :
      RegistryEntry me s (releaseOperationLease lease)
  | releaseClientLease (sid : Nat) : RegistryEntry me s (releaseClientLease sid)
  | launch (lease : OperationLease) (requestId : String) (answer : Except SessionError Unit) :
      RegistryEntry me s (launch lease requestId answer)
  | launchAccepted (sid : Nat) (requestId : String) : sid < s.created →
      RegistryEntry me s (onLaunchAccepted sid requestId)
  | controllerExited (sid : Nat) (requestId : String) : sid < s.created →
      RegistryEntry me s (onControllerExited sid requestId)
  | setFatal (sid : Nat) : sid < s.created → RegistryEntry me s (setFatal sid)
  | shutdownPrefix (canonical : Option String) (supervisor : Bool → Conversation) :
      RegistryEntry me s (shutdownPrefix me canonical supervisor)
  | shutdownSession (key : String) (sid : Nat) (cause : ShutdownCause)
      (supervisor : Bool → Conversation) : sid < s.created →
      RegistryEntry me s (shutdownSession me key sid cause supervisor)
  | shutdownAll (timesOut : Bool) : RegistryEntry me s (shutdownAll timesOut)
  | idleTimer (key : String) (generation sid : Nat) (supervisor : Bool → Conversation) :
      RegistryEntry me s
        (runJob (.idleTimer key generation sid) (idleShutdownIfQuiet me key generation sid supervisor))
  | shutdownKey (call : Nat) (key : String) (answers : KeyAnswers) :
      RegistryEntry me s (runJob (.shutdownKey call key) (shutdownKey me call key answers))
  | forceKill (key : String) (sid : Nat) :
      RegistryEntry me s (runJob (.forceKill key sid) (forceKillSession key sid))

end RoLauncher.Runners
