import RoLauncher.Threads.Pool

/-!
# The updater's session (`tools/updater/session.rs`, `backend.rs`)

An operation is admitted by the gate `op` and runs as a task of its own, with
the gate held, to its last publication; its caller waits for the snapshot, or
goes away. The session and the slot of the backend are touched by that task,
one critical section a step. What the backend, the network and the census of
clients answer are arguments of the tasks.

Events for the webview are left out: nothing reads them back.
-/

namespace RoLauncher.Updater

open RoLauncher.Threads

structure ReleaseSummary where
  version : String
  publishedAt : Option String
  notes : Option String
  deriving DecidableEq, Repr

inductive UpdateFailureClass where
  | unauthentic
  | unreachable
  | install
  | clientsActive
  | noPending
  deriving DecidableEq, Repr

inductive UpdateUnavailableReason where
  | notPackaged
  | unsupportedOs
  deriving DecidableEq, Repr

inductive UpdatePhase where
  | idle
  | checking
  | current
  | available (release : ReleaseSummary)
  | downloading (release : ReleaseSummary) (downloadedBytes : Nat) (contentLength : Option Nat)
  | readyToRestart (installedVersion : String)
  | failed (failure : UpdateFailureClass) (message : String)
  | unavailable (reason : UpdateUnavailableReason)
  deriving DecidableEq, Repr

structure UpdateSnapshot where
  currentVersion : String
  phase : UpdatePhase
  deriving DecidableEq, Repr

inductive BackendError where
  | unauthentic (message : String)
  | unreachable (message : String)
  | install (message : String)
  | other (message : String)
  deriving DecidableEq, Repr

inductive CheckOutcome where
  | current
  | available (release : ReleaseSummary)
  deriving DecidableEq, Repr

def classifyBackendError : BackendError → UpdateFailureClass × String
  | .unauthentic message => (.unauthentic, message)
  | .unreachable message => (.unreachable, message)
  | .install message => (.install, message)
  | .other message => (.install, message)

/-- A candidate: the plugin's update, a new one for each check that finds one. -/
structure Update where
  serial : Nat
  release : ReleaseSummary
  deriving DecidableEq, Repr

/-- What the operations do that the claims on them speak of. -/
inductive UpdateEvent where
  /-- A check has published what it found. -/
  | checked (found : Option ReleaseSummary)
  | census (active : Except String Nat)
  | downloaded (candidate : Update) (bytes : List UInt8)
  /-- The installer was called. -/
  | installed (candidate : Update) (bytes : List UInt8)

/-- What the operation that holds the gate works on: the lease's own state, and the backend's. -/
structure Session where
  currentVersion : String
  phase : UpdatePhase
  slot : Option Update
  /-- The serial of the next update that a check finds. -/
  found : Nat
  /-- What happened so far, the newest first. -/
  history : List UpdateEvent

/-- A caller of `run_owned`, until it drops its future. -/
inductive Waiter where
  | waiting
  | answered (snapshot : UpdateSnapshot)

structure UpdateLease where
  session : Session
  /-- The gate is held. -/
  op : Bool
  /-- The operations that were admitted and have not let go of the gate. -/
  running : List Nat
  waiters : Nat → Option Waiter

namespace Session

def snapshot (s : Session) : UpdateSnapshot := ⟨s.currentVersion, s.phase⟩

def readyToRestart (s : Session) : Bool :=
  match s.phase with
  | .readyToRestart _ => true
  | _ => false

def setPhase (phase : UpdatePhase) (s : Session) : Session := { s with phase }

def clearPending (s : Session) : Session := { s with slot := none }

def record (event : UpdateEvent) (s : Session) : Session := { s with history := event :: s.history }

/-- The first section of `check_owned`: the old candidate is invalidated before another check. -/
def beginCheck (packaging : Except UpdateUnavailableReason Unit) (s : Session) : Session :=
  if s.readyToRestart then s
  else
    match packaging with
    | .ok () => s.clearPending.setPhase .checking
    | .error reason => (s.clearPending.setPhase (.unavailable reason)).record (.checked none)

/-- `OfficialUpdaterBackend::check`, once the plugin has answered. -/
def backendCheck (answer : Except BackendError (Option ReleaseSummary)) (s : Session) : Session :=
  match answer with
  | .error _ => s
  | .ok none => s.clearPending
  | .ok (some release) => { s with slot := some ⟨s.found, release⟩, found := s.found + 1 }

def checkOutcome : Except BackendError (Option ReleaseSummary) → Except BackendError CheckOutcome
  | .error e => .error e
  | .ok none => .ok .current
  | .ok (some release) => .ok (.available release)

/-- The last section of `check_owned`. -/
def concludeCheck (outcome : Except BackendError CheckOutcome) (s : Session) : Session :=
  match outcome with
  | .ok .current => (s.clearPending.setPhase .current).record (.checked none)
  | .ok (.available release) => (s.setPhase (.available release)).record (.checked (some release))
  | .error error =>
    let (failure, message) := classifyBackendError error
    (s.clearPending.setPhase (.failed failure message)).record (.checked none)

/-- An installation may go on from a checked release, and from a refusal because of clients. -/
def offers (s : Session) : Bool :=
  match s.phase with
  | .available _ => true
  | .failed .clientsActive _ => true
  | _ => false

/-- The first section of `install_owned`. -/
def beginInstall (s : Session) : Session :=
  if s.readyToRestart || s.offers then s
  else s.clearPending.setPhase
    (.failed .noPending "No hay una actualización comprobada para instalar")

/-- The section that gives a candidate back after its download. -/
def returnToSlot (candidate : Update) (s : Session) : Session :=
  match s.slot with
  | none => { s with
      slot := some candidate
      phase := .failed .clientsActive "Cierra los clientes del juego antes de instalar" }
  | some _ =>
    let (failure, message) := classifyBackendError (.other "Updater slot already occupied")
    s.setPhase (.failed failure message)

end Session

namespace UpdateLease

def new (currentVersion : String) : UpdateLease where
  session := ⟨currentVersion, .idle, none, 0, []⟩
  op := false
  running := []
  waiters := fun _ => none

def onSession (f : Session → Session) (s : UpdateLease) : UpdateLease :=
  { s with session := f s.session }

/-- `try_lock_owned` and the spawn have no await in between. -/
def tryLock (caller : Nat) (s : UpdateLease) : UpdateLease :=
  if s.op then { s with waiters := Function.update s.waiters caller (some .waiting) }
  else { s with
    op := true
    running := caller :: s.running
    waiters := Function.update s.waiters caller (some .waiting) }

/-- The task ends, and drops its guard. -/
def release (caller : Nat) (s : UpdateLease) : UpdateLease :=
  { s with op := false, running := s.running.erase caller }

/-- The answer reaches a caller that still waits. -/
def answer (caller : Nat) (snapshot : UpdateSnapshot) (s : UpdateLease) : UpdateLease :=
  match s.waiters caller with
  | some .waiting =>
    { s with waiters := Function.update s.waiters caller (some (.answered snapshot)) }
  | _ => s

def dropWaiter (caller : Nat) (s : UpdateLease) : UpdateLease :=
  { s with waiters := Function.update s.waiters caller none }

end UpdateLease

/-! ## The operations -/

abbrev LeaseTask := Task UpdateLease Empty

/-- One critical section of the operation; it answers with the session it found. -/
def inSection (f : Session → Session) : LeaseTask Session :=
  Task.fetch (fun s => s.session) (UpdateLease.onSession f)

/-- One critical section; it answers with the snapshot it leaves. -/
def publish (f : Session → Session) : LeaseTask UpdateSnapshot :=
  Task.fetch (fun s => (f s.session).snapshot) (UpdateLease.onSession f)

def fail (failure : UpdateFailureClass) (message : String) : LeaseTask UpdateSnapshot :=
  publish (Session.setPhase (.failed failure message))

def failWith (error : BackendError) : LeaseTask UpdateSnapshot :=
  let (failure, message) := classifyBackendError error
  fail failure message

def checkOwned (packaging : Except UpdateUnavailableReason Unit)
    (answer : Except BackendError (Option ReleaseSummary)) : LeaseTask UpdateSnapshot := do
  let before ← inSection (Session.beginCheck packaging)
  if before.readyToRestart then .ret before.snapshot
  else
    match packaging with
    | .error _ => .ret (before.beginCheck packaging).snapshot
    | .ok () => do
      let _ ← inSection (Session.backendCheck answer)
      publish (Session.concludeCheck (Session.checkOutcome answer))

/-- A chunk of the download: its length, the announced total, and whether `try_lock` of the session
succeeds. -/
structure Chunk where
  length : Nat
  total : Option Nat
  unlocked : Bool
  deriving DecidableEq, Repr

def u64Max : Nat := 18446744073709551615

def shouldEmit (downloaded : Nat) (total : Option Nat) (lastEmit : Nat) : Bool :=
  downloaded == 0 || total.any (fun total => decide (downloaded ≥ total)) ||
    decide (downloaded - lastEmit ≥ 256 * 1024)

/-- The progress of a download: `downloaded` so far, the last progress told at `lastEmit`. -/
def onChunks (release : ReleaseSummary) : List Chunk → Nat → Nat → LeaseTask Unit
  | [], _, _ => .ret ()
  | chunk :: rest, downloaded, lastEmit =>
    let downloaded := min (downloaded + chunk.length) u64Max
    if shouldEmit downloaded chunk.total lastEmit then do
      if chunk.unlocked then
        let _ ← inSection (Session.setPhase (.downloading release downloaded chunk.total))
      onChunks release rest downloaded downloaded
    else onChunks release rest downloaded lastEmit

/-- What an installation meets outside. -/
structure InstallScript where
  before : Except String Nat
  chunks : List Chunk
  download : Except BackendError (List UInt8)
  after : Except String Nat
  install : Except BackendError Unit

/-- The candidate has been moved out of the slot: this task alone owns it. -/
def installCandidate (script : InstallScript) (candidate : Update) : LeaseTask UpdateSnapshot := do
  let release := candidate.release
  let _ ← inSection (Session.setPhase (.downloading release 0 none))
  onChunks release script.chunks 0 0
  match script.download with
  | .error error => failWith error
  | .ok bytes => do
    let _ ← inSection (Session.record (.downloaded candidate bytes))
    let _ ← inSection (Session.record (.census script.after))
    match script.after with
    | .error message => fail .install message
    | .ok active =>
      if active ≠ 0 then publish (Session.returnToSlot candidate)
      else do
        let _ ← inSection (Session.record (.installed candidate bytes))
        match script.install with
        | .error error => failWith error
        | .ok () =>
          publish fun s => s.clearPending.setPhase (.readyToRestart release.version)

def installOwned (script : InstallScript) : LeaseTask UpdateSnapshot := do
  let before ← inSection Session.beginInstall
  if before.readyToRestart then .ret before.snapshot
  else if !before.offers then .ret before.beginInstall.snapshot
  else do
    let _ ← inSection (Session.record (.census script.before))
    match script.before with
    | .error message => do
      let _ ← inSection Session.clearPending
      fail .install message
    | .ok active =>
      -- The checked candidate stays in its slot when clients are active.
      if active ≠ 0 then
        fail .clientsActive "Cierra los clientes del juego antes de instalar"
      else do
        let taken ← inSection Session.clearPending
        match taken.slot with
        | none => failWith (.other "No hay un artefacto pendiente")
        | some candidate => installCandidate script candidate

/-- `run_owned`: a caller that is not admitted is told the snapshot; the task of one that is goes on
whether it still waits or not. -/
def runOwned (caller : Nat) (body : LeaseTask UpdateSnapshot) : LeaseTask Unit := do
  let held ← Task.fetch (fun s => s.op) (UpdateLease.tryLock caller)
  if held then
    let snapshot ← Task.read fun s => s.session.snapshot
    Task.modify (UpdateLease.answer caller snapshot)
  else
    let snapshot ← body
    Task.modify (UpdateLease.release caller)
    Task.modify (UpdateLease.answer caller snapshot)

inductive UpdaterCall where
  | check (packaging : Except UpdateUnavailableReason Unit)
      (answer : Except BackendError (Option ReleaseSummary))
  | install (script : InstallScript)
  | snapshot
  /-- A caller drops the future it waits on. -/
  | dropWaiter (caller : Nat)

def UpdaterCall.task (caller : Nat) : UpdaterCall → LeaseTask Unit
  | .check packaging answer => runOwned caller (checkOwned packaging answer)
  | .install script => runOwned caller (installOwned script)
  | .snapshot => (Task.read fun s => s.session.snapshot : LeaseTask UpdateSnapshot).discard
  | .dropWaiter other => Task.modify (UpdateLease.dropWaiter other)

/-- Any caller may make any call at any time. -/
def UpdaterEntry (caller : Nat) (_ : UpdateLease) (p : LeaseTask Unit) : Prop :=
  ∃ call : UpdaterCall, p = call.task caller

end RoLauncher.Updater
