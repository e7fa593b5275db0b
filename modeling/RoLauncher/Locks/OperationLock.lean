import RoLauncher.Locks.RecordLock
import RoLauncher.Threads.Pool

/-!
# Operation guards (`utils/operation_lock.rs`)

A guard excludes other operations on one key, in this process and in every
other one. The processes' own registries count their guards under a mutex; a
key's record lock is taken by its first guard and closed with its last.

A thread is a process and a number. A step of a task is one access to the
mutex, the registry or the lock file, so the steps of two processes interleave
inside `acquireWithMode` too. The mutex is never poisoned: nothing under it
panics.
-/

namespace RoLauncher.Locks

open RoLauncher.Threads

/-! ## Paths -/

inductive Component where
  | normal (name : String)
  | parentDir
  deriving DecidableEq, Repr

structure Path where
  text : String
  absolute : Bool
  components : List Component

/-- What the file system says of a path: `fs::canonicalize`, `is_dir`, `symlink_metadata`. -/
inductive Canonicalized where
  | found (canonical : List String) (isDir : Bool)
  | notFound (linkExists : Bool)
  | error

abbrev FileView := List Component → Canonicalized

/-- The loop of `canonicalize_prefix_path`: the ancestor, innermost component
first, and the missing names below it. -/
def canonicalizeAncestor (files : FileView) :
    List Component → List String → Option (List String)
  | ancestor, missing =>
    match files ancestor.reverse, ancestor with
    | .found canonical isDir, _ => if isDir then some (canonical ++ missing) else none
    | .notFound true, _ => none
    | .notFound false, .normal name :: parent => canonicalizeAncestor files parent (name :: missing)
    | .notFound false, _ => none
    | .error, _ => none

def canonicalizePrefixPath (files : FileView) (path : Path) : Option (List String) :=
  if path.absolute then canonicalizeAncestor files path.components.reverse [] else none

/-- `normalize_path`, displayed. -/
def normalizePath (files : FileView) (path : Path) : String :=
  match canonicalizePrefixPath files path with
  | some names => "/" ++ "/".intercalate names
  | none => path.text

/-! ## The registry -/

/-- An open descriptor of a lock file. -/
structure File where
  path : String
  deriving DecidableEq, Repr

structure LockState where
  readers : Nat := 0
  writer : Bool := false
  crossProcess : Option File := none
  deriving DecidableEq, Repr

structure OperationGuard where
  key : String
  shared : Bool
  deriving DecidableEq, Repr

inductive OperationLockError where
  | busy (message : String)
  | io (message : String)
  deriving DecidableEq, Repr

/-- `Display`. -/
def OperationLockError.toString : OperationLockError → String
  | .busy message | .io message => message

inductive CrossProcessLockError where
  | busy
  | io (error : String)
  deriving DecidableEq, Repr

/-- `HashMap<String, LockState>`. -/
abbrev Registry := String → Option LockState

/-- `ACTIVE_OPERATIONS` and its mutex in every process, the lock files, and
the guards that are alive. -/
structure System (Pid : Type) where
  registry : Pid → Registry
  mutex : Pid → Option Nat
  locks : RecordLocks String Pid
  guards : List (Pid × OperationGuard)

def System.initial {Pid : Type} : System Pid where
  registry _ _ := none
  mutex _ := none
  locks _ := []
  guards := []

/-- What the lock files depend on: the hex digits of SHA-256, and where they are. -/
structure LockHost where
  digest : String → String
  directory : String

def LockHost.lockFilePath (host : LockHost) (key : String) : String :=
  host.directory ++ "/" ++ host.digest key ++ ".lock"

/-- What the system answers to one attempt: how it sees the path, whether the
lock file can be opened, how often `fcntl` is interrupted, and the error it
may then fail with. -/
structure Answers where
  files : FileView
  opened : Except String Unit
  interrupted : Nat
  failed : Option String

section Tasks

variable {Pid : Type} [DecidableEq Pid]

/-- A thread: its process, and its number there. -/
abbrev Thread (Pid : Type) := Pid × Nat

abbrev LockTask (Pid Err α : Type) := Task (System Pid) Err α

variable {Err : Type} (host : LockHost) (me : Thread Pid)

def unlockMutex : LockTask Pid Err Unit :=
  .modify fun s => { s with mutex := Function.update s.mutex me.1 none }

def System.put (s : System Pid) (pid : Pid) (key : String) (entry : Option LockState) : System Pid :=
  { s with registry := Function.update s.registry pid (Function.update (s.registry pid) key entry) }

def closeFile (file : File) : LockTask Pid Err Unit :=
  .modify fun s => { s with locks := s.locks.close file.path me.1 }

/-! ## Acquiring -/

/-- The `fcntl` loop of `lock_across_processes`. -/
def fcntlSetLk (file : File) (kind : LockKind) :
    Nat → Option String → LockTask Pid Err (Except CrossProcessLockError Unit)
  | interrupted + 1, failed => do
    .modify id
    fcntlSetLk file kind interrupted failed
  | 0, some error => .ret (.error (.io error))
  | 0, none =>
    .fetch
      (fun s => if (s.locks.setLk file.path me.1 kind).isSome then .ok () else .error .busy)
      (fun s => { s with locks := (s.locks.setLk file.path me.1 kind).getD s.locks })

def lockAcrossProcesses (answers : Answers) (key : String) (shared : Bool) :
    LockTask Pid CrossProcessLockError File := do
  .ofExcept (answers.opened.mapError .io)
  let file : File := { path := host.lockFilePath key }
  let kind := if shared then .read else .write
  match ← fcntlSetLk me file kind answers.interrupted answers.failed with
  | .ok () => return file
  | .error error => do
    closeFile me file
    .fail error

/-- `entry(key).or_default()`. -/
def entryOrDefault (key : String) : LockTask Pid Err LockState :=
  .fetch (fun s => (s.registry me.1 key).getD {})
    (fun s => s.put me.1 key (some ((s.registry me.1 key).getD {})))

def unavailable (active : LockState) (shared : Bool) : Bool :=
  if shared then active.writer else active.writer || active.readers > 0

/-- The first guard of a key in this process takes the record lock. -/
def takeRecordLock (answers : Answers) (namespace_ normalized key : String) (shared : Bool) :
    LockTask Pid OperationLockError Unit := do
  match ← (lockAcrossProcesses host me answers key shared).attempt with
  | .ok file =>
    .modify fun s => s.put me.1 key
      ((s.registry me.1 key).map fun active => { active with crossProcess := some file })
  | .error error => do
    .modify fun s => s.put me.1 key none
    unlockMutex me
    .fail (match error with
      | .busy => .busy s!"Ya hay una operación {namespace_} en curso para {normalized} en otro proceso de RO-Launcher"
      | .io error => .io s!"No se pudo bloquear la operación {namespace_} para {normalized}: {error}")

def LockState.withGuard (active : LockState) (shared : Bool) : LockState :=
  if shared then { active with readers := active.readers + 1 } else { active with writer := true }

/-- Count the guard and hand it out. -/
def countGuard (guard : OperationGuard) : LockTask Pid Err Unit :=
  .modify fun s =>
    { s.put me.1 guard.key ((s.registry me.1 guard.key).map (LockState.withGuard · guard.shared)) with
      guards := (me.1, guard) :: s.guards }

def keyOf (namespace_ normalized : String) : String := namespace_ ++ ":" ++ normalized

def acquireWithMode (answers : Answers) (namespace_ : String) (path : Path) (shared : Bool) :
    LockTask Pid OperationLockError OperationGuard := do
  let normalized := normalizePath answers.files path
  let key := keyOf namespace_ normalized
  .await (fun s => s.mutex me.1 = none)
    fun s => { s with mutex := Function.update s.mutex me.1 (some me.2) }
  let active ← entryOrDefault me key
  if unavailable active shared then
    unlockMutex me
    .fail (.busy s!"Ya hay una operación {namespace_} en curso para {normalized}")
  else
    .onlyIf active.crossProcess.isNone (takeRecordLock host me answers namespace_ normalized key shared)
    countGuard me { key, shared }
    unlockMutex me
    return { key, shared }

def acquire (answers : Answers) (namespace_ : String) (path : Path) :
    LockTask Pid String OperationGuard :=
  (acquireWithMode host me answers namespace_ path false).mapError OperationLockError.toString

def acquireShared (answers : Answers) (namespace_ : String) (path : Path) :
    LockTask Pid String OperationGuard :=
  (acquireWithMode host me answers namespace_ path true).mapError OperationLockError.toString

/-- `acquire_for`, as far as its attempts are known: what each of them is
answered, and the time elapsed after it. Then the thread is asleep. -/
def acquireFor (namespace_ : String) (path : Path) (timeout : Nat) :
    List (Answers × Nat) → LockTask Pid OperationLockError OperationGuard
  | [] => .step (fun _ => false) id fun _ => .fail (.busy "")
  | (answers, elapsed) :: later => do
    match ← (acquireWithMode host me answers namespace_ path false).attempt with
    | .error (.busy message) =>
      if timeout - elapsed = 0 then .fail (.busy message)
      else acquireFor namespace_ path timeout later
    | .error error => .fail error
    | .ok guard => return guard

/-! ## Dropping -/

def LockState.release (active : LockState) (shared : Bool) : LockState :=
  if shared then { active with readers := active.readers - 1 } else { active with writer := false }

/-- What a drop leaves of the key's entry. -/
def LockState.released (active : LockState) (shared : Bool) : Option LockState :=
  let active := active.release shared
  if active.readers = 0 && !active.writer then none else some active

/-- The descriptor that is dropped with the entry. -/
def droppedFile (entry : Option LockState) (shared : Bool) : Option File :=
  match entry with
  | some active => if (active.released shared).isNone then active.crossProcess else none
  | none => none

def dropDescriptor : Option File → LockTask Pid Err Unit
  | some file => closeFile me file
  | none => .ret ()

/-- `Drop`, by a thread that owns the guard. Removing the entry drops its
descriptor, which is closed under the mutex. -/
def dropGuard (guard : OperationGuard) : LockTask Pid Err Unit := do
  .await (fun s => s.mutex me.1 = none ∧ (me.1, guard) ∈ s.guards)
    fun s => { s with mutex := Function.update s.mutex me.1 (some me.2) }
  let file ← .fetch
    (fun s => droppedFile (s.registry me.1 guard.key) guard.shared)
    (fun s =>
      { s.put me.1 guard.key ((s.registry me.1 guard.key).bind (LockState.released · guard.shared))
        with guards := s.guards.erase (me.1, guard) })
  dropDescriptor me file
  unlockMutex me

end Tasks

/-- What a thread may do with the guards of `keys`. -/
inductive LockEntry {Pid : Type} [DecidableEq Pid] (host : LockHost) (keys : Set String)
    (me : Thread Pid) : System Pid → LockTask Pid OperationLockError Unit → Prop
  | acquire (s : System Pid) (answers : Answers) (namespace_ : String) (path : Path) :
      keyOf namespace_ (normalizePath answers.files path) ∈ keys →
      LockEntry host keys me s (acquire host me answers namespace_ path).attempt.discard
  | acquireShared (s : System Pid) (answers : Answers) (namespace_ : String) (path : Path) :
      keyOf namespace_ (normalizePath answers.files path) ∈ keys →
      LockEntry host keys me s (acquireShared host me answers namespace_ path).attempt.discard
  | acquireFor (s : System Pid) (namespace_ : String) (path : Path) (timeout : Nat)
      (attempts : List (Answers × Nat)) :
      (∀ attempt ∈ attempts, keyOf namespace_ (normalizePath attempt.1.files path) ∈ keys) →
      LockEntry host keys me s (acquireFor host me namespace_ path timeout attempts).discard
  | drop (s : System Pid) (guard : OperationGuard) : LockEntry host keys me s (dropGuard me guard)

end RoLauncher.Locks
