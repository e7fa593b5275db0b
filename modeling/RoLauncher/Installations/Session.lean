import RoLauncher.Crash.Component
import RoLauncher.Installations.Drafts
import RoLauncher.Prefix.Protection

/-!
# Installation runs (`tools/installations/session.rs`)

A run holds the prefix guard from its checks to the end of the installer. It
writes the receipt into the prefix (`writeProtection`), then the binding into
its draft, and only then starts the installer. A confirmation writes the same
receipt again before it completes the draft.

What a run leaves behind is more than a prefix: `World` is the prefix and its
neighbours, the saved drafts, and a log of the installers that were started,
each with what was durable at that moment.
-/

namespace RoLauncher.Installations

open RoLauncher.Files RoLauncher.Crash RoLauncher.Prefix

/-! ## Durable state -/

/-- An installer that was started: for which draft, path and fingerprint, and what was durable. -/
structure Started where
  wanted : InstallationBinding
  root : Option Node
  drafts : List InstallationDraft

structure World where
  disk : Disk
  /-- `installations.json`. -/
  drafts : List InstallationDraft
  started : List Started

inductive InstallOp where
  | onDisk (o : FsOp)
  /-- `write_json`: the list is replaced as a whole. -/
  | saveDrafts (drafts : List InstallationDraft)
  /-- `op.spawn` of the installer. -/
  | spawn (wanted : InstallationBinding)

/-- The world after an installer was started in it. -/
def World.start (w : World) (wanted : InstallationBinding) : World :=
  { w with started := w.started ++ [⟨wanted, w.disk.root, w.drafts⟩] }

/-- A save that reports a failure, and a spawn that does, may have happened. -/
def world : Device InstallOp World IoError where
  exec
    | .onDisk o, w => ((execOp o w.disk).1, { w with disk := (execOp o w.disk).2 })
    | .saveDrafts drafts, w => (.ok (), { w with drafts })
    | .spawn wanted, w => (.ok (), w.start wanted)
  torn
    | .onDisk o, w, w' => ∃ disk, tornOp o w.disk disk ∧ w' = { w with disk }
    | .saveDrafts drafts, w, w' => w' = w ∨ w' = { w with drafts }
    | .spawn wanted, w, w' => w' = w ∨ w' = w.start wanted

def onDisk : Component device world where
  op := .onDisk
  get := World.disk
  set w disk := { w with disk }
  get_set _ _ := rfl
  exec _ _ := rfl
  torn _ _ _ h := h

abbrev InstallProg (α : Type) := Prog InstallOp World IoError String α

/-! ## The receipt -/

section Receipts

variable (receipt : ReceiptSerde) (binding : InstallationBinding)

/-- One of the two files that may hold a receipt: whether it is there. -/
def checkReceipt (found : Option Node) : Except String Bool :=
  match found with
  | none => .ok false
  | some (.file data) =>
    if data.size > 8192 then
      .error "El recibo de instalación no es un archivo regular; se conservaron los datos"
    else
      match data.text?.map receipt.decode with
      | some (.ok saved) =>
        if saved ≠ binding then
          .error "El entorno está protegido por otra instalación; no se modificará"
        else .ok true
      | _ => .error "El recibo de instalación está dañado; se conservaron los datos"
  | some _ => .error "El recibo de instalación no es un archivo regular; se conservaron los datos"

/-- `temp_path`: the hidden sibling that a replacement is written to. -/
def temporaryOf (name : String) (pid sequence : Nat) : String :=
  "." ++ name ++ s!".tmp-{pid}-{sequence}"

/-- `replace_json` on a file of the root; a failure takes its temporary away. -/
def replaceJson (name temporary json : String) : FsProg Unit := do
  let replaced : Prog FsOp Disk IoError String Unit := do
    .perform (.createNew .root temporary) fun error => error.text
    .perform (.write .root temporary (.text json)) fun error => error.text
    .perform (.renameIn .root temporary name true) fun error => error.text
    .perform (.syncDir .root) fun error => error.text
  .perform (.createDirAll .root) fun error => error.text
  match ← replaced.attempt with
  | .ok () => .ret ()
  | .error error => do
    .performIgnoring (.removeFile .root temporary)
    .fail error

def writeProtection (pid sequence : Nat) : FsProg Unit :=
  .look fun disk => do
    let present ← .ofExcept (checkReceipt receipt binding (child disk.root installationMarker))
    let _ ← .ofExcept (checkReceipt receipt binding
      (child disk.root (backupName installationMarker)))
    if present then .ret ()
    else
      replaceJson installationMarker (temporaryOf installationMarker pid sequence)
        (receipt.render binding)

end Receipts

/-! ## Runs -/

/-- `manager.update`, from what the registry remembers of the drafts. -/
def updateDraft (isUuid : String → Bool) (remembered : List InstallationDraft) (id : String)
    (change : InstallationDraft → InstallationDraft) : InstallProg Unit :=
  match remembered.find? fun draft => draft.id = id with
  | none => .fail "La instalación no existe"
  | some draft =>
    match (change draft).validate isUuid with
    | .error reason => .fail reason
    | .ok () =>
      .perform (.saveDrafts (changeFirst id change remembered)) fun error => error.text

/-- The moments at which a run writes to its draft. -/
inductive Moment where
  | protection
  | started
  | ended
  deriving DecidableEq, Repr

/-- What a run takes from its surroundings, once it holds the prefix guard. -/
structure Execution where
  setup : SetupHost
  ctx : WineContext
  draft : InstallationDraft
  isUuid : String → Bool
  remembered : Moment → List InstallationDraft
  pid : Nat
  sequence : Nat
  /-- `missing_runtime_components_for_executable`. -/
  missing : List String
  programsActive : Bool
  /-- `map_destination`, which links the drive of the game. -/
  mapDestination : Entries → Except IoError Unit × Entries
  mappingKept : ∀ es, SameRecords (mapDestination es).2 es
  cancelled : Bool
  /-- The tool invocation and its graphics environment. -/
  invocation : Except String Unit
  /-- The installer, as long as it runs. -/
  installer : Entries → Except IoError Unit × Entries
  installerKept : ∀ es, SameRecords (installer es).2 es
  /-- `wait_installer`: the exit code, or nothing for a cancellation. -/
  waited : Except String (Option Int)
  termination : Except String Unit
  quiesce : Except String Unit

namespace Execution

variable (run : Execution)

/-- The draft, the path and the fingerprint of the run. -/
def binding : InstallationBinding where
  installationId := run.draft.id
  prefixPath := run.ctx.location.path.display
  prefixFingerprint := desiredIdentity run.ctx

def update (moment : Moment) (change : ExecutionUpdate) : InstallProg Unit :=
  updateDraft run.isUuid (run.remembered moment) run.draft.id change.apply

/-- The installer runs; then whatever happened is stopped, reaped and recorded. -/
def supervise : InstallProg Unit := do
  let noted ← (run.update .started .running).attempt
  .performIgnoring (.onDisk (.provision run.installer))
  match noted.bind fun _ => run.waited with
  | .error reason => do
    .ofExcept run.termination
    .ofExcept run.quiesce
    .fail reason
  | .ok none => do
    .ofExcept run.termination
    .ofExcept run.quiesce
    run.update .ended .interrupted
  | .ok (some code) => do
    .ofExcept run.quiesce
    run.update .ended (.exited code)

/-- A spawn that fails is cleaned up after. -/
def answerSpawn (spawned : Except String Unit) : InstallProg Unit :=
  match spawned with
  | .ok () => run.supervise
  | .error primary =>
    match run.quiesce with
    | .ok () => .fail primary
    | .error cleanup => .fail s!"{primary}. El cierre del entorno falló: {cleanup}"

def launchInstaller : InstallProg Unit := do
  let spawn : InstallProg Unit := .perform (.spawn run.binding) fun error => error.text
  .ofExcept run.invocation
  let spawned ← spawn.attempt
  run.answerSpawn spawned

/-- What follows the receipt. -/
def afterProtection : InstallProg Unit := do
  run.update .protection (.bound run.binding)
  if run.cancelled then do
    .ofExcept run.quiesce
    run.update .ended .interrupted
  else run.launchInstaller

/-- `run`, from the prefix guard on. -/
def underGuard (receipt : ReceiptSerde) : InstallProg Unit :=
  .look fun w => do
    let _ ← .ofExcept (validateRuntimePrefix run.setup run.ctx w.disk.root)
    if run.missing ≠ [] then .fail (" · ".intercalate run.missing)
    else if run.programsActive then
      .fail "Todavía hay programas usando este entorno. Ciérralos antes de volver a ejecutar el instalador"
    else do
      .onlyIf run.draft.destinationPath.isSome
        (.perform (.onDisk (.provision run.mapDestination)) fun error => error.text)
      -- Protection comes before any of the installer's code, failure and cancellation included.
      (writeProtection receipt run.binding run.pid run.sequence).on onDisk
      run.afterProtection

end Execution

/-- What `confirm` takes from its surroundings, once it holds the prefix guard. -/
structure Confirmation where
  setup : SetupHost
  ctx : WineContext
  draft : InstallationDraft
  binding : InstallationBinding
  isUuid : String → Bool
  remembered : List InstallationDraft
  pid : Nat
  sequence : Nat
  programsActive : Bool
  /-- The executable and the patcher of the server are there. -/
  serverReady : Except String Unit
  /-- `insert_installed`. -/
  inserted : Except String Unit

/-- The completed draft. -/
def completed (draft : InstallationDraft) : InstallationDraft := { draft with status := .completed }

namespace Confirmation

variable (confirm : Confirmation)

/-- What follows the receipt: the server comes first. -/
def afterProtection : InstallProg Unit := do
  .ofExcept confirm.inserted
  updateDraft confirm.isUuid confirm.remembered confirm.draft.id completed

/-- `confirm`, from the prefix guard on. -/
def underGuard (receipt : ReceiptSerde) : InstallProg Unit :=
  .look fun w => do
    let _ ← .ofExcept (validateRuntimePrefix confirm.setup confirm.ctx w.disk.root)
    if confirm.programsActive then
      .fail "Todavía hay programas usando el entorno de instalación"
    else do
      .ofExcept confirm.serverReady
      (writeProtection receipt confirm.binding confirm.pid confirm.sequence).on onDisk
      confirm.afterProtection

end Confirmation

/-! ## Processes of a prefix -/

/-- The programs that may be entered, one at a time, under the guard of a prefix. -/
inductive PrefixEntry (receipt : ReceiptSerde) : World → InstallProg Unit → Prop
  | installation {w : World} (run : Execution) : PrefixEntry receipt w (run.underGuard receipt)
  | confirmation {w : World} (confirm : Confirmation) :
      PrefixEntry receipt w (confirm.underGuard receipt)
  | setup {w : World} (setup : SetupHost) (ctx : WineContext) (process : Process) (work : Work) :
      PrefixEntry receipt w ((setupUnderGuard setup ctx process work).on onDisk)
  | reset {w : World} (setup : SetupHost) (ctx : WineContext) (process : Process)
      (shutdown : Except String Unit) (work : Work) :
      PrefixEntry receipt w ((resetUnderGuard setup ctx process shutdown work).on onDisk)
  | recovery {w : World} (host : Host) (around : Surroundings) (paths : ManagedPaths)
      (location : PrefixLocation) (desired : Option String) (active : Nat) :
      PrefixEntry receipt w
        ((recoverWithGuardHeld host around paths location desired active).discard.on onDisk)
  | residue {w : World} (host : Host) (around : Surroundings) (paths : ManagedPaths)
      (location : PrefixLocation) (desired : Option String) (active : Nat) :
      PrefixEntry receipt w
        ((recoverResidueWithGuardHeld host around paths location desired active).discard.on onDisk)
  /-- A program of the game, which leaves the launcher's records alone. -/
  | game {w : World} (play : Entries → Except IoError Unit × Entries)
      (kept : ∀ es, SameRecords (play es).2 es) :
      PrefixEntry receipt w (.performIgnoring (.onDisk (.provision play)))
  /-- The receipt is lost, but not its backup. -/
  | receiptLost {w : World} (backup : (child w.disk.root (backupName installationMarker)).isSome) :
      PrefixEntry receipt w (.performIgnoring (.onDisk (.removeFile .root installationMarker)))
  /-- Drafts of other prefixes were written to. -/
  | elsewhere {w : World} (drafts : List InstallationDraft) :
      PrefixEntry receipt w (.performIgnoring (.saveDrafts drafts))

end RoLauncher.Installations
