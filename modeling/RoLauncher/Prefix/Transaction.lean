import RoLauncher.Prefix.Recover

/-!
# The managed transaction (`run_managed_transaction`)

One provisioning transaction of a managed root: for a reset the old prefix is
first moved to `B`; then `R` is created with `P` in it, provisioned, and
flushed; `P` is revoked into `C`; and the manifest is committed
(`commit_prefix_manifest` of `utils/prefix.rs`). A failure on the way is
reconciled by the same `recover` that runs after a crash.

`forward` is the part that can fail and `rollback` the part that answers a
failure: the source keeps between them only the authority that the process
still holds, and so does the error of `forward`.

The engine that fills the root, and the process that runs all this, are
parameters: `Work` and `Process`. The engine writes what it likes except the
launcher's own records; what it still writes while it is being stopped counts
as part of `provision`.
-/

namespace RoLauncher.Prefix

open RoLauncher.Files RoLauncher.Crash

/-- What a managed transaction needs from its provisioning engine. -/
structure Work where
  /-- What the engine does to the root's entries, and the result it reports. -/
  provision : Entries → Except IoError Unit × Entries
  recordsKept : ∀ es, SameRecords (provision es).2 es
  /-- End execution and wait until no process uses the prefix. -/
  quiesce : Except String Unit
  /-- The same, repeated on the way out of a failure. -/
  quiesceAgain : Except String Unit
  annotateFailure : String → String
  /-- The final manifest, or why it cannot be written (wrong schema, not serializable). -/
  manifest : Except String String

/-- What the transaction takes from the process that runs it. -/
structure Process where
  pid : Nat
  /-- The clock when `P` is written. -/
  createdAtMs : Nat
  /-- The clock when the manifest is committed; a clock before the epoch is an error. -/
  commitNanos : Except String Nat
  /-- Processes found in the prefix when recovery counts them. -/
  active : Nat

inductive TransactionKind where
  | initialSetup
  | reset
  deriving DecidableEq, Repr

/-- On which side of the commit point a manifest write failed. -/
inductive ManifestCommitError where
  | beforeRename (message : String)
  | afterRename (message : String)
  deriving DecidableEq, Repr

/-- In-process rollback authority of one managed transaction. -/
inductive Authority where
  /-- `P` was never revoked: ordinary recovery may discard the partial root. -/
  | held
  /-- `P` may have become `C`, but the manifest rename provably never happened. -/
  | reinstatable
  /-- The manifest rename succeeded: this process never rolls back again. -/
  | revoked
  deriving DecidableEq, Repr

/-! ## Committing the manifest -/

def isSymlink : Option Node → Bool
  | some (.symlink _) => true
  | _ => false

def manifestTemporary (process : Process) (nanos : Nat) : String :=
  ".ro-launcher-prefix.tmp-" ++ (toString process.pid ++ "-" ++ toString nanos)

abbrev CommitProg := Prog FsOp Disk IoError ManifestCommitError Unit

/-- The failure before the commit point also removes the temporary, whether or not that works. -/
def abandonTemporary (temporary : String) (error : IoError) : CommitProg := do
  .performIgnoring (.removeFile .root temporary)
  .fail (.beforeRename error.text)

/-- Write a temporary, sync it, rename it over the final name, then sync the directory. -/
def commitPrefixManifest (process : Process) (json : String) : CommitProg := do
  .perform (.createDirAll .root) fun error => .beforeRename error.text
  .look fun disk =>
    if (child disk.root provisioningMarker).isSome then
      .fail (.beforeRename
        "El entorno aún conserva la autorización de reversión; no se confirmará")
    else if isSymlink (child disk.root prefixMarker) then
      .fail (.beforeRename "El manifiesto del entorno no puede ser un symlink")
    else
      match process.commitNanos with
      | .error error => .fail (.beforeRename error)
      | .ok nanos => do
        let temporary := manifestTemporary process nanos
        .perform (.createNew .root temporary) fun error => .beforeRename error.text
        .act (.write .root temporary (.text json)) fun
          | .error error => abandonTemporary temporary error
          | .ok () =>
            .act (.renameIn .root temporary prefixMarker true) fun
              | .error error => abandonTemporary temporary error
              | .ok () =>
                -- Commit point crossed: from here every failure is `afterRename`.
                .perform (.syncDir .root) fun error => .afterRename
                  s!"El manifiesto se escribió, pero no se pudo sincronizar el directorio del entorno: {error.text}"

def Work.commit (work : Work) (process : Process) : CommitProg :=
  match work.manifest with
  | .error reason => .fail (.beforeRename reason)
  | .ok json => commitPrefixManifest process json

/-! ## The steps of a transaction -/

def isProtectedAt : Option Node → Bool
  | some (.dir _ _ es) => isProtected es
  | _ => false

namespace ManagedPrefix

variable (host : Host) (pfx : ManagedPrefix)

def rootClass (disk : Disk) : RootState :=
  classifyRoot host pfx.location (pfx.identity host disk.root) disk.root

/-- Move a committed or legacy-valid prefix to the single fixed backup. Returns whether a prefix
was preserved. -/
def preserveForReset : FsProg Bool := .look fun disk =>
  match pfx.rootClass host disk with
  | .absent => .ret false
  | .empty => do
    .perform (.removeDir .root) (pfx.io "retirar el directorio vacío")
    pfx.syncParent
    return false
  | .committed false | .legacyValid =>
    if entryKind disk.backup ≠ .missing then
      .fail (pfx.ambiguity "ya existe un respaldo pendiente")
    else if isProtectedAt disk.root then
      .fail
        "Este entorno contiene una instalación de juego y no puede reconstruirse automáticamente"
    else do
      .perform (.rename .root .backup) (pfx.io "preservar el entorno anterior")
      pfx.syncParent
      return true
  | other =>
    .fail s!"El entorno {pfx.root.display} no está en un estado confirmado ({other.debug}); no se reconstruirá"

/-- The identity `P` records: the full digest for a v3 path, which it must address. -/
def transactionIdentity (desired : String) : Except String (Option String) :=
  match v3PathSuffix host pfx.location with
  | none => .ok none
  | some suffix =>
    if !isFullDigest desired || v3PathDigestPrefix24 desired ≠ suffix then
      .error s!"La identidad deseada no corresponde a la ruta v3 {pfx.root.display}; no se preparará"
    else .ok (some desired)

def provisioningRecord (process : Process) (fingerprint : Option String) : ProvisioningMarker :=
  { schemaVersion := markerSchema
    scope := pfx.location.scope
    serverId := pfx.location.serverId
    prefixPath := pfx.location.path
    prefixFingerprint := fingerprint
    createdAtMs := process.createdAtMs }

/-- `P` as it is written. -/
def recordBlob (process : Process) (fingerprint : Option String) : Blob :=
  .text (host.serde.renderMarker (pfx.provisioningRecord process fingerprint))

/-- Create, or adopt already empty, the canonical root. -/
def openRoot : FsProg Unit := .look fun disk =>
  match pfx.rootClass host disk with
  | .absent => .perform (.createDir .root) (pfx.io "crear el entorno")
  | .empty => .ret ()
  | other =>
    .fail s!"El entorno {pfx.root.display} ya contiene datos ({other.debug}); no se iniciará una preparación limpia"

/-- Make `P` durable in the root, through its fixed temporary. -/
def writeRecord (data : Blob) : FsProg Unit := do
  .perform (.createNew .root provisioningMarkerTmp) (pfx.io "crear el marcador de preparación")
  .perform (.write .root provisioningMarkerTmp data) (pfx.io "escribir el marcador de preparación")
  .perform (.renameIn .root provisioningMarkerTmp provisioningMarker false)
    (pfx.io "activar el marcador de preparación")
  .perform (.syncDir .root) (pfx.io "sincronizar el marcador de preparación")

def beginProvisioning (process : Process) (fingerprint : String) : FsProg Unit := do
  let prefixFingerprint ← .ofExcept (pfx.transactionIdentity host fingerprint)
  .perform .createParent (pfx.io "crear el directorio de entornos")
  pfx.openRoot host
  pfx.syncParent
  pfx.writeRecord (pfx.recordBlob host process prefixFingerprint)

def syncPayload : FsProg Unit :=
  .perform (.syncFilesystem .root) (pfx.io "sincronizar el entorno nuevo")

/-- Pre-commit boundary: after this no evidence in `R` authorizes deleting it. -/
def revokeRollbackAuthority : FsProg Unit := do
  .perform (.renameIn .root provisioningMarker commitPendingMarker false)
    (pfx.io "revocar la autorización de reversión")
  .perform (.syncDir .root) (pfx.io "sincronizar la revocación de reversión")

/-- In-process only: `C -> P`. A no-op when the revocation never renamed `P` to `C`. -/
def reinstateRollbackAuthority : FsProg Unit :=
  let io := pfx.io "restituir la autorización de reversión"
  .look fun disk =>
    if entryKind (child disk.root commitPendingMarker) ≠ .file ||
        entryKind (child disk.root provisioningMarker) ≠ .missing then .ret ()
    else do
      .perform (.renameIn .root commitPendingMarker provisioningMarker false) io
      .perform (.syncDir .root) io

end ManagedPrefix

/-! ## The transaction -/

section Transaction

variable (host : Host) (pfx : ManagedPrefix) (process : Process) (fingerprint : String) (work : Work)

/-- From the accepted root to the committed one. -/
def provisionAndCommit : Prog FsOp Disk IoError (Authority × String) Unit := do
  .perform (.provision work.provision) fun error => (.held, error.text)
  .ofExcept (work.quiesce.mapError fun message => (.held, message))
  pfx.syncPayload.mapError fun message => (.held, message)
  -- From here the root may become committed at any moment: rollback authority goes first.
  pfx.revokeRollbackAuthority.mapError fun message => (.reinstatable, message)
  (work.commit process).mapError fun
    | .beforeRename message => (.reinstatable, message)
    | .afterRename message => (.revoked, message)

/-- The fallible part; a failure carries the authority the process holds then. -/
def forward : Prog FsOp Disk IoError (Authority × String) Unit := do
  (pfx.beginProvisioning host process fingerprint).mapError fun message => (.held, message)
  provisionAndCommit pfx process work

/-- Report a failure together with what recovery made of it. -/
def reconcile {α : Type} (primary : String) : FsProg α := do
  match ← (recover host pfx process.active).attempt with
  | .ok outcome =>
    if outcome.action = .none then .fail primary
    else .fail s!"{primary}. {outcome.summary pfx.parent}"
  | .error recovery => .fail s!"{primary}. {recovery}"

/-- What the process does with a failure of `forward`. -/
def rollback {α : Type} (authority : Authority) (primary : String) : FsProg α :=
  let primary := work.annotateFailure primary
  match work.quiesceAgain with
  | .error cleanup =>
    .fail s!"{primary}\nLimpieza pendiente: {cleanup}; el entorno se conservó y se recuperará antes de la próxima operación"
  | .ok () =>
    match authority with
    | .reinstatable => do
      match ← pfx.reinstateRollbackAuthority.attempt with
      | .ok () => reconcile host pfx process primary
      | .error error => .fail s!"{primary}. {error}"
    | _ => reconcile host pfx process primary

/-- The transaction once the old prefix, if any, is out of the way: its outcome is the result of
the cleanup after the commit. -/
def transact : FsProg (Except String RecoveryOutcome) := do
  match ← (forward host pfx process fingerprint work).attempt with
  | .ok () => (recover host pfx process.active).attempt
  | .error (authority, primary) => rollback host pfx process work authority primary

/-- A refused reset changed nothing; one that failed after the rename is restored by recovery. -/
def refuseReset {α : Type} (primary : String) : FsProg α := .look fun disk =>
  if pfx.rootClass host disk = .absent && entryKind disk.backup ≠ .missing then
    reconcile host pfx process primary
  else .fail primary

def runManagedTransaction (kind : TransactionKind) : FsProg (Except String RecoveryOutcome) :=
  match kind with
  | .initialSetup => transact host pfx process fingerprint work
  | .reset => do
    match ← (pfx.preserveForReset host).attempt with
    | .error primary => refuseReset host pfx process primary
    | .ok _ => transact host pfx process fingerprint work

end Transaction

/-! ## A sample transaction -/

def sampleProcess : Process := { pid := 7, createdAtMs := 0, commitNanos := .ok 0, active := 0 }

/-- An engine that sets up managed DXVK, and nothing else. -/
def sampleWork : Work where
  provision es := (.ok (), es.put ".ro-launcher-dxvk" (.dir 5 0 []))
  recordsKept es name record := by
    refine Entries.find_put_of_ne ?_
    rintro rfl
    revert record
    decide
  quiesce := .ok ()
  quiesceAgain := .ok ()
  annotateFailure message := message
  manifest := .ok "M"

end RoLauncher.Prefix
