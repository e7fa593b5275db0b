import RoLauncher.Artifacts.Runtime

/-!
# Installing an artifact (`tools/artifacts/install.rs`, `import.rs`)

The programs of the installer, in the order of the source. Reports are left
out: they go to the log and change nothing. Every writer holds the guard of the
runtime directory, so what a program has read stays so until it acts.

A tree is activated by `import_archive_locked` only, out of a staging directory
that this same call has made and filled. A download makes a work directory of
its own, fills it, and hands over to that import.
-/

namespace RoLauncher.Artifacts

open RoLauncher.Files RoLauncher.Crash

/-- The plan permits repairing only supporting artifacts with positive receipt identity. -/
inductive ExistingTargetPolicy where
  | refuse
  | replaceNotReady
  deriving DecidableEq, Repr

def policy (descriptor : ArtifactDescriptor) : ExistingTargetPolicy :=
  match descriptor.kind with
  | .umuLauncher | .dxvk => .replaceNotReady
  | _ => .refuse

/-- A call whose only effect is to read. -/
def reading {α : Type} (ok : Runtime → InstallProg α) (failed : String → InstallProg α) :
    InstallProg α :=
  .act .read fun
    | .ok () => .look ok
    | .error e => failed e

def run (o : InstallOp) : InstallProg Unit := Prog.perform o id

def Place.display : Place → String
  | .top name => name
  | .inner wrapper name => wrapper ++ "/" ++ name

def ambiguity (place : Place) : String :=
  s!"{place.display} contiene datos ajenos o ambiguos; se conservó sin sustituirlo. Revisa esta ruta antes de reintentar"

section Programs

variable (catalog : Catalog) (descriptor : ArtifactDescriptor) (temp : ReceiptTemp)

/-- `artifact_cache_state_at`: what cannot be read is not ready. -/
def artifactCacheStateAt (place : Place) : InstallProg ArtifactCacheState :=
  reading (fun s =>
    match s.get place with
    | none => .ret .missing
    | some (.dir _ _ es) =>
      reading (fun _ =>
        match parseStoredReceipt catalog (Entries.find es MARKER_FILE) with
        | .ok (some stored) =>
          if !storedIdentityMatchesDescriptor descriptor stored then .ret .receiptMismatch
          else
            reading (fun _ =>
              .ret (if catalog.payloadReady descriptor es then .ready else .incompletePayload))
              fun _ => .ret .incompletePayload
        | _ => .ret .invalidReceipt)
        fun _ => .ret .invalidReceipt
    | some _ => .ret .invalidDirectory)
    fun _ => .ret .invalidDirectory

/-- `matching_receipt` of an entry below a place: what cannot be read does not match. -/
def matchingReceiptAt (entry : Option Node) : InstallProg Bool :=
  reading (fun _ => .ret (matchingReceipt catalog descriptor entry)) fun _ => .ret false

def classify (place : Place) : InstallProg Tree :=
  reading (fun s =>
    match s.get place with
    | none => .ret .absent
    | some (.dir _ _ es) =>
      reading (fun _ =>
        if (Entries.find es CLEANUP).isSome then
          reading (fun _ =>
            if (Entries.find es MARKER_FILE).isNone then do
              let matching ← matchingReceiptAt catalog descriptor (Entries.find es CLEANUP)
              .ret (if matching then .cleanup else .foreign)
            else .ret .foreign) .fail
        else do
          let matching ← matchingReceiptAt catalog descriptor (Entries.find es MARKER_FILE)
          if !matching then .ret .foreign
          else
            let state ← artifactCacheStateAt catalog descriptor place
            .ret (if state = .ready then .ready else .ownedIncomplete)) .fail
    | some _ => .ret .foreign) .fail

/-- `replace_json` of the receipt: a private temporary file, then one rename. -/
def writeReceipt (place : Place) : InstallProg Unit := do
  run .read
  let written ← Prog.attempt do
    run (.createNew place temp.name)
    run (.write place temp.name
      (.text (catalog.renderReceipt (receiptV2FromDescriptor descriptor))))
    run (.renameIn place temp.name MARKER_FILE true)
    run .read
  match written with
  | .ok () => .ret ()
  | .error (e : String) => do
    Prog.performIgnoring (.removeFile place temp.name)
    .fail e

/-- Errors of this call are only reported by its caller. -/
def elevateV1 (place : Place) : InstallProg Unit := do
  let state ← artifactCacheStateAt catalog descriptor place
  if state ≠ .ready then .ret ()
  else
    reading (fun s =>
      match parseStoredReceipt catalog (child (s.get place) MARKER_FILE) with
      | .ok (some (.v1 marker)) =>
        if runtimeMarkerV1Matches descriptor marker then writeReceipt catalog descriptor temp place
        else .ret ()
      | .ok _ => .ret ()
      | .error e => .fail e) .fail

/-- `is_dir` of a directory entry, which never follows a link. -/
def isDirEntry (entry : Option Node) : Bool := entryKind entry = .directory

def listing (node : Option Node) : List String :=
  match node with
  | some (.dir _ _ es) => Entries.names es
  | _ => []

/-- The payload goes first, the tombstone last, and then the empty directory. -/
def cleanupTree (name : String) : InstallProg Unit := do
  run .read
  .look fun s => do
    (listing (s.get (.top name))).forM fun entry =>
      if entry = CLEANUP then .ret ()
      else
        reading (fun s =>
          if isDirEntry (child (s.get (.top name)) entry) then run (.removeDirAll (.top name) entry)
          else run (.removeFile (.top name) entry)) .fail
    run .read
    run (.removeFile (.top name) CLEANUP)
    run (.removeDir name)
    run .read

/-- The receipt leaves the ready namespace before the payload is deleted, so even a partly deleted
tree stays cleanup-only. -/
def cleanupOwned (name : String) : InstallProg Unit := do
  match ← classify catalog descriptor (.top name) with
  | .absent => .ret ()
  | .ready | .ownedIncomplete =>
    run (.renameIn (.top name) MARKER_FILE CLEANUP false)
    run .read
    cleanupTree name
  | .cleanup => cleanupTree name
  | .foreign => .fail (ambiguity (.top name))

/-- Idempotent recovery. The canonical generation always wins. No rollback, including errors. -/
def recover : InstallProg Unit := do
  let finalState ← classify catalog descriptor (.top descriptor.id)
  let slotState ← classify catalog descriptor (.top (activationSlot descriptor))
  if finalState = .foreign ∨ finalState = .cleanup then .fail (ambiguity (.top descriptor.id))
  else
    match slotState with
    | .absent => .ret ()
    | .foreign =>
      if finalState = .ready then .ret () else .fail (ambiguity (.top (activationSlot descriptor)))
    | _ => cleanupOwned catalog descriptor (activationSlot descriptor)

def cleanWork (name : String) : InstallProg Unit := do
  let _ ← (Prog.attempt (cleanupOwned catalog descriptor name) : InstallProg (Except String Unit))
  .ret ()

def allDigits (text : List Char) : Bool := !text.isEmpty && text.all Char.isDigit

/-- `strip_prefix` and `split_once('-')`. -/
def exactSuffix (name start : String) : Bool :=
  start.toList.isPrefixOf name.toList &&
    (let suffix := name.toList.drop start.length
    suffix.contains '-' && allDigits (suffix.takeWhile (· ≠ '-')) &&
      allDigits ((suffix.dropWhile (· ≠ '-')).drop 1))

def isWork (name : String) : Bool :=
  ["staging", "import", "download"].any
      (fun kind => exactSuffix name ("." ++ descriptor.id ++ "." ++ kind ++ "-")) ||
    exactSuffix name ("." ++ descriptor.archiveName ++ ".download-")

/-- Historical backup names contain only a timestamp. -/
def isPrevious (name : String) : Bool :=
  let start := "." ++ descriptor.id ++ ".previous-"
  start.toList.isPrefixOf name.toList && allDigits (name.toList.drop start.length)

/-- Names select candidates, they never grant ownership. -/
def sweepResidue : InstallProg Unit := do
  run .read
  .look fun s =>
    s.entries.names.forM fun name =>
      if !isWork descriptor name && !isPrevious descriptor name then .ret ()
      else do
        let kept ← if isPrevious descriptor name then do
            let state ← artifactCacheStateAt catalog descriptor (.top descriptor.id)
            .ret (decide (state ≠ .ready))
          else .ret false
        if kept then .ret () else cleanWork catalog descriptor name

def inspectTarget (policy : ExistingTargetPolicy) : InstallProg Bool := do
  match ← classify catalog descriptor (.top descriptor.id) with
  | .ready => do
    let _ ← (Prog.attempt (elevateV1 catalog descriptor temp (.top descriptor.id)) :
      InstallProg (Except String Unit))
    .ret false
  | .absent => .ret true
  | .ownedIncomplete =>
    if policy = .replaceNotReady then .ret true else .fail (ambiguity (.top descriptor.id))
  | _ => .fail (ambiguity (.top descriptor.id))

/-- Sweep only before acquisition: the active owner's work directories must never be swept. -/
def needsInstall (policy : ExistingTargetPolicy) : InstallProg Bool := do
  recover catalog descriptor
  sweepResidue catalog descriptor
  inspectTarget catalog descriptor temp policy

/-- The extracted payload is private and owned by the caller. -/
def prepare (extracted : Place) : InstallProg Unit := do
  let invalid : InstallProg Unit :=
    .fail "El árbol preparado no es un payload privado válido sin receipt previo"
  reading (fun s =>
    match s.get extracted with
    | some (.dir _ _ es) =>
      if !catalog.payloadReady descriptor es then invalid
      else
        reading (fun _ =>
          if (Entries.find es MARKER_FILE).isSome || (Entries.find es CLEANUP).isSome then invalid
          else do
            writeReceipt catalog descriptor temp extracted
            let state ← artifactCacheStateAt catalog descriptor extracted
            if state ≠ .ready then .fail "El árbol preparado no superó la clasificación Ready"
            else .ret ()) .fail
    | _ => invalid) fun _ => invalid

def commit (replace : Bool) : InstallProg Unit := do
  let slot := activationSlot descriptor
  let failed := fun error : String => s!"No se pudo activar {descriptor.id} atómicamente: {error}"
  let state ← artifactCacheStateAt catalog descriptor (.top slot)
  if state ≠ .ready then .fail "El slot preparado no está Ready"
  else
    if replace then
      let finalState ← classify catalog descriptor (.top descriptor.id)
      if finalState ≠ .ready ∧ finalState ≠ .ownedIncomplete then
        .fail (ambiguity (.top descriptor.id))
      else Prog.perform (.exchange slot descriptor.id) failed
    else Prog.perform (.rename (.top slot) descriptor.id) failed
    -- The commit is crossed: nothing below may restore the generation that was exchanged out.
    Prog.perform .read
      fun error => s!"{descriptor.id} quedó activado; falló fsync del padre: {error}"

/-- The sole entry point of local imports and of downloads. -/
def activate (extracted : Place) (policy : ExistingTargetPolicy) : InstallProg Unit := do
  let slot := activationSlot descriptor
  let state ← artifactCacheStateAt catalog descriptor extracted
  if state ≠ .ready then .fail "No se puede activar un árbol que no esté Ready"
  else
    recover catalog descriptor
    let finalState ← classify catalog descriptor (.top descriptor.id)
    if finalState = .ready then .ret ()
    else if finalState = .absent ∨ finalState = .ownedIncomplete ∧ policy = .replaceNotReady then
      Prog.perform (.rename extracted slot)
        fun error => s!"No se pudo reservar {slot} sin sustituir datos: {error}"
      let result ← Prog.attempt do
        run .read
        run .read
        let finalState ← classify catalog descriptor (.top descriptor.id)
        if finalState = .absent then commit catalog descriptor false
        else if finalState = .ownedIncomplete ∧ policy = .replaceNotReady then
          commit catalog descriptor true
        else .fail (ambiguity (.top descriptor.id))
      -- An ordinary failure uses precisely the recovery of the next process.
      match ← Prog.attempt (recover catalog descriptor), result with
      | .error (error : String), .error (primary : String) =>
        .fail s!"{primary}; recuperación: {error}"
      | .error error, .ok () => .fail error
      | .ok (), .error primary => .fail primary
      | .ok (), .ok () => .ret ()
    else .fail (ambiguity (.top descriptor.id))

/-- The receipt in a work directory is evidence of ownership, written before anything else. -/
def createWork (name : String) : InstallProg Unit := do
  run (.createDir name)
  writeReceipt catalog descriptor temp (.top name)
  run .read

end Programs

/-! ## Importing a package -/

/-- One call of `import_archive_locked`: the package, and what the process puts into names. -/
structure ImportCall where
  /-- The package is opened, and is a regular file of the expected size. -/
  opened : Except String Unit
  archive : Blob
  /-- The size that was copied, and the digest of the copy. -/
  verified : Except String Unit
  extract : Entries → Except String Unit × Entries
  pid : Nat
  unique : Nat
  /-- The numbers that its receipts draw from `TEMP_FILE_SEQUENCE`. -/
  sequence : Nat → Nat

/-- A work directory, named by its process and `unique_suffix`. -/
def workName (descriptor : ArtifactDescriptor) (kind : String) (pid unique : Nat) : String :=
  "." ++ descriptor.id ++ "." ++ kind ++ "-" ++ toString pid ++ "-" ++ toString unique

/-- What the importer has created beside the snapshot directory. -/
structure ImportCleanup where
  snapshot : Bool
  staging : Bool

section Import

variable (catalog : Catalog) (descriptor : ArtifactDescriptor) (call : ImportCall)

namespace ImportCall

def temp (n : Nat) : ReceiptTemp := ⟨call.pid, call.sequence n⟩

def snapshotDirectory : String := workName descriptor "import" call.pid call.unique

def staging : String := workName descriptor "staging" call.pid call.unique

end ImportCall

/-- `ImportCleanup::drop`. -/
def ImportCleanup.drop (cleanup : ImportCleanup) : InstallProg Unit := do
  Prog.onlyIf cleanup.snapshot
    (Prog.performIgnoring (.removeFile (.top (call.snapshotDirectory descriptor)) descriptor.archiveName))
  Prog.onlyIf cleanup.staging (cleanWork catalog descriptor (call.staging descriptor))
  cleanWork catalog descriptor (call.snapshotDirectory descriptor)

/-- The call ends with this answer, when what it created is dropped. -/
def leave (cleanup : ImportCleanup) (answer : Except String Unit) : InstallProg Unit := do
  cleanup.drop catalog descriptor call
  Prog.ofExcept answer

/-- The copy that `snapshot_archive` makes, once the file is there. -/
def copySnapshot : InstallProg Unit := do
  Prog.perform (.write (.top (call.snapshotDirectory descriptor)) descriptor.archiveName call.archive)
    fun error => s!"No se pudo copiar el runtime: {error}"
  Prog.ofExcept call.verified

/-- The staging directory is there. -/
def installExtracted : InstallProg Unit := do
  let extracted := Place.inner (call.staging descriptor) descriptor.archiveRoot
  run (.fill (call.staging descriptor) call.extract)
  prepare catalog descriptor (call.temp 3) extracted
  activate catalog descriptor extracted (policy descriptor)

/-- The snapshot is verified, and the tree is needed. -/
def installSnapshot : InstallProg Unit := do
  match ← Prog.attempt (createWork catalog descriptor (call.temp 2) (call.staging descriptor)) with
  | .error (error : String) => leave catalog descriptor call ⟨true, false⟩ (.error error)
  | .ok () => do
    let result ← Prog.attempt (installExtracted catalog descriptor call)
    leave catalog descriptor call ⟨true, true⟩ result

/-- The snapshot directory is there. -/
def importSnapshot (needed : Bool) : InstallProg Unit := do
  let created ← Prog.attempt (Prog.perform
    (.createNew (.top (call.snapshotDirectory descriptor)) descriptor.archiveName)
    fun error => s!"No se pudo crear el snapshot del runtime: {error}")
  match created with
  | .error (error : String) => leave catalog descriptor call ⟨false, false⟩ (.error error)
  | .ok () => do
    match ← Prog.attempt (copySnapshot descriptor call) with
    | .error (error : String) => leave catalog descriptor call ⟨true, false⟩ (.error error)
    | .ok () =>
      if !needed then leave catalog descriptor call ⟨true, false⟩ (.ok ())
      else installSnapshot catalog descriptor call

/-- The owner swept before acquisition: sweeping now could delete its live download wrapper. -/
def importArchiveLocked : InstallProg Unit := do
  Prog.ofExcept call.opened
  Prog.perform .read fun error => s!"No se pudo preparar el directorio de runtimes: {error}"
  recover catalog descriptor
  let needed ← inspectTarget catalog descriptor (call.temp 0) (policy descriptor)
  createWork catalog descriptor (call.temp 1) (call.snapshotDirectory descriptor)
  importSnapshot catalog descriptor call needed

end Import

end RoLauncher.Artifacts
