import Mathlib.Data.List.Sort
import RoLauncher.Prefix.Disk

/-!
# Recovery (`ManagedPrefix::recover`)

`recover` looks once, decides (`assess`, pure), and carries the decision out
(`execute`) call by call. The programs are the source's functions under the
source's names; the number of processes that use the prefix is an argument,
because `ensure_quiet` counts them when it runs.

A directory that a loop deletes is listed when the loop starts. Each error
text is the source's; the caller's `map_err` is an argument of the two
helpers that several callers share.
-/

namespace RoLauncher.Prefix

open RoLauncher.Files RoLauncher.Crash

/-! ## What recovery looks at -/

def isAsciiDigit (c : Char) : Bool := c.isDigit

/-- `.<name>.reset-backup-<pid>-<millis>`, written by builds before the fixed backup. -/
def isLegacyBackupName (name file : String) : Bool :=
  match stripPrefix ("." ++ name ++ "." ++ resetBackupSuffix ++ "-").toList file.toList with
  | none => false
  | some rest =>
    match rest.span (· ≠ '-') with
    | (pid, _ :: millis) =>
      !pid.isEmpty && !millis.isEmpty && pid.all isAsciiDigit && millis.all isAsciiDigit
    | (_, []) => false

/-- The siblings with such a name, sorted. -/
def legacyResetBackups (pfx : ManagedPrefix) (disk : Disk) : List String :=
  (disk.siblings.names.filter (isLegacyBackupName pfx.name)).insertionSort fun a b => ¬ b < a

def rootEvidence : List String :=
  [provisioningMarker, provisioningMarkerTmp, commitPendingMarker]

/-- What a tree holds besides the markers of a transaction. -/
def payload (es : Entries) : Entries := es.filter fun e => !rootEvidence.contains e.1

theorem find_payload {es : Entries} {name : String} (h : name ∉ rootEvidence) :
    (payload es).find name = es.find name :=
  Entries.find_filter_of_pos (k := fun n => !rootEvidence.contains n) (by simpa using h)

theorem payload_erase {es : Entries} {name : String} (h : name ∈ rootEvidence) :
    payload (es.erase name) = payload es :=
  Entries.filter_erase (k := fun n => !rootEvidence.contains n) (by simpa using h)

/-- `R` holds a fixed transaction marker (`P`, its temporary, or `C`). -/
def rootHoldsTransactionEvidence (root : Option Node) : Bool :=
  rootEvidence.any fun name => (child root name).isSome

/-- The `Debug` rendering that the refusals quote. -/
def RootState.debug : RootState → String
  | .absent => "Absent"
  | .empty => "Empty"
  | .pendingMarker => "PendingMarker"
  | .provisioning => "Provisioning"
  | .commitPending => "CommitPending"
  | .committed stale => "Committed \x7b stale_marker: " ++ (if stale then "true" else "false") ++ " \x7d"
  | .legacyValid => "LegacyValid"
  | .foreign reason => "Foreign(\"" ++ reason ++ "\")"

namespace ManagedPrefix

def io (pfx : ManagedPrefix) (action : String) (error : IoError) : String :=
  s!"No se pudo {action} durante la recuperación de {pfx.root.display}: {error.text}. Los datos restantes se conservaron"

def ambiguity (pfx : ManagedPrefix) (reason : String) : String :=
  s!"El entorno {pfx.root.display} tiene un estado de preparación interrumpida que no puede resolverse con seguridad ({reason}). Se conservaron {pfx.root.display} y {pfx.backup.display} sin modificarlos; revísalos antes de volver a preparar"

end ManagedPrefix

/-- Everything recovery decides before it changes anything. -/
structure Assessment where
  rootState : RootState
  /-- The class of the backup; an empty one counts as absent. -/
  backupState : BackupState
  removedEmptyBackup : Bool
  legacy : List String
  action : RecoveryAction

/-- The backup's class as recovery plans with it: an empty one is removed first. -/
def plannedBackup (state : BackupState) : BackupState :=
  if state = .empty then .absent else state

/-- The timestamped backups that could be restored: consulted only for a root without data. -/
def legacyRestorable (host : Host) (pfx : ManagedPrefix) (disk : Disk)
    (identity : Option V3Identity) (rootState : RootState) (backupState : BackupState) :
    List String :=
  if (rootState = .absent ∨ rootState = .empty) ∧ backupState = .absent then
    (legacyResetBackups pfx disk).filter fun name =>
      classifyBackup host disk.parentDev pfx.location identity (disk.siblings.find name)
        = .restorable
  else []

def assess (host : Host) (pfx : ManagedPrefix) (disk : Disk) : Except String Assessment :=
  let identity := pfx.identity host disk.root
  let rootState := classifyRoot host pfx.location identity disk.root
  let seen := classifyBackup host disk.parentDev pfx.location identity disk.backup
  let backupState := plannedBackup seen
  match plan rootState backupState
      (legacyRestorable host pfx disk identity rootState backupState) with
  | .error reason => .error (pfx.ambiguity reason)
  | .ok action =>
    -- Fixed evidence that no row can act on safely is never reported as reconciled.
    if action = .none && rootHoldsTransactionEvidence disk.root then
      .error (pfx.ambiguity
        s!"el entorno conserva evidencia de una transacción sin confirmar ({rootState.debug})")
    else
      .ok
        { rootState, backupState, removedEmptyBackup := seen = .empty
          legacy := legacyResetBackups pfx disk, action }

/-- Everything a decision rests on. -/
theorem assess_ok {host : Host} {pfx : ManagedPrefix} {disk : Disk} {a : Assessment}
    (h : assess host pfx disk = .ok a) :
    a.rootState = classifyRoot host pfx.location (pfx.identity host disk.root) disk.root ∧
      a.backupState = plannedBackup (classifyBackup host disk.parentDev pfx.location
        (pfx.identity host disk.root) disk.backup) ∧
      a.removedEmptyBackup = decide (classifyBackup host disk.parentDev pfx.location
        (pfx.identity host disk.root) disk.backup = .empty) ∧
      a.legacy = legacyResetBackups pfx disk ∧
      plan a.rootState a.backupState (legacyRestorable host pfx disk
        (pfx.identity host disk.root) a.rootState a.backupState) = .ok a.action ∧
      (a.action = .none → rootHoldsTransactionEvidence disk.root = false) := by
  unfold assess at h
  dsimp only at h
  split at h
  · cases h
  next action hp =>
    split at h
    · cases h
    next evidence =>
      cases h
      refine ⟨rfl, rfl, rfl, rfl, hp, fun hnone => ?_⟩
      change action = .none at hnone
      simpa [hnone] using evidence

/-- What `legacyRestorable` lists is restorable. -/
theorem mem_legacyRestorable {host : Host} {pfx : ManagedPrefix} {disk : Disk}
    {identity : Option V3Identity} {rootState : RootState} {backupState : BackupState}
    {name : String} (h : name ∈ legacyRestorable host pfx disk identity rootState backupState) :
    classifyBackup host disk.parentDev pfx.location identity (disk.siblings.find name)
      = .restorable := by
  unfold legacyRestorable at h
  split at h
  · simpa using (List.mem_filter.mp h).2
  · cases h

theorem plannedBackup_restorable {state : BackupState} :
    plannedBackup state = .restorable ∨ plannedBackup state = .removing →
      state = plannedBackup state := by
  unfold plannedBackup
  split <;> simp

/-- The disk once an empty backup is out of the way. -/
def Assessment.cleaned (a : Assessment) (disk : Disk) : Disk :=
  if a.removedEmptyBackup then { disk with backup := none } else disk

/-- What recovery knows of the disk it is about to act on. -/
structure Judged (host : Host) (pfx : ManagedPrefix) (disk : Disk) (a : Assessment) : Prop where
  root : a.rootState = classifyRoot host pfx.location (pfx.identity host disk.root) disk.root
  backup : a.backupState = .restorable ∨ a.backupState = .removing →
    classifyBackup host disk.parentDev pfx.location (pfx.identity host disk.root) disk.backup
      = a.backupState
  absent : a.backupState = .absent → disk.backup = none
  planned : ∃ legacy, plan a.rootState a.backupState legacy = .ok a.action ∧
    ∀ name ∈ legacy, classifyBackup host disk.parentDev pfx.location (pfx.identity host disk.root)
      (disk.siblings.find name) = .restorable

theorem assess_removedEmptyBackup {host : Host} {pfx : ManagedPrefix} {disk : Disk} {a : Assessment}
    (h : assess host pfx disk = .ok a) :
    a.removedEmptyBackup = true ↔ ∃ ino, disk.backup = some (.dir ino disk.parentDev []) := by
  obtain ⟨_, _, removed, _⟩ := assess_ok h
  rw [removed, decide_eq_true_eq]
  exact classifyBackup_empty

/-- A decision holds of the disk it is carried out on. -/
theorem assess_judged {host : Host} {pfx : ManagedPrefix} {disk : Disk} {a : Assessment}
    (h : assess host pfx disk = .ok a) : Judged host pfx (a.cleaned disk) a := by
  have empty := assess_removedEmptyBackup h
  obtain ⟨root, backup, removed, _, planned, _⟩ := assess_ok h
  unfold Assessment.cleaned
  split
  next hr =>
    obtain ⟨ino, found⟩ := empty.mp hr
    have gone : a.backupState = .absent := by
      rw [backup, plannedBackup, if_pos (classifyBackup_empty.mpr ⟨ino, found⟩)]
    refine ⟨root, fun seen => ?_, fun _ => rfl, _, planned, fun name hname => ?_⟩
    · rw [gone] at seen
      rcases seen with seen | seen <;> cases seen
    · exact mem_legacyRestorable hname
  next hr =>
    refine ⟨root, fun seen => ?_, fun absent => ?_, _, planned, fun name hname => ?_⟩
    · rw [backup] at seen ⊢
      exact plannedBackup_restorable seen
    · rw [backup, plannedBackup, if_neg] at absent
      · exact classifyBackup_absent.mp absent
      · rw [removed] at hr
        simpa using hr
    · exact mem_legacyRestorable hname

/-- The outcome a decision is reported with. -/
def Assessment.outcome (pfx : ManagedPrefix) (a : Assessment) : RecoveryOutcome :=
  let unrestored := a.legacy.filter fun name => a.action ≠ .restoreLegacyBackup name
  { action := a.action
    removedEmptyBackup := a.removedEmptyBackup
    notes :=
      if unrestored.isEmpty then []
      else
        let paths := ", ".intercalate (unrestored.map fun name => Path.display (pfx.parent ++ [name]))
        [s!"Se conservaron respaldos de reinicio de versiones anteriores sin tocarlos: {paths}"] }

/-! ## What recovery does -/

/-- Failure `NotFound` counts as success. -/
def removeFileIfPresent (slot : Slot) (name : String) (io : IoError → String) : FsProg Unit :=
  .act (.removeFile slot name) fun
    | .ok () => .ret ()
    | .error e => if e.notFound then .ret () else .fail (io e)

/-- One round of the deletion loop; symlinks are removed, never followed. -/
def deleteEntry (slot : Slot) (io : IoError → String) (name : String) : FsProg Unit :=
  .look fun disk =>
    match child (disk.get slot) name with
    | some (.dir _ _ _) => .perform (.removeDirAll slot name) io
    | _ => .perform (.removeFile slot name) io

/-- Delete a directory, keeping the entry that authorizes the deletion until every other entry is
gone. -/
def deleteTreeLast (slot : Slot) (last : String) (io : IoError → String) : FsProg Unit :=
  .look fun disk =>
    match disk.get slot with
    | some (.dir _ _ es) => do
      ((Entries.names es).filter (· ≠ last)).forM (deleteEntry slot io)
      .perform (.syncDir slot) io
      removeFileIfPresent slot last io
      .perform (.syncDir slot) io
      .perform (.removeDir slot) io
    | some _ => .fail (io .enotdir)
    | none => .fail (io .enoent)

namespace ManagedPrefix

variable (pfx : ManagedPrefix)

def syncParent : FsProg Unit :=
  .perform .syncParent (pfx.io "sincronizar el directorio de entornos")

def ensureQuiet (active : Nat) : FsProg Unit :=
  if active = 0 then .ret ()
  else
    .fail s!"Hay {active} proceso(s) usando el entorno {pfx.root.display}; ciérralos para recuperar la preparación interrumpida. No se modificó nada"

def clearNonDataRoot (rootState : RootState) : FsProg Unit :=
  match rootState with
  | .absent => .ret ()
  | .empty => do
    .perform (.removeDir .root) (pfx.io "retirar el directorio vacío")
    pfx.syncParent
  | .pendingMarker => do
    removeFileIfPresent .root provisioningMarkerTmp (pfx.io "retirar el marcador temporal")
    .perform (.removeDir .root) (pfx.io "retirar el entorno incompleto")
    pfx.syncParent
  | other => .fail s!"estado inesperado del entorno: {other.debug}"

/-- `P` authorizes this deletion and is removed last. -/
def discardPartialRoot : FsProg Unit := do
  deleteTreeLast .root provisioningMarker (pfx.io "retirar el entorno incompleto")
  pfx.syncParent

def restoreFrom (source : Slot) : FsProg Unit := do
  .perform (.rename source .root) (pfx.io "restaurar el entorno anterior")
  pfx.syncParent

/-- `Restorable -> Removing`: one atomic rename of the ownership evidence to `T`. -/
def invalidateRestorationAuthority : FsProg String :=
  let io := pfx.io "invalidar el respaldo del entorno anterior"
  .look fun disk =>
    match disk.backup with
    | some (.dir _ _ es) =>
      if isProtected es then
        .fail (pfx.ambiguity "el respaldo contiene una instalación de juego protegida")
      else do
        let (source, tombstone) :=
          if entryKind (Entries.find es prefixMarker) = .file then (prefixMarker, backupRemovingManifest)
          else (legacyPrefixMarker, backupRemovingLegacy)
        .perform (.renameIn .backup source tombstone false) io
        .perform (.syncDir .backup) io
        return tombstone
    | _ => .fail (io .enotdir)

/-- The tombstone of a backup whose removal had begun. -/
def tombstoneOf (io : IoError → String) : FsProg String :=
  .look fun disk =>
    match disk.backup with
    | some (.dir _ _ es) =>
      match backupTombstone es with
      | .ok (some tombstone) => .ret tombstone
      | .ok none => .fail (pfx.ambiguity "el respaldo en retiro perdió su evidencia de retiro")
      | .error reason => .fail (io ⟨false, reason⟩)
    | _ => .fail (io .enotdir)

/-- The `Debug` rendering of the two classes `removeBackup` accepts, and of the others. -/
def debugBackup : BackupState → String
  | .absent => "Absent"
  | .empty => "Empty"
  | .restorable => "Restorable"
  | .removing => "Removing"
  | .foreign reason => "Foreign(\"" ++ reason ++ "\")"

def removeBackup (state : BackupState) : FsProg Unit := do
  let io := pfx.io "retirar el respaldo del entorno anterior"
  let tombstone ← match state with
    | .restorable => pfx.invalidateRestorationAuthority
    | .removing => pfx.tombstoneOf io
    | other => .fail (pfx.ambiguity s!"respaldo inesperado: {debugBackup other}")
  deleteTreeLast .backup tombstone io
  pfx.syncParent

/-- The first half of `CompleteCommit`: a committed root needs no transaction marker. -/
def dropStaleMarkers : FsProg Unit := do
  [provisioningMarker, commitPendingMarker, provisioningMarkerTmp].forM fun name =>
    removeFileIfPresent .root name (pfx.io "retirar el marcador de preparación")
  .perform (.syncDir .root) (pfx.io "sincronizar el entorno confirmado")

def execute (action : RecoveryAction) (rootState : RootState) (backupState : BackupState) :
    FsProg Unit :=
  match action with
  | .none => .ret ()
  | .restoreBackup => do
    pfx.clearNonDataRoot rootState
    pfx.restoreFrom .backup
  | .discardPartialAndRestore => do
    pfx.discardPartialRoot
    pfx.restoreFrom .backup
  | .discardPartial =>
    if rootState = .pendingMarker then pfx.clearNonDataRoot rootState else pfx.discardPartialRoot
  | .completeCommit staleMarker backup => do
    .onlyIf staleMarker pfx.dropStaleMarkers
    .onlyIf backup (pfx.removeBackup backupState)
  | .restoreLegacyBackup name => do
    pfx.clearNonDataRoot rootState
    pfx.restoreFrom (.sibling name)

/-- Everything after the decision. -/
def carryOut (active : Nat) (a : Assessment) : FsProg RecoveryOutcome :=
  if a.action = .none && !a.removedEmptyBackup then .ret (a.outcome pfx)
  else do
    pfx.ensureQuiet active
    .onlyIf a.removedEmptyBackup do
      .perform (.removeDir .backup) (pfx.io "retirar el respaldo vacío")
      pfx.syncParent
    pfx.execute a.action a.rootState a.backupState
    return a.outcome pfx

end ManagedPrefix

/-- Reconcile whatever an interrupted transaction left behind. -/
def recover (host : Host) (pfx : ManagedPrefix) (active : Nat) : FsProg RecoveryOutcome :=
  .look fun disk => do
    let a ← Prog.ofExcept (assess host pfx disk)
    pfx.carryOut active a

end RoLauncher.Prefix
