import RoLauncher.Prefix.Resolver

/-!
# Recovery where there is residue (`recover_residue_with_guard_held`)

The supervisor's bootstrap looks for residue by name before it lets recovery
classify anything. Without residue, recovery would have found nothing to do:
what it could still have said is that the location is not safe to work on, or
that backups of older versions are still there.
-/

namespace RoLauncher.Prefix

open RoLauncher.Files RoLauncher.Crash

/-- What the location of a managed root is checked against. -/
structure ManagedPaths where
  /-- The shared prefix. -/
  prefixPath : Path
  isolatedRootIsSymlink : Bool

section Locations

variable (host : Host) (around : Surroundings) (paths : ManagedPaths)

def isolatedPrefixPath (serverId : String) : Path :=
  host.isolatedPrefixRoot ++ [around.stableIdHash serverId]

def isRunnerScopedPrefixPath (path : Path) (serverId : String) : Bool :=
  path.dropLast = host.isolatedPrefixRoot &&
    match path.getLast? with
    | none => false
    | some name =>
      match stripPrefix (around.stableIdHash serverId ++ "-").toList name.toList with
      | none => false
      | some runnerHash => runnerHash.length = 16 && runnerHash.all isAsciiHexdigit

/-- Where a managed location has to be. -/
def expectedPath (location : PrefixLocation) : Except String Path :=
  match location.scope with
  | .isolated =>
    match location.serverId with
    | none => .error "El entorno aislado no tiene serverId"
    | some serverId =>
      if location.path = isolatedPrefixPath host around serverId ∨
          isRunnerScopedPrefixPath host around location.path serverId ∨
          isV3ManagedPrefixPath host location.path serverId then .ok location.path
      else .ok (isolatedPrefixPath host around serverId)
  | _ => .ok paths.prefixPath

def ensureManagedPathSafe (location : PrefixLocation) (root : Option Node) : Except String Unit :=
  if !location.managed || location.scope = .custom then .ok ()
  else if isSymlink root then .error "No se puede usar un entorno administrado mediante symlink"
  else if root.isSome && !isDir root then .error "La ruta del entorno administrado no es un directorio"
  else if location.scope = .isolated && paths.isolatedRootIsSymlink then
    .error "La raíz de entornos aislados no puede ser un symlink"
  else
    match expectedPath host around paths location with
    | .error reason => .error reason
    | .ok expected =>
      if location.path ≠ expected then
        .error "La ruta del entorno no coincide con la ruta administrada"
      else if isSymlink (child root prefixMarker) then
        .error "El manifiesto del entorno no puede ser un symlink"
      else .ok ()

/-- Custom and unexpected paths never reach recovery. -/
def ManagedPrefix.new (location : PrefixLocation) (desired : Option String) (disk : Disk) :
    Except String ManagedPrefix :=
  if !location.managed || location.scope = .custom then
    .error "Por seguridad, el launcher no recupera ni elimina WINEPREFIX personalizados"
  else
    match ensureManagedPathSafe host around paths location disk.root with
    | .error reason => .error reason
    | .ok () => ManagedPrefix.at host location desired

def isRecoverable (location : PrefixLocation) : Bool := location.managed && location.scope ≠ .custom

def RecoveryOutcome.untouched : RecoveryOutcome := ⟨.none, false, []⟩

def recoverWithGuardHeld (location : PrefixLocation) (desired : Option String) (active : Nat) :
    FsProg RecoveryOutcome :=
  if !isRecoverable location then .ret .untouched
  else
    .look fun disk => do
      let pfx ← Prog.ofExcept (ManagedPrefix.new host around paths location desired disk)
      recover host pfx active

/-- The root of the location, as the search for residue sees it. -/
def residueRoot (location : PrefixLocation) : ManagedPrefix where
  location := location
  parent := location.path.dropLast
  name := location.path.getLast?.getD ""
  expected := none

def recoverResidueWithGuardHeld (location : PrefixLocation) (desired : Option String)
    (active : Nat) : FsProg RecoveryOutcome :=
  .look fun disk =>
    if !transactionResiduePresent (residueRoot location) disk then .ret .untouched
    else recoverWithGuardHeld host around paths location desired active

end Locations

section Agreement

variable {host : Host} {around : Surroundings} {paths : ManagedPaths} {location : PrefixLocation}
  {desired : Option String} {pfx : ManagedPrefix} {disk : Disk}

/-- Residue is a matter of the path alone. -/
theorem transactionResiduePresent_at (hat : ManagedPrefix.at host location desired = .ok pfx)
    (disk : Disk) :
    transactionResiduePresent pfx disk = transactionResiduePresent (residueRoot location) disk ∧
      legacyResetBackups pfx disk = legacyResetBackups (residueRoot location) disk := by
  unfold ManagedPrefix.at at hat
  split at hat
  next => cases hat
  next name last =>
    cases hat
    have same : (residueRoot location).name = name := by rw [residueRoot, last]; rfl
    simp only [transactionResiduePresent, legacyResetBackups, same]
    exact ⟨rfl, trivial⟩

theorem ManagedPrefix.new_at (h : ManagedPrefix.new host around paths location desired disk = .ok pfx) :
    ManagedPrefix.at host location desired = .ok pfx := by
  unfold ManagedPrefix.new at h
  split at h
  next => cases h
  next =>
    split at h
    next => cases h
    next => exact h

/-- Without residue recovery reports the older backups, and nothing else. -/
theorem recover_noResidue (hat : ManagedPrefix.at host location desired = .ok pfx)
    (none : transactionResiduePresent (residueRoot location) disk = false) (active : Nat) :
    ∃ notes, (recover host pfx active).exec device disk =
        (.ok { RecoveryOutcome.untouched with notes }, disk) ∧
      (notes = [] ↔ legacyResetBackups (residueRoot location) disk = []) := by
  obtain ⟨same, legacy⟩ := transactionResiduePresent_at hat disk
  obtain ⟨a, assessed, idle, kept⟩ := idle_of_noResidue hat (same.trans none)
  have whole : (recover host pfx active).exec device disk = (.ok (a.outcome pfx), a.result disk) :=
    recover_ok_iff.mpr ⟨a, assessed, .inl ⟨idle, kept⟩, rfl, rfl⟩
  have all : a.legacy = legacyResetBackups (residueRoot location) disk :=
    (assess_ok assessed).2.2.2.1.trans legacy
  refine ⟨(a.outcome pfx).notes, ?_, ?_⟩
  · rw [whole, a.result_idle idle kept]
    simp [Assessment.outcome, RecoveryOutcome.untouched, idle, kept]
  · rw [← all]
    simp [Assessment.outcome, idle]

end Agreement

/-- **The fast path**: with residue it is the full recovery; without, the full recovery either does
not accept the location, or reports the older backups and changes nothing. -/
theorem recover_residue_agrees (host : Host) (around : Surroundings) (paths : ManagedPaths)
    (location : PrefixLocation) (desired : Option String) (active : Nat) (disk : Disk) :
    (transactionResiduePresent (residueRoot location) disk = true →
      (recoverResidueWithGuardHeld host around paths location desired active).exec device disk =
        (recoverWithGuardHeld host around paths location desired active).exec device disk) ∧
    (transactionResiduePresent (residueRoot location) disk = false →
      (recoverResidueWithGuardHeld host around paths location desired active).exec device disk =
          (.ok .untouched, disk) ∧
        ((∃ reason, ManagedPrefix.new host around paths location desired disk = .error reason ∧
            isRecoverable location = true ∧
            (recoverWithGuardHeld host around paths location desired active).exec device disk =
              (.error reason, disk)) ∨
          ∃ notes, (recoverWithGuardHeld host around paths location desired active).exec device disk =
              (.ok { RecoveryOutcome.untouched with notes }, disk) ∧
            (notes = [] ↔ isRecoverable location = true →
              legacyResetBackups (residueRoot location) disk = []))) := by
  refine ⟨fun residue => ?_, fun none => ⟨?_, ?_⟩⟩
  · simp only [recoverResidueWithGuardHeld, Prog.exec_look, residue, Bool.not_true, Bool.false_eq_true,
      if_false]
  · simp only [recoverResidueWithGuardHeld, Prog.exec_look, none, Bool.not_false, if_true, Prog.exec_ret]
  · cases managed : isRecoverable location with
    | false =>
      refine .inr ⟨[], ?_, by simp⟩
      simp only [recoverWithGuardHeld, managed, Bool.not_false, if_true, Prog.exec_ret]
      rfl
    | true =>
      cases accepted : ManagedPrefix.new host around paths location desired disk with
      | error reason =>
        refine .inl ⟨reason, rfl, rfl, ?_⟩
        simp only [recoverWithGuardHeld, managed, Bool.not_true, Bool.false_eq_true, if_false,
          Prog.exec_look, accepted]
        rfl
      | ok pfx =>
        obtain ⟨notes, whole, empty⟩ :=
          recover_noResidue (ManagedPrefix.new_at accepted) none active
        refine .inr ⟨notes, ?_, empty.trans (by simp)⟩
        simp only [recoverWithGuardHeld, managed, Bool.not_true, Bool.false_eq_true, if_false,
          Prog.exec_look, accepted]
        exact whole

/-! ## Where the two differ -/

def samplePaths : ManagedPaths := ⟨samplePath, false⟩

/-- The shared root is a link to a directory elsewhere. -/
def linkedRoot : Disk := sampleDisk (some (.symlink (some (.dir 5 0 [("drive_c", .dir 6 0 [])])))) none

/-- The fast path accepts a root that the full recovery does not. -/
theorem residue_differs_on_linked_root :
    transactionResiduePresent (residueRoot sampleLocation) linkedRoot = false ∧
      (recoverResidueWithGuardHeld sampleHost sampleSurroundings samplePaths sampleLocation none 0).exec
          device linkedRoot = (.ok .untouched, linkedRoot) ∧
      ∃ message, (recoverWithGuardHeld sampleHost sampleSurroundings samplePaths sampleLocation none
        0).exec device linkedRoot = (.error message, linkedRoot) := ⟨by decide, rfl, _, rfl⟩

end RoLauncher.Prefix
