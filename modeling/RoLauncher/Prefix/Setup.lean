import RoLauncher.Prefix.Residue
import RoLauncher.Prefix.Transaction

/-!
# Setup and reset of a runtime prefix (`tools/prefix/setup.rs`)

A setup reconciles what a crash left, and then, under the prefix guard,
either runs a managed transaction on a root without data or repairs the root
in place. A reset moves the old prefix out of the way first. Both read the
disk again once they hold the guard.

The checks they share with the launch are here as well: what a location may
be (`ensureManagedPathSafe` and its siblings), and why a prefix cannot be
launched in (`runtimePrefixBlockers`).
-/

namespace RoLauncher.Prefix

open RoLauncher.Files RoLauncher.Crash

/-- What setup takes from its surroundings. -/
structure SetupHost where
  host : Host
  around : Surroundings
  paths : ManagedPaths
  /-- The directory above a custom prefix exists. -/
  customParentIsDir : Bool
  /-- A DLL that the Proton distribution brings, by architecture and name. -/
  protonBrings : String → String → Bool

/-- A prefix and the runner it is used with. -/
structure WineContext where
  location : PrefixLocation
  resolved : ResolvedRunner
  identity : PrefixBinding

def desiredIdentity (ctx : WineContext) : String := ctx.identity.desiredFingerprint.digest

/-! ## What a location may be -/

/-- `prefix_has_state`: a directory that lists something. -/
def prefixHasState (root : Option Node) : Bool :=
  match root with
  | some node => isDir (some node) && Entries.names node.children ≠ []
  | none => false

/-- Mere presence of a receipt is protection. -/
def ensureInstallationRebuildAllowed (root : Option Node) : Except String Unit :=
  if (child root installationMarker).isSome || (child root (backupName installationMarker)).isSome then
    .error "Este entorno contiene una instalación de juego y no puede reconstruirse automáticamente. Sus archivos, registros y dependencias se conservaron; usa la reparación de componentes"
  else .ok ()

section Checks

variable (setup : SetupHost)

def ensureCustomSetupAllowed (location : PrefixLocation) (root : Option Node) : Except String Unit :=
  if location.scope ≠ .custom then .ok ()
  else if isSymlink root then .error "El WINEPREFIX personalizado no puede ser un symlink"
  else if root.isSome && !isDir root then .error "El WINEPREFIX personalizado no es un directorio"
  else if root.isNone && !setup.customParentIsDir then
    .error "El directorio padre del WINEPREFIX personalizado no existe; créalo o elige otra ruta. El launcher no creará parents externos"
  else if isSymlink (child root prefixMarker) then
    .error "El manifiesto del entorno no puede ser un symlink"
  else if prefixHasState root && !(inspectPrefix setup.host.serde root).structureOk then
    .error "La ruta personalizada contiene datos, pero no parece un WINEPREFIX; no se modificará"
  else .ok ()

def ensureManagedResetAllowed (location : PrefixLocation) (root : Option Node) :
    Except String Unit :=
  if !location.managed || location.scope = .custom then
    .error "Por seguridad, el launcher no elimina WINEPREFIX personalizados"
  else do
    ensureManagedPathSafe setup.host setup.around setup.paths location root
    if !prefixHasState root then .ok ()
    else
      let health := inspectPrefix setup.host.serde root
      if health.legacyMarker && health.structureOk then .ok ()
      else
        match health.manifest with
        | none => .error "El entorno administrado no tiene un manifiesto válido; no se eliminará"
        | some manifest =>
          if manifest.schemaVersion = 0 || manifest.schemaVersion > prefixSchemaV3 ||
              !manifestMatchesStoredLocation manifest location then
            .error "El manifiesto no pertenece al servidor seleccionado; no se eliminará"
          else .ok ()

/-! ## What a launch needs -/

/-- `Path::is_file` below a node, links followed. -/
def isFileAt (root : Option Node) : List String → Bool
  | [] =>
    match root.bind Node.follow with
    | some (.file _) => true
    | _ => false
  | name :: rest => isFileAt (child root name) rest

def vkd3dDlls : List String := ["libvkd3d-1.dll", "libvkd3d-shader-1.dll", "libvkd3d-utils-1.dll"]

def protonVkd3dCompanionsAvailable (root : Option Node) : Bool :=
  ["system32", "syswow64"].all fun archDir =>
    let runnerArch := if archDir = "system32" then "x86_64-windows" else "i386-windows"
    vkd3dDlls.all fun dll =>
      isFileAt root ["drive_c", "windows", archDir, dll] || setup.protonBrings runnerArch dll

def StoredPrefixManifest.runnerKind : StoredPrefixManifest → String
  | .v2 manifest => manifest.runnerKind
  | .v3 manifest => manifest.runnerKind

def StoredPrefixManifest.runnerPath : StoredPrefixManifest → String
  | .v2 manifest => manifest.runnerPath
  | .v3 manifest => manifest.runnerPath

/-- What the manifest itself says against a launch. -/
def manifestBlockers (ctx : WineContext) (manifest : StoredPrefixManifest) : List String :=
  let schema := manifest.schemaVersion
  (if schema ≠ prefixSchemaVersion && schema ≠ prefixSchemaV3 then
    [s!"Schema de entorno incompatible: {schema} (esperado {prefixSchemaVersion} o {prefixSchemaV3})"]
  else []) ++
  (if manifestMatchesStoredLocation manifest ctx.location then []
  else ["El manifiesto pertenece a otro entorno o servidor"]) ++
  (if manifest.runnerKind = "unknown" then
    ["El manifiesto no registra qué runner creó el entorno; debe rearmarse"]
  else
    match manifest with
    | .v2 v2 =>
      if manifestMatchesRunner setup.around v2 ctx.resolved.kindLabel ctx.resolved.runnerPath then []
      else [s!"El entorno fue creado con otro runner ({v2.runnerPath})"]
    | .v3 _ => [])

def errorText : Except String Unit → List String
  | .ok () => []
  | .error reason => [reason]

/-- Why a launch cannot use the prefix: sorted, without repetition. -/
def runtimePrefixBlockers (ctx : WineContext) (root : Option Node) (health : PrefixHealth) :
    List String :=
  let blockers :=
    (match ctx.identity.eligibility with
      | .ineligible reasons => reasons.map fun reason => s!"Identidad de entorno incompatible: {reason}"
      | .eligible | .indeterminate _ => []) ++
    errorText (ensureManagedPathSafe setup.host setup.around setup.paths ctx.location root) ++
    errorText (ensureCustomSetupAllowed setup ctx.location root) ++
    (if (if ctx.location.scope = .custom then health.structureOk else health.configured) then []
    else health.issues) ++
    (if health.legacyMarker then
      ["El entorno legacy no registra qué runner lo creó; debe rearmarse antes de lanzar"]
    else []) ++
    (match health.manifest with
      | some manifest => manifestBlockers setup ctx manifest
      | none => []) ++
    (if ctx.resolved.isProton && !protonVkd3dCompanionsAvailable setup root then
      ["Proton no expone las DLL compañeras libvkd3d para x86 y x86_64"]
    else [])
  (blockers.insertionSort fun a b => ¬ b < a).dedup

def validateRuntimePrefix (ctx : WineContext) (root : Option Node) : Except String PrefixHealth :=
  let health := inspectPrefix setup.host.serde root
  let blockers := runtimePrefixBlockers setup ctx root health
  if blockers = [] then .ok health
  else
    let reasons := " · ".intercalate blockers
    .error s!"El entorno {ctx.location.path.display} no es compatible: {reasons}"

/-! ## Setup and reset -/

/-- Recovery replaced the root that the caller had validated. -/
def recoveredRetryMsg : String :=
  "Se recuperó una preparación interrumpida del entorno; vuelve a intentarlo"

/-- Preparation of a root that stays where it is, whatever happens. -/
def repairInPlace (process : Process) (work : Work) : FsProg Unit := do
  let prepared : Prog FsOp Disk IoError String Unit := do
    .perform (.provision work.provision) fun error => error.text
    .ofExcept work.quiesce
    (work.commit process).mapError fun
      | .beforeRename message | .afterRename message => message
  match ← prepared.attempt with
  | .ok () => .ret ()
  | .error primary =>
    match work.quiesceAgain with
    | .ok () => .fail (work.annotateFailure primary)
    | .error error =>
      .fail s!"{work.annotateFailure primary}\nLimpieza pendiente: {error}; el entorno se conservó"

/-- Nothing that recovery would still replace may be left once the guard is held. -/
def ensureRecoveredUnderGuard (ctx : WineContext) (active : Nat) : FsProg Unit := do
  let outcome ← recoverWithGuardHeld setup.host setup.around setup.paths ctx.location
    (some (desiredIdentity ctx)) active
  if outcome.rootReplaced then .fail recoveredRetryMsg else .ret ()

/-- The managed prefix of the context. -/
def managedPrefix (ctx : WineContext) (disk : Disk) : Except String ManagedPrefix :=
  ManagedPrefix.new setup.host setup.around setup.paths ctx.location (some (desiredIdentity ctx)) disk

/-- `setup_runtime_prefix`, from the prefix guard on. -/
def setupUnderGuard (ctx : WineContext) (process : Process) (work : Work) : FsProg Unit :=
  .look fun disk => do
    .ofExcept (ensureCustomSetupAllowed setup ctx.location disk.root)
    .onlyIf ctx.location.managed do
      .ofExcept (ensureManagedResetAllowed setup ctx.location disk.root)
      ensureRecoveredUnderGuard setup ctx process.active
    .look fun disk =>
      if ctx.location.managed && !prefixHasState disk.root then do
        let pfx ← Prog.ofExcept (managedPrefix setup ctx disk)
        let _ ← runManagedTransaction setup.host pfx process (desiredIdentity ctx) work .initialSetup
        return ()
      else repairInPlace process work

/-- `reset_runtime_prefix`, from the prefix guard on; `shutdown` stops what still runs in the
prefix. -/
def resetUnderGuard (ctx : WineContext) (process : Process) (shutdown : Except String Unit)
    (work : Work) : FsProg Unit :=
  .look fun disk => do
    .ofExcept (ensureManagedResetAllowed setup ctx.location disk.root)
    .ofExcept (ensureInstallationRebuildAllowed disk.root)
    ensureRecoveredUnderGuard setup ctx process.active
    .ofExcept shutdown
    .look fun disk => do
      let pfx ← Prog.ofExcept (managedPrefix setup ctx disk)
      let _ ← runManagedTransaction setup.host pfx process (desiredIdentity ctx) work .reset
      return ()

end Checks

end RoLauncher.Prefix
