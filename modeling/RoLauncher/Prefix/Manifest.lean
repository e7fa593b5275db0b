import RoLauncher.Files.Tree

/-!
# The prefix manifest and the health of a prefix (`utils/prefix.rs`)

A managed WINEPREFIX is committed by one file, its manifest. This module
holds the manifest's two schemas, the reader that picks between them, and
`inspectPrefix`, the report that every caller outside recovery trusts.

Paths are lists of components: Rust compares, splits and joins a `Path` by
its components, and every path here is absolute. What `serde_json` decodes
is a parameter (`Serde`), one function for each type the source decodes.
-/

namespace RoLauncher.Prefix

open RoLauncher.Files

abbrev Path := List String

def Path.display (path : Path) : String := "/" ++ "/".intercalate path

/-! ## Fixed names -/

def legacyPrefixMarker : String := ".ro-launcher-configured"
def prefixMarker : String := ".ro-launcher-prefix.json"
def prefixSchemaVersion : Nat := 2
def prefixSchemaV3 : Nat := 3
def installationMarker : String := ".ro-launcher-installation.json"

/-- `P`: rollback authority over a root this launcher created. -/
def provisioningMarker : String := ".ro-launcher-provisioning"
/-- The fixed temporary of `P`. -/
def provisioningMarkerTmp : String := ".ro-launcher-provisioning.tmp"
/-- `C`: the same record once its destructive authority was revoked. -/
def commitPendingMarker : String := ".ro-launcher-commit-pending"

/-! ## Locations and manifests -/

inductive PrefixScope where
  | shared
  | isolated
  | custom
  deriving DecidableEq, Repr

structure PrefixLocation where
  path : Path
  scope : PrefixScope
  managed : Bool
  serverId : Option String
  deriving DecidableEq, Repr

structure PrefixManifest where
  schemaVersion : Nat
  scope : PrefixScope
  serverId : Option String
  runnerKind : String
  runnerPath : String
  components : List String
  deriving DecidableEq, Repr

structure PrefixFingerprintEnvelope where
  schemaVersion : Nat
  algorithm : String
  digest : String
  deriving DecidableEq, Repr

structure PrefixManifestV3 where
  schemaVersion : Nat
  scope : PrefixScope
  serverId : Option String
  runnerKind : String
  runnerPath : String
  components : List String
  prefixFingerprint : PrefixFingerprintEnvelope
  deriving DecidableEq, Repr

inductive StoredPrefixManifest where
  | v2 (manifest : PrefixManifest)
  | v3 (manifest : PrefixManifestV3)
  deriving DecidableEq, Repr

namespace StoredPrefixManifest

def schemaVersion : StoredPrefixManifest → Nat
  | .v2 manifest => manifest.schemaVersion
  | .v3 manifest => manifest.schemaVersion

def serverId : StoredPrefixManifest → Option String
  | .v2 manifest => manifest.serverId
  | .v3 manifest => manifest.serverId

def scope : StoredPrefixManifest → PrefixScope
  | .v2 manifest => manifest.scope
  | .v3 manifest => manifest.scope

def prefixFingerprintDigest : StoredPrefixManifest → Option String
  | .v2 _ => none
  | .v3 manifest => some manifest.prefixFingerprint.digest

end StoredPrefixManifest

/-- Contents of `P` and, after revocation, of `C`. -/
structure ProvisioningMarker where
  schemaVersion : Nat
  scope : PrefixScope
  serverId : Option String
  prefixPath : Path
  prefixFingerprint : Option String
  createdAtMs : Nat
  deriving DecidableEq, Repr

/-- `serde_json`, for the types this subsystem reads and writes. -/
structure Serde where
  schemaProbe : String → Except String Nat
  prefixManifest : String → Except String PrefixManifest
  prefixManifestV3 : String → Except String PrefixManifestV3
  provisioningMarker : String → Except String ProvisioningMarker
  /-- `to_vec_pretty` of the provisioning record. -/
  renderMarker : ProvisioningMarker → String

/-- What the source relies on of `serde_json`: a manifest decoded with the v3
schema carries the very number the probe read from the same field. -/
structure Serde.Lawful (serde : Serde) : Prop where
  probe_v3 : ∀ json manifest, serde.prefixManifestV3 json = .ok manifest →
    serde.schemaProbe json = .ok manifest.schemaVersion

def parseStoredPrefixManifest (serde : Serde) (json : String) : Except String StoredPrefixManifest :=
  do
    let schemaVersion ← serde.schemaProbe json
    if schemaVersion = prefixSchemaVersion then
      return .v2 (← serde.prefixManifest json)
    else if schemaVersion = prefixSchemaV3 then
      return .v3 (← serde.prefixManifestV3 json)
    else
      .error "unsupported schema"

/-- A manifest read as v3 says schema 3 itself. -/
theorem parseStored_v3 {serde : Serde} (lawful : serde.Lawful) {json : String}
    {manifest : PrefixManifestV3}
    (h : parseStoredPrefixManifest serde json = .ok (.v3 manifest)) :
    manifest.schemaVersion = prefixSchemaV3 := by
  unfold parseStoredPrefixManifest at h
  cases hp : serde.schemaProbe json with
  | error e => rw [hp] at h; cases h
  | ok version =>
    rw [hp] at h
    change (if version = prefixSchemaVersion then _ else _) = _ at h
    split at h
    · cases hm : serde.prefixManifest json with
      | error e => rw [hm] at h; cases h
      | ok m => rw [hm] at h; cases h
    · split at h
      next hv =>
        cases hm : serde.prefixManifestV3 json with
        | error e => rw [hm] at h; cases h
        | ok m =>
          rw [hm] at h
          cases h
          have probed := lawful.probe_v3 json manifest hm
          rw [hp] at probed
          cases probed
          exact hv
      next => cases h

def manifestMatchesStoredLocation (manifest : StoredPrefixManifest) (location : PrefixLocation) :
    Bool :=
  if !location.managed then true
  else
    manifest.scope = location.scope &&
      match location.scope with
      | .shared => manifest.serverId.isNone
      | .isolated => manifest.serverId = location.serverId
      | .custom => true

/-! ## Health -/

structure PrefixHealth where
  structureOk : Bool
  configured : Bool
  legacyMarker : Bool
  provisioning : Bool
  manifest : Option StoredPrefixManifest
  issues : List String

/-- The four paths a complete Wine prefix has. -/
def wineStructure : List (List String × String) :=
  [(["drive_c", "windows"], "drive_c/windows"),
   (["system.reg"], "system.reg"),
   (["user.reg"], "user.reg"),
   (["dosdevices", "c:"], "dosdevices/c:")]

/-- `root.join(relative).exists()` for each of them; the missing ones are the issues. -/
def structureIssues (root : Node) : List String :=
  (wineStructure.filter fun part => !root.reaches part.1).map fun part =>
    s!"Falta {part.2} en el entorno"

def incompatibleSchema : String := "El manifiesto usa un schema incompatible (esperado 2 o 3)"
def damagedManifest : String := "El manifiesto del entorno está dañado"

/-- The manifest half of the report: `is_file` and `read_to_string` follow links. -/
def inspectManifest (serde : Serde) (root : Node) : Option StoredPrefixManifest × Bool × List String :=
  match (child (some root) prefixMarker).bind Node.follow with
  | some (.file data) =>
    match data.text? with
    | some json =>
      match parseStoredPrefixManifest serde json with
      | .ok manifest => (some manifest, false, [])
      | .error _ =>
        match serde.schemaProbe json with
        | .ok version =>
          if version ≠ prefixSchemaVersion && version ≠ prefixSchemaV3 then
            (none, false, [incompatibleSchema])
          else (none, false, [damagedManifest])
        | .error _ => (none, false, [damagedManifest])
    | none => (none, false, [damagedManifest])
  | _ =>
    match (child (some root) legacyPrefixMarker).bind Node.follow with
    | some (.file _) =>
      (none, true,
        ["Entorno legacy: se validó su estructura, pero aún no registra el runner que lo creó"])
    | _ => (none, false, ["El entorno no tiene manifiesto del launcher"])

/-- An interrupted preparation, reported only while no manifest is readable. -/
def inspectProvisioning (root : Node) (manifest : Option StoredPrefixManifest) : Bool × List String :=
  let present name := (child (some root) name).isSome
  if manifest.isSome then (false, [])
  else if present commitPendingMarker then
    (true,
      ["La confirmación anterior del entorno se interrumpió y no puede probarse si terminó; se conservó sin cambios y requiere revisión"])
  else if present provisioningMarker || present provisioningMarkerTmp then
    (true,
      ["La preparación anterior del entorno se interrumpió antes de confirmarse; Preparar la recuperará automáticamente"])
  else (false, [])

/-- `root.is_dir()`, links followed. -/
def isDir (root : Option Node) : Bool :=
  match root.bind Node.follow with
  | some (.dir _ _ _) => true
  | _ => false

def inspectPrefix (serde : Serde) (root : Option Node) : PrefixHealth :=
  match root with
  | some node =>
    if isDir root then
      let structure' := structureIssues node
      let (manifest, legacyMarker, manifestIssues) := inspectManifest serde node
      let (provisioning, provisioningIssues) := inspectProvisioning node manifest
      let schemaIssues := match manifest with
        | some m =>
          if m.schemaVersion ≠ prefixSchemaVersion && m.schemaVersion ≠ prefixSchemaV3 then
            [incompatibleSchema]
          else []
        | none => []
      { structureOk := structure'.isEmpty
        configured := structure'.isEmpty &&
          (manifest.isSome || (legacyMarker && !provisioning))
        legacyMarker, provisioning, manifest
        issues := structure' ++ manifestIssues ++ provisioningIssues ++ schemaIssues }
    else absent
  | none => absent
where
  absent : PrefixHealth :=
    { structureOk := false, configured := false, legacyMarker := false, provisioning := false
      manifest := none, issues := ["El entorno todavía no existe"] }

/-- Whatever the prefix, a configured one has its structure and a record of its owner. -/
theorem inspectPrefix_configured {serde : Serde} {root : Option Node}
    (h : (inspectPrefix serde root).configured = true) :
    (inspectPrefix serde root).structureOk = true ∧
      ((inspectPrefix serde root).manifest.isSome = true ∨
        (inspectPrefix serde root).legacyMarker = true ∧
          (inspectPrefix serde root).provisioning = false) := by
  unfold inspectPrefix at h ⊢
  cases root with
  | none => cases h
  | some node =>
    simp only at h ⊢
    split at h
    next hd =>
      rw [if_pos hd]
      simpa only [Bool.and_eq_true, Bool.or_eq_true, Bool.not_eq_true'] using h
    next => cases h

end RoLauncher.Prefix
