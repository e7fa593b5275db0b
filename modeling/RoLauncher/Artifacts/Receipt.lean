import RoLauncher.Files.Tree

/-!
# Artifacts and their receipts (`tools/artifacts/descriptor.rs`, `receipt.rs`, `mod.rs`)

An artifact is installed as one directory that carries a receipt. What a
directory is to the launcher (`ArtifactCacheState`, `Tree`) is decided from its
entries alone: the receipt under its marker name, the same receipt under the
cleanup name, and the payload.

How a payload of each kind is validated is left to `Catalog.payloadReady`: the
validators look at names of the payload only.
-/

namespace RoLauncher.Artifacts

open RoLauncher.Files

inductive ArtifactKind where
  | protonCachyos
  | nndskRoProton
  | wineTkg716
  | umuLauncher
  | dxvk
  deriving DecidableEq, Repr

inductive ArtifactSource where
  | https (url : String)
  | localOnly (sourceCommit : String)
  deriving DecidableEq, Repr

inductive ExpectedDigest where
  | sha256 (value : String)
  | sha512 (value : String)
  deriving DecidableEq, Repr

inductive ArtifactArchitecture where
  | x86
  | x86_64
  deriving DecidableEq, Repr

structure ArtifactDescriptor where
  id : String
  kind : ArtifactKind
  version : String
  source : ArtifactSource
  digest : ExpectedDigest
  archiveName : String
  archiveRoot : String
  platform : String
  architectures : List ArtifactArchitecture
  recipeRevision : Nat
  deriving DecidableEq, Repr

def expectedDigestHex : ExpectedDigest → String
  | .sha256 value | .sha512 value => value

def architecturesJson (architectures : List ArtifactArchitecture) : List String :=
  architectures.map fun
    | .x86 => "x86"
    | .x86_64 => "x86-64"

def MARKER_FILE : String := ".ro-launcher-runtime.json"

/-- A renamed receipt is a tombstone, never a ready receipt or a restoration record. -/
def CLEANUP : String := ".ro-launcher-artifact-cleanup"

def RUNTIME_SCHEMA_V1 : Nat := 1
def RUNTIME_SCHEMA_V2 : Nat := 2

structure RuntimeMarkerV1 where
  schemaVersion : Nat
  artifactId : String
  digest : String
  deriving DecidableEq, Repr

inductive DigestAlgorithmJson where
  | sha256
  | sha512
  deriving DecidableEq, Repr

structure RuntimeReceiptV2 where
  schemaVersion : Nat
  artifactId : String
  kind : ArtifactKind
  version : String
  digest : String
  digestAlgorithm : DigestAlgorithmJson
  source : ArtifactSource
  platform : String
  architectures : List String
  recipeRevision : Nat
  deriving DecidableEq, Repr

inductive ParsedStoredReceipt where
  | v1 (marker : RuntimeMarkerV1)
  | v2 (receipt : RuntimeReceiptV2)
  deriving DecidableEq, Repr

def receiptV2FromDescriptor (descriptor : ArtifactDescriptor) : RuntimeReceiptV2 where
  schemaVersion := RUNTIME_SCHEMA_V2
  artifactId := descriptor.id
  kind := descriptor.kind
  version := descriptor.version
  digest := expectedDigestHex descriptor.digest
  digestAlgorithm := match descriptor.digest with
    | .sha256 _ => .sha256
    | .sha512 _ => .sha512
  source := descriptor.source
  platform := descriptor.platform
  architectures := architecturesJson descriptor.architectures
  recipeRevision := descriptor.recipeRevision

/-- `architectures_set` of both sides is equal. -/
def sameArchitectures (values expected : List String) : Bool :=
  values.all (expected.contains ·) && expected.all (values.contains ·)

def storedReceiptMatchesDescriptor (descriptor : ArtifactDescriptor) (receipt : RuntimeReceiptV2) :
    Bool :=
  let expected := receiptV2FromDescriptor descriptor
  receipt.schemaVersion == RUNTIME_SCHEMA_V2
    && receipt.artifactId == expected.artifactId
    && receipt.kind == expected.kind
    && receipt.version == expected.version
    && receipt.digest == expected.digest
    && receipt.digestAlgorithm == expected.digestAlgorithm
    && receipt.platform == expected.platform
    && receipt.recipeRevision == expected.recipeRevision
    && receipt.source == expected.source
    && sameArchitectures receipt.architectures expected.architectures

def ArtifactSource.isHttps : ArtifactSource → Bool
  | .https _ => true
  | .localOnly _ => false

def runtimeMarkerV1Matches (descriptor : ArtifactDescriptor) (marker : RuntimeMarkerV1) : Bool :=
  marker.schemaVersion == RUNTIME_SCHEMA_V1
    && descriptor.source.isHttps
    && marker.artifactId == descriptor.id
    && marker.digest == expectedDigestHex descriptor.digest

def storedIdentityMatchesDescriptor (descriptor : ArtifactDescriptor) :
    ParsedStoredReceipt → Bool
  | .v1 marker => runtimeMarkerV1Matches descriptor marker
  | .v2 receipt => storedReceiptMatchesDescriptor descriptor receipt

theorem receiptV2FromDescriptor_matches (descriptor : ArtifactDescriptor) :
    storedReceiptMatchesDescriptor descriptor (receiptV2FromDescriptor descriptor) = true := by
  simp [storedReceiptMatchesDescriptor, sameArchitectures, receiptV2FromDescriptor]

/-! ## Names of the installer inside an artifact -/

/-- One write of a receipt: the process, and what it drew from `TEMP_FILE_SEQUENCE`. -/
structure ReceiptTemp where
  pid : Nat
  sequence : Nat
  deriving DecidableEq, Repr

def TEMP_START : String := "." ++ MARKER_FILE ++ ".tmp-"

/-- `temp_path` of the receipt. -/
def ReceiptTemp.name (temp : ReceiptTemp) : String :=
  TEMP_START ++ (toString temp.pid ++ "-" ++ toString temp.sequence)

/-- The receipt, the tombstone and the temporary files of either: no payload uses these names. -/
def reserved (name : String) : Bool :=
  name = MARKER_FILE ∨ name = CLEANUP ∨ TEMP_START.toList.isPrefixOf name.toList

theorem reserved_marker : reserved MARKER_FILE = true := by simp [reserved]

theorem reserved_cleanup : reserved CLEANUP = true := by simp [reserved]

theorem ReceiptTemp.starts (temp : ReceiptTemp) : TEMP_START.toList.isPrefixOf temp.name.toList = true := by
  rw [ReceiptTemp.name, String.toList_append, List.isPrefixOf_iff_prefix]
  exact List.prefix_append ..

theorem reserved_temp (temp : ReceiptTemp) : reserved temp.name = true := by
  simp [reserved, temp.starts]

theorem ReceiptTemp.name_ne {temp : ReceiptTemp} {other : String}
    (apart : TEMP_START.toList.isPrefixOf other.toList = false) : temp.name ≠ other := by
  rintro rfl
  rw [temp.starts] at apart
  cases apart

theorem ReceiptTemp.name_ne_marker (temp : ReceiptTemp) : temp.name ≠ MARKER_FILE :=
  temp.name_ne (by decide)

theorem ReceiptTemp.name_ne_cleanup (temp : ReceiptTemp) : temp.name ≠ CLEANUP :=
  temp.name_ne (by decide)

theorem ne_of_reserved {name other : String} (free : reserved name = false)
    (taken : reserved other = true) : name ≠ other := by
  rintro rfl
  rw [free] at taken
  cases taken

/-! ## Receipts on disk -/

/-- What the installer takes from outside this module: `serde_json` for receipts, and the payload
validators. -/
structure Catalog where
  /-- The schema probe and the receipt of that schema; `none` for a schema of the future. -/
  parseReceipt : String → Except String (Option ParsedStoredReceipt)
  renderReceipt : RuntimeReceiptV2 → String
  payloadReady : ArtifactDescriptor → Entries → Bool

/-- What the installer relies on: the receipt it renders is read back, and fits; validators look at
nothing the installer writes. -/
structure Catalog.Lawful (catalog : Catalog) (descriptor : ArtifactDescriptor) : Prop where
  parse_render : catalog.parseReceipt (catalog.renderReceipt (receiptV2FromDescriptor descriptor)) =
    .ok (some (.v2 (receiptV2FromDescriptor descriptor)))
  fits : (catalog.renderReceipt (receiptV2FromDescriptor descriptor)).utf8ByteSize ≤ 65536
  payload_reserved : ∀ es es' : Entries,
    (∀ name, reserved name = false → es'.find name = es.find name) →
    catalog.payloadReady descriptor es' = catalog.payloadReady descriptor es

/-! ## What a directory is -/

section Classify

variable (catalog : Catalog) (descriptor : ArtifactDescriptor)

/-- `parse_stored_receipt` of an entry: a regular file of 64 KiB at most. -/
def parseStoredReceipt : Option Node → Except String (Option ParsedStoredReceipt)
  | some (.file (.text json)) =>
    if json.utf8ByteSize ≤ 65536 then catalog.parseReceipt json
    else .error "El receipt debe ser un archivo regular de hasta 64 KiB"
  | some (.file (.binary _)) => .error "JSON inválido"
  | some _ => .error "El receipt debe ser un archivo regular de hasta 64 KiB"
  | none => .error "No se pudo leer el receipt"

def matchingReceipt (entry : Option Node) : Bool :=
  match parseStoredReceipt catalog entry with
  | .ok (some stored) => storedIdentityMatchesDescriptor descriptor stored
  | _ => false

inductive ArtifactCacheState where
  | ready
  | missing
  | invalidDirectory
  | invalidReceipt
  | receiptMismatch
  | incompletePayload
  deriving DecidableEq, Repr

def cacheStateInDirectory (es : Entries) : ArtifactCacheState :=
  match parseStoredReceipt catalog (es.find MARKER_FILE) with
  | .ok (some stored) =>
    if !storedIdentityMatchesDescriptor descriptor stored then .receiptMismatch
    else if !catalog.payloadReady descriptor es then .incompletePayload
    else .ready
  | _ => .invalidReceipt

/-- The root is not replaced while it is looked at: writers take turns. -/
def artifactCacheState : Option Node → ArtifactCacheState
  | none => .missing
  | some (.dir _ _ es) => cacheStateInDirectory catalog descriptor es
  | some _ => .invalidDirectory

inductive Tree where
  | absent
  | ready
  | ownedIncomplete
  | cleanup
  | foreign
  deriving DecidableEq, Repr

/-- What `classify` answers when it can read everything. -/
def classifyNode : Option Node → Tree
  | none => .absent
  | some (.dir ino dev es) =>
    if (Entries.find es CLEANUP).isSome then
      if (Entries.find es MARKER_FILE).isNone &&
          matchingReceipt catalog descriptor (Entries.find es CLEANUP) then .cleanup
      else .foreign
    else if !matchingReceipt catalog descriptor (Entries.find es MARKER_FILE) then .foreign
    else if artifactCacheState catalog descriptor (some (.dir ino dev es)) = .ready then .ready
    else .ownedIncomplete
  | some _ => .foreign

end Classify

end RoLauncher.Artifacts
