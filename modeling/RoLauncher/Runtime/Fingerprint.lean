import RoLauncher.Runtime.Encode
import RoLauncher.Prefix.Resolver

/-!
# The prefix fingerprint (`runtime/fingerprint.rs`)

The value that is hashed to a prefix fingerprint. Every field of the input has
its place in it, so that the value says which input it was made of
(`encodePrefixFingerprintInput_inj`).
-/

namespace RoLauncher.Runtime

open Prefix (RunnerKind)

/-- A `BTreeSet`: its elements in ascending order. -/
@[ext]
structure BTreeSet {α : Type} (lt : α → α → Prop) where
  items : List α
  ascending : items.Pairwise lt

/-- Order of the variants of an enumeration. -/
def ByRank {α : Type} (rank : α → Nat) (a b : α) : Prop := rank a < rank b

inductive DigestAlgorithm where
  | sha256
  | sha512
  deriving DecidableEq, Repr

@[ext]
structure SourceDigest where
  algorithm : DigestAlgorithm
  bytes : List UInt8
  deriving DecidableEq

inductive ArtifactArchitecture where
  | x86
  | x86_64
  deriving DecidableEq, Repr

def ArtifactArchitecture.rank : ArtifactArchitecture → Nat
  | .x86 => 0
  | .x86_64 => 1

@[ext]
structure ArtifactIdentity where
  schemaVersion : UInt64
  artifactId : String
  sourceDigest : SourceDigest
  platform : String
  architectures : BTreeSet (ByRank ArtifactArchitecture.rank)
  installRecipeRevision : UInt64

inductive ArchitecturePolicy where
  | runnerDefault
  deriving DecidableEq, Repr

inductive Wow64LayoutFingerprint where
  | oldWow64
  | newWow64
  | wine32Only
  | unknown
  deriving DecidableEq, Repr

inductive RunnerLocatorIdentity where
  | managed (artifactId : String)
  | external (locationToken : Vector UInt8 32)

inductive PrefixOwnedGraphics where
  | none
  | managedDxvk (identity : ArtifactIdentity)
  | winetricksDxvk (recipeId : String)

@[ext]
structure ExternalRoleMaterial where
  role : String
  digest : Option (List UInt8)

inductive RunnerPrefixIdentity where
  | managed (identity : ArtifactIdentity)
  | external (roles : List ExternalRoleMaterial)

@[ext]
structure PrefixFingerprintInput where
  architecturePolicy : ArchitecturePolicy
  runnerKind : RunnerKind
  runnerLocator : RunnerLocatorIdentity
  runnerPrefixIdentity : RunnerPrefixIdentity
  wow64Layout : Wow64LayoutFingerprint
  prefixOwnedGraphics : PrefixOwnedGraphics

def PREFIX_MATERIAL_RECIPE_REVISION : UInt64 := 1

open CanonicalValue

/-- A variant that holds nothing. -/
def unit (variant : String) : CanonicalValue := .enum variant emptyRecord

def ArtifactArchitecture.variant : ArtifactArchitecture → String
  | .x86 => "x86"
  | .x86_64 => "x86-64"

def DigestAlgorithm.name : DigestAlgorithm → String
  | .sha256 => "sha256"
  | .sha512 => "sha512"

def ArchitecturePolicy.variant : ArchitecturePolicy → String
  | .runnerDefault => "runner-default"

def runnerKindVariant : RunnerKind → String
  | .wine => "wine"
  | .proton => "proton"

def Wow64LayoutFingerprint.variant : Wow64LayoutFingerprint → String
  | .oldWow64 => "old-wow64"
  | .newWow64 => "new-wow64"
  | .wine32Only => "wine32-only"
  | .unknown => "unknown"

/-- A digest that may be missing. -/
def encodeDigest : Option (List UInt8) → CanonicalValue
  | some digest => .bytes digest
  | none => .null

def encodeArtifactIdentity (identity : ArtifactIdentity) : CanonicalValue :=
  ofFields [
    ("architectures", .sequence (identity.architectures.items.map fun arch => unit arch.variant)),
    ("artifact-id", .string identity.artifactId),
    ("install-recipe-revision", .u64 identity.installRecipeRevision),
    ("platform", .string identity.platform),
    ("schema-version", .u64 identity.schemaVersion),
    ("source-digest", ofFields [
      ("algorithm", .string identity.sourceDigest.algorithm.name),
      ("bytes", .bytes identity.sourceDigest.bytes)])]

def encodeRunnerLocator : RunnerLocatorIdentity → CanonicalValue
  | .managed artifactId => .enum "managed" (ofFields [
      ("artifact-id", .string artifactId),
      ("entrypoint-role", unit "entrypoint")])
  | .external locationToken => .enum "external" (ofFields [
      ("location-token", .bytes locationToken.toList)])

def encodeExternalRole (role : ExternalRoleMaterial) : CanonicalValue :=
  ofFields [("digest", encodeDigest role.digest), ("role", unit role.role)]

def encodeRunnerPrefixIdentity : RunnerPrefixIdentity → CanonicalValue
  | .managed identity => .enum "managed" (ofFields [("identity", encodeArtifactIdentity identity)])
  | .external roles => .enum "external" (ofFields [
      ("roles", .sequence (roles.map encodeExternalRole))])

def encodePrefixOwnedGraphics : PrefixOwnedGraphics → CanonicalValue
  | .none => unit "none"
  | .managedDxvk identity => .enum "managed-dxvk" (ofFields [
      ("identity", encodeArtifactIdentity identity)])
  | .winetricksDxvk recipeId => .enum "winetricks-dxvk" (ofFields [
      ("recipe-id", .string recipeId)])

def encodePrefixFingerprintInput (input : PrefixFingerprintInput) : CanonicalValue :=
  ofFields [
    ("architecture-policy", unit input.architecturePolicy.variant),
    ("isolation-critical-deps", .sequence []),
    ("prefix-owned-graphics", encodePrefixOwnedGraphics input.prefixOwnedGraphics),
    ("recipe-revision", .u64 PREFIX_MATERIAL_RECIPE_REVISION),
    ("runner-kind", unit (runnerKindVariant input.runnerKind)),
    ("runner-locator", encodeRunnerLocator input.runnerLocator),
    ("runner-prefix-identity", encodeRunnerPrefixIdentity input.runnerPrefixIdentity),
    ("wow64-layout", unit input.wow64Layout.variant)]

/-! ## Reading a value back -/

theorem unit_inj {variant variant' : String} (same : unit variant = unit variant') :
    variant = variant' :=
  (CanonicalValue.enum.inj same).1

theorem ArchitecturePolicy.eq (a b : ArchitecturePolicy) : a = b := by
  cases a
  cases b
  rfl

theorem ArtifactArchitecture.variant_inj {a b : ArtifactArchitecture}
    (same : a.variant = b.variant) : a = b := by
  cases a <;> cases b <;> first | rfl | exact absurd same (by decide)

theorem DigestAlgorithm.name_inj {a b : DigestAlgorithm} (same : a.name = b.name) : a = b := by
  cases a <;> cases b <;> first | rfl | exact absurd same (by decide)

theorem runnerKindVariant_inj {a b : RunnerKind}
    (same : runnerKindVariant a = runnerKindVariant b) : a = b := by
  cases a <;> cases b <;> first | rfl | exact absurd same (by decide)

theorem Wow64LayoutFingerprint.variant_inj {a b : Wow64LayoutFingerprint}
    (same : a.variant = b.variant) : a = b := by
  cases a <;> cases b <;> first | rfl | exact absurd same (by decide)

theorem encodeDigest_inj {a b : Option (List UInt8)} (same : encodeDigest a = encodeDigest b) :
    a = b := by
  cases a <;> cases b <;> simp only [encodeDigest, reduceCtorEq, CanonicalValue.bytes.injEq] at same
  · rfl
  · rw [same]

theorem encodeArtifactIdentity_inj {a b : ArtifactIdentity}
    (same : encodeArtifactIdentity a = encodeArtifactIdentity b) : a = b := by
  have fields := ofFields_inj same (by simp) rfl
  simp only [List.cons.injEq, Prod.mk.injEq, true_and, and_true, CanonicalValue.sequence.injEq,
    CanonicalValue.string.injEq, CanonicalValue.u64.injEq] at fields
  obtain ⟨architectures, id, revision, platform, version, digest⟩ := fields
  have digests := ofFields_inj digest (by simp) rfl
  simp only [List.cons.injEq, Prod.mk.injEq, true_and, and_true, CanonicalValue.string.injEq,
    CanonicalValue.bytes.injEq] at digests
  have items := List.map_injective_iff.mpr
    (fun _ _ same => ArtifactArchitecture.variant_inj (unit_inj same)) architectures
  exact ArtifactIdentity.ext version id
    (SourceDigest.ext (DigestAlgorithm.name_inj digests.1) digests.2) platform
    (BTreeSet.ext items) revision

theorem encodeRunnerLocator_inj {a b : RunnerLocatorIdentity}
    (same : encodeRunnerLocator a = encodeRunnerLocator b) : a = b := by
  cases a <;> cases b <;> obtain ⟨variant, payload⟩ := CanonicalValue.enum.inj same
  case managed.external | external.managed => exact absurd variant (by decide)
  case managed.managed =>
    have fields := ofFields_inj payload (by simp) rfl
    simp only [List.cons.injEq, Prod.mk.injEq, true_and, and_true,
      CanonicalValue.string.injEq] at fields
    rw [fields]
  case external.external =>
    have fields := ofFields_inj payload (by simp) rfl
    simp only [List.cons.injEq, Prod.mk.injEq, true_and, and_true,
      CanonicalValue.bytes.injEq] at fields
    rw [Vector.toList_inj.mp fields]

theorem encodeExternalRole_inj {a b : ExternalRoleMaterial}
    (same : encodeExternalRole a = encodeExternalRole b) : a = b := by
  have fields := ofFields_inj same (by simp) rfl
  simp only [List.cons.injEq, Prod.mk.injEq, true_and, and_true] at fields
  exact ExternalRoleMaterial.ext (unit_inj fields.2) (encodeDigest_inj fields.1)

theorem encodeRunnerPrefixIdentity_inj {a b : RunnerPrefixIdentity}
    (same : encodeRunnerPrefixIdentity a = encodeRunnerPrefixIdentity b) : a = b := by
  cases a <;> cases b <;> obtain ⟨variant, payload⟩ := CanonicalValue.enum.inj same
  case managed.external | external.managed => exact absurd variant (by decide)
  case managed.managed =>
    have fields := ofFields_inj payload (by simp) rfl
    simp only [List.cons.injEq, Prod.mk.injEq, true_and, and_true] at fields
    rw [encodeArtifactIdentity_inj fields]
  case external.external =>
    have fields := ofFields_inj payload (by simp) rfl
    simp only [List.cons.injEq, Prod.mk.injEq, true_and, and_true,
      CanonicalValue.sequence.injEq] at fields
    rw [List.map_injective_iff.mpr (fun _ _ => encodeExternalRole_inj) fields]

theorem encodePrefixOwnedGraphics_inj {a b : PrefixOwnedGraphics}
    (same : encodePrefixOwnedGraphics a = encodePrefixOwnedGraphics b) : a = b := by
  cases a <;> cases b <;> obtain ⟨variant, payload⟩ := CanonicalValue.enum.inj same
  case none.none => rfl
  case managedDxvk.managedDxvk =>
    have fields := ofFields_inj payload (by simp) rfl
    simp only [List.cons.injEq, Prod.mk.injEq, true_and, and_true] at fields
    rw [encodeArtifactIdentity_inj fields]
  case winetricksDxvk.winetricksDxvk =>
    have fields := ofFields_inj payload (by simp) rfl
    simp only [List.cons.injEq, Prod.mk.injEq, true_and, and_true,
      CanonicalValue.string.injEq] at fields
    rw [fields]
  all_goals exact absurd variant (by decide)

/-- No two inputs have the same value. -/
theorem encodePrefixFingerprintInput_inj {a b : PrefixFingerprintInput}
    (same : encodePrefixFingerprintInput a = encodePrefixFingerprintInput b) : a = b := by
  have fields := ofFields_inj same (by simp) rfl
  simp only [List.cons.injEq, Prod.mk.injEq, true_and, and_true] at fields
  obtain ⟨graphics, kind, locator, identity, layout⟩ := fields
  exact PrefixFingerprintInput.ext (ArchitecturePolicy.eq _ _) (runnerKindVariant_inj (unit_inj kind))
    (encodeRunnerLocator_inj locator) (encodeRunnerPrefixIdentity_inj identity)
    (Wow64LayoutFingerprint.variant_inj (unit_inj layout)) (encodePrefixOwnedGraphics_inj graphics)

/-! ## Texts of four gigabytes -/

/-- What is written of a role before the length of its digest, and behind the digest. -/
def roleFront : List UInt8 := 0x07 :: (lengthBytes 2 ++ (encodeString "digest" ++ [0x05]))

def roleBack : List UInt8 := encodeString "role" ++ (unit "").encode

theorem encode_role (digest : List UInt8) :
    (encodeExternalRole ⟨"", some digest⟩).encode
      = roleFront ++ (lengthBytes digest.length ++ (digest ++ roleBack)) := by
  unfold encodeExternalRole
  rw [ofFields_of_ascending ["digest", "role"] rfl (by decide)]
  simp only [encode, encodeFields, encodeDigest, List.length_cons, List.length_nil, List.append_nil,
    roleFront, roleBack, List.cons_append, List.append_assoc, List.nil_append]

/-- From the end of one digest to the digest of no length behind it. -/
def gap : List UInt8 := roleBack ++ (roleFront ++ lengthBytes 0)

theorem lengthBytes_wraps : lengthBytes (2 ^ 32) = lengthBytes 0 := by decide

/-- A digest of 2 ^ 32 bytes is written as if it had none, and its bytes are read
as the fields behind it. -/
theorem encode_long_role {filler : List UInt8} (long : gap.length + filler.length = 2 ^ 32) :
    encodeValues [encodeExternalRole ⟨"", some (gap ++ filler)⟩, encodeExternalRole ⟨"", some []⟩]
      = encodeValues [encodeExternalRole ⟨"", some []⟩,
        encodeExternalRole ⟨"", some (filler ++ gap)⟩] := by
  simp only [encodeValues, encode_role, List.append_nil, List.length_nil, List.length_append,
    List.nil_append, long, Nat.add_comm filler.length, lengthBytes_wraps]
  simp only [gap, List.append_assoc]

theorem encode_roles_congr {roles roles' : List ExternalRoleMaterial}
    (length : roles.length = roles'.length)
    (same : encodeValues (roles.map encodeExternalRole)
      = encodeValues (roles'.map encodeExternalRole)) :
    (encodeRunnerPrefixIdentity (.external roles)).encode
      = (encodeRunnerPrefixIdentity (.external roles')).encode := by
  simp only [encodeRunnerPrefixIdentity]
  rw [ofFields_of_ascending ["roles"] rfl (by decide), ofFields_of_ascending ["roles"] rfl (by decide)]
  simp only [encode, encodeFields, List.length_map, List.length_cons, List.length_nil, length, same]

def prefixFieldIds : List String :=
  ["architecture-policy", "isolation-critical-deps", "prefix-owned-graphics", "recipe-revision",
    "runner-kind", "runner-locator", "runner-prefix-identity", "wow64-layout"]

theorem prefixFieldIds_ascending :
    prefixFieldIds.Pairwise fun left right => utf8 left ≤ utf8 right := by
  decide

theorem encode_prefix_congr (input : PrefixFingerprintInput)
    {identity identity' : RunnerPrefixIdentity}
    (same : (encodeRunnerPrefixIdentity identity).encode
      = (encodeRunnerPrefixIdentity identity').encode) :
    (encodePrefixFingerprintInput { input with runnerPrefixIdentity := identity }).encode
      = (encodePrefixFingerprintInput { input with runnerPrefixIdentity := identity' }).encode := by
  unfold encodePrefixFingerprintInput
  rw [ofFields_of_ascending prefixFieldIds rfl prefixFieldIds_ascending,
    ofFields_of_ascending prefixFieldIds rfl prefixFieldIds_ascending]
  simp only [encode, encodeFields, List.length_cons, same]

/-- A prefix input, its runner seen from outside. -/
def externalInput (roles : List ExternalRoleMaterial) : PrefixFingerprintInput where
  architecturePolicy := .runnerDefault
  runnerKind := .wine
  runnerLocator := .external (Vector.replicate 32 0)
  runnerPrefixIdentity := .external roles
  wow64Layout := .unknown
  prefixOwnedGraphics := .none

theorem externalInput_collision : ∃ roles roles', roles ≠ roles' ∧
    (encodePrefixFingerprintInput (externalInput roles)).encode
      = (encodePrefixFingerprintInput (externalInput roles')).encode := by
  have short : gap.length ≤ 2 ^ 32 := by decide
  have long : gap.length + (List.replicate (2 ^ 32 - gap.length) (0 : UInt8)).length = 2 ^ 32 := by
    rw [List.length_replicate]
    omega
  generalize List.replicate (2 ^ 32 - gap.length) (0 : UInt8) = filler at long
  refine ⟨[⟨"", some (gap ++ filler)⟩, ⟨"", some []⟩], [⟨"", some []⟩, ⟨"", some (filler ++ gap)⟩],
    ?_, encode_prefix_congr (externalInput []) (encode_roles_congr rfl (encode_long_role long))⟩
  intro same
  simp only [List.cons.injEq, ExternalRoleMaterial.mk.injEq, Option.some.injEq,
    List.append_eq_nil_iff] at same
  have empty : gap = [] := same.1.2.1
  exact absurd (congrArg List.length empty) (by decide)

end RoLauncher.Runtime
