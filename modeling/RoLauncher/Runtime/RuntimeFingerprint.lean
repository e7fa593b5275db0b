import RoLauncher.Runtime.Fingerprint

/-!
# The runtime fingerprint (`runtime/runtime_fingerprint.rs`)

The value that is hashed to a runtime fingerprint. It leaves out of its input
how well the payload of the runner was verified, the kind that the identity of
the runner repeats, and what a digest says of itself, and writes a layout that
is known to be unknown like one that is not known. `RuntimeFingerprintInput.kept`
is the rest, and the value says exactly that
(`encodeRuntimeFingerprintInput_eq_iff`).
-/

namespace RoLauncher.Runtime

open Prefix (RunnerKind PrefixIdentityStatus)

inductive FingerprintCapability (T : Type) where
  | known (value : T)
  | unknown
  deriving DecidableEq

inductive Wow64Layout where
  | oldWow64
  | newWow64
  | wine32Only
  deriving DecidableEq, Repr

inductive CapabilitySource where
  | processOutput
  | versionFile
  | structuralProbeV1
  deriving DecidableEq, Repr

inductive PrefixArchitecture where
  | x86
  | x86_64
  deriving DecidableEq, Repr

inductive ObservedPrefixArchitectureV1 where
  | unknown
  deriving DecidableEq, Repr

inductive UmuProvenanceV1 where
  | runnerManaged
  | none
  deriving DecidableEq, Repr

inductive RuntimeOverlayIdentityV1 where
  | none
  | dgVoodoo (componentId : String)
  deriving DecidableEq

inductive RuntimeDxvkIdentityV1 where
  | runnerOwned (componentId : String)
  | managedPrefix (artifactId : String)
  | winetricksPrefix (recipeId : String)
  deriving DecidableEq

inductive SyncPlan where
  | wineServer
  | esync
  | fsync
  | runnerManaged
  deriving DecidableEq, Repr

inductive GraphicsProfile where
  | dxvk
  | dgVoodooDxvk
  deriving DecidableEq, Repr

inductive ObservedMaterialRole where
  | entrypoint
  | wineServer
  | protonInnerWine
  | protonVersion
  | umuEntrypoint
  | wineTkgConfig
  deriving DecidableEq, Repr

def ObservedMaterialRole.rank : ObservedMaterialRole → Nat
  | .entrypoint => 0
  | .wineServer => 1
  | .protonInnerWine => 2
  | .protonVersion => 3
  | .umuEntrypoint => 4
  | .wineTkgConfig => 5

@[ext]
structure ObservedMaterial where
  role : ObservedMaterialRole
  digest : Option (List UInt8)

/-- By role, then by digest, a missing one first. -/
def ObservedMaterial.Before (a b : ObservedMaterial) : Prop :=
  a.role.rank < b.role.rank ∨ a.role = b.role ∧
    ((a.digest = none ∧ b.digest ≠ none) ∨
      ∃ first second, a.digest = some first ∧ b.digest = some second ∧ first < second)

inductive PayloadVerification where
  | shapeVerified
  | unverified
  | sourceAndPayloadVerified
  | corrupt
  deriving DecidableEq, Repr

structure ArtifactReceipt where
  identity : ArtifactIdentity
  payloadVerification : PayloadVerification

@[ext]
structure ExternalObserved where
  roles : BTreeSet (ByRank ObservedMaterialRole.rank)
  complete : Bool

inductive ComponentProvenance where
  | artifactReceipt (receipt : ArtifactReceipt)
  | bundledResource (resourceId : String)
  | externalObserved (observed : ExternalObserved)
  | legacyUnpinned (recipeId : String)

@[ext]
structure RunnerIdentity where
  kind : RunnerKind
  provenance : ComponentProvenance
  observedMaterial : BTreeSet ObservedMaterial.Before

@[ext]
structure FingerprintDigest where
  schemaVersion : UInt64
  algorithm : String
  digest : Vector UInt8 32

@[ext]
structure RuntimeFingerprintInput where
  runtimePlanRecipeRevision : UInt64
  runnerKind : RunnerKind
  runnerIdentity : RunnerIdentity
  umuProvenance : UmuProvenanceV1
  wow64Layout : FingerprintCapability Wow64LayoutFingerprint
  supportedPrefixArchitectures : FingerprintCapability (List PrefixArchitecture)
  syncPlan : SyncPlan
  graphicsProfile : GraphicsProfile
  dxvk : RuntimeDxvkIdentityV1
  overlay : RuntimeOverlayIdentityV1
  prefixBindingStatus : PrefixIdentityStatus
  desiredPrefixFingerprint : FingerprintDigest
  observedPrefixArchitecture : ObservedPrefixArchitectureV1
  baseSetupRecipeRevision : UInt64
  webview2Required : Bool
  invocationPolicyRevision : UInt64
  environmentBuilderRevision : UInt64

open CanonicalValue

def Wow64Layout.fingerprint : Wow64Layout → Wow64LayoutFingerprint
  | .oldWow64 => .oldWow64
  | .newWow64 => .newWow64
  | .wine32Only => .wine32Only

inductive UnknownCapabilityReason where
  | notReported
  | layoutNotProven
  | descriptorDoesNotDeclare
  deriving DecidableEq, Repr

inductive CapabilityEvidence (T : Type) where
  | known (value : T) (source : CapabilitySource)
  | unknown (reason : UnknownCapabilityReason)

/-- `map_wow64`. -/
def mapWow64 : CapabilityEvidence Wow64Layout → FingerprintCapability Wow64LayoutFingerprint
  | .known value _ => .known value.fingerprint
  | .unknown _ => .unknown

def SyncPlan.variant : SyncPlan → String
  | .wineServer => "wine-server"
  | .esync => "esync"
  | .fsync => "fsync"
  | .runnerManaged => "runner-managed"

def GraphicsProfile.variant : GraphicsProfile → String
  | .dxvk => "dxvk"
  | .dgVoodooDxvk => "dgvoodoo-dxvk"

def bindingStatusVariant : PrefixIdentityStatus → String
  | .v3Verified => "v3-verified"
  | .legacyV2RunnerMatched => "legacy-v2-runner-matched"
  | .unknown => "unknown"
  | .incompatible => "incompatible"

def PrefixArchitecture.variant : PrefixArchitecture → String
  | .x86 => "x86"
  | .x86_64 => "x86-64"

/-- `observed_role_id`. -/
def ObservedMaterialRole.id : ObservedMaterialRole → String
  | .entrypoint => "entrypoint"
  | .wineServer => "wine-server"
  | .protonInnerWine => "proton-inner-wine"
  | .protonVersion => "proton-version"
  | .umuEntrypoint => "umu-entrypoint"
  | .wineTkgConfig => "wine-tkg-config"

def encodeUmu : UmuProvenanceV1 → CanonicalValue
  | .runnerManaged => unit "runner-managed"
  | .none => .null

def encodeWow64 : FingerprintCapability Wow64LayoutFingerprint → CanonicalValue
  | .unknown => unit "unknown"
  | .known value => unit value.variant

def encodeArchitectures : FingerprintCapability (List PrefixArchitecture) → CanonicalValue
  | .unknown => unit "unknown"
  | .known values => .enum "known" (.sequence (values.map fun arch => unit arch.variant))

def encodeDxvk : RuntimeDxvkIdentityV1 → CanonicalValue
  | .runnerOwned componentId => .enum "runner-owned" (ofFields [
      ("component-id", .string componentId)])
  | .managedPrefix artifactId => .enum "managed-prefix" (ofFields [
      ("artifact-id", .string artifactId)])
  | .winetricksPrefix recipeId => .enum "winetricks-prefix" (ofFields [
      ("recipe-id", .string recipeId)])

def encodeOverlay : RuntimeOverlayIdentityV1 → CanonicalValue
  | .none => unit "none"
  | .dgVoodoo componentId => .enum "dgvoodoo" (ofFields [("component-id", .string componentId)])

def encodeObservedMaterial (material : ObservedMaterial) : CanonicalValue :=
  ofFields [("digest", encodeDigest material.digest), ("role", unit material.role.id)]

def encodeComponentProvenance : ComponentProvenance → CanonicalValue
  | .artifactReceipt receipt => .enum "artifact-receipt" (ofFields [
      ("identity", encodeArtifactIdentity receipt.identity)])
  | .bundledResource resourceId => .enum "bundled-resource" (ofFields [
      ("resource-id", .string resourceId)])
  | .externalObserved observed => .enum "external-observed" (ofFields [
      ("completeness", .bool observed.complete),
      ("roles", .sequence (observed.roles.items.map fun role => unit role.id))])
  | .legacyUnpinned recipeId => .enum "legacy-unpinned" (ofFields [
      ("recipe-id", .string recipeId)])

def encodeRunnerIdentity (identity : RunnerIdentity) : CanonicalValue :=
  ofFields [
    ("provenance", encodeComponentProvenance identity.provenance),
    ("observed-material", .sequence (identity.observedMaterial.items.map encodeObservedMaterial))]

def encodeRuntimeFingerprintInput (input : RuntimeFingerprintInput) : CanonicalValue :=
  ofFields [
    ("base-setup-recipe-revision", .u64 input.baseSetupRecipeRevision),
    ("desired-prefix-fingerprint", .bytes input.desiredPrefixFingerprint.digest.toList),
    ("dxvk", encodeDxvk input.dxvk),
    ("environment-builder-revision", .u64 input.environmentBuilderRevision),
    ("graphics-profile", unit input.graphicsProfile.variant),
    ("invocation-policy-revision", .u64 input.invocationPolicyRevision),
    ("observed-prefix-architecture", unit "unknown"),
    ("overlay", encodeOverlay input.overlay),
    ("overlay-config-digest", .null),
    ("prefix-binding-status", unit (bindingStatusVariant input.prefixBindingStatus)),
    ("repairable-dependency-identities", .sequence []),
    ("runner-identity", encodeRunnerIdentity input.runnerIdentity),
    ("runner-kind", unit (runnerKindVariant input.runnerKind)),
    ("runtime-plan-recipe-revision", .u64 input.runtimePlanRecipeRevision),
    ("supported-prefix-architectures", encodeArchitectures input.supportedPrefixArchitectures),
    ("sync-plan", unit input.syncPlan.variant),
    ("umu-provenance", encodeUmu input.umuProvenance),
    ("webview2-required", .bool input.webview2Required),
    ("wow64-layout", encodeWow64 input.wow64Layout)]

/-! ## What the value keeps -/

/-- Without how well the payload was verified. -/
def ComponentProvenance.kept : ComponentProvenance → ComponentProvenance
  | .artifactReceipt receipt => .artifactReceipt ⟨receipt.identity, .unverified⟩
  | provenance => provenance

/-- Without the kind, which the input holds besides. -/
def RunnerIdentity.kept (identity : RunnerIdentity) : RunnerIdentity :=
  { identity with kind := .wine, provenance := identity.provenance.kept }

/-- The bytes of a digest alone. -/
def FingerprintDigest.kept (digest : FingerprintDigest) : FingerprintDigest :=
  { digest with schemaVersion := 0, algorithm := "" }

/-- A layout known to be unknown is not known. -/
def keptLayout :
    FingerprintCapability Wow64LayoutFingerprint → FingerprintCapability Wow64LayoutFingerprint
  | .known .unknown => .unknown
  | layout => layout

def RuntimeFingerprintInput.kept (input : RuntimeFingerprintInput) : RuntimeFingerprintInput :=
  { input with
    runnerIdentity := input.runnerIdentity.kept
    wow64Layout := keptLayout input.wow64Layout
    desiredPrefixFingerprint := input.desiredPrefixFingerprint.kept }

/-- What is read from a runner is kept as it is. -/
theorem keptLayout_mapWow64 (evidence : CapabilityEvidence Wow64Layout) :
    keptLayout (mapWow64 evidence) = mapWow64 evidence := by
  cases evidence with
  | known value source => cases value <;> rfl
  | unknown reason => rfl

theorem encodeWow64_kept (layout : FingerprintCapability Wow64LayoutFingerprint) :
    encodeWow64 (keptLayout layout) = encodeWow64 layout := by
  cases layout with
  | known value => cases value <;> rfl
  | unknown => rfl

theorem encodeRunnerIdentity_kept (identity : RunnerIdentity) :
    encodeRunnerIdentity identity.kept = encodeRunnerIdentity identity := by
  have provenance : encodeComponentProvenance identity.provenance.kept
      = encodeComponentProvenance identity.provenance := by
    cases identity.provenance <;> rfl
  unfold encodeRunnerIdentity RunnerIdentity.kept
  rw [provenance]

theorem encodeRuntimeFingerprintInput_kept (input : RuntimeFingerprintInput) :
    encodeRuntimeFingerprintInput input.kept = encodeRuntimeFingerprintInput input := by
  unfold encodeRuntimeFingerprintInput RuntimeFingerprintInput.kept
  rw [encodeRunnerIdentity_kept, encodeWow64_kept]
  rfl

/-! ## Reading a value back -/

theorem ObservedPrefixArchitectureV1.eq (a b : ObservedPrefixArchitectureV1) : a = b := by
  cases a
  cases b
  rfl

theorem SyncPlan.variant_inj {a b : SyncPlan} (same : a.variant = b.variant) : a = b := by
  cases a <;> cases b <;> first | rfl | exact absurd same (by decide)

theorem GraphicsProfile.variant_inj {a b : GraphicsProfile} (same : a.variant = b.variant) :
    a = b := by
  cases a <;> cases b <;> first | rfl | exact absurd same (by decide)

theorem bindingStatusVariant_inj {a b : PrefixIdentityStatus}
    (same : bindingStatusVariant a = bindingStatusVariant b) : a = b := by
  cases a <;> cases b <;> first | rfl | exact absurd same (by decide)

theorem PrefixArchitecture.variant_inj {a b : PrefixArchitecture}
    (same : a.variant = b.variant) : a = b := by
  cases a <;> cases b <;> first | rfl | exact absurd same (by decide)

theorem ObservedMaterialRole.id_inj {a b : ObservedMaterialRole} (same : a.id = b.id) :
    a = b := by
  cases a <;> cases b <;> first | rfl | exact absurd same (by decide)

theorem encodeUmu_inj {a b : UmuProvenanceV1} (same : encodeUmu a = encodeUmu b) : a = b := by
  cases a <;> cases b <;> first | rfl | cases same

theorem encodeWow64_inj {a b : FingerprintCapability Wow64LayoutFingerprint}
    (same : encodeWow64 a = encodeWow64 b) : keptLayout a = keptLayout b := by
  cases a with
  | known first =>
    cases b with
    | known second => rw [Wow64LayoutFingerprint.variant_inj (unit_inj same)]
    | unknown =>
      cases first <;> first | rfl | exact absurd (unit_inj same) (by decide)
  | unknown =>
    cases b with
    | known second => cases second <;> first | rfl | exact absurd (unit_inj same) (by decide)
    | unknown => rfl

theorem encodeArchitectures_inj {a b : FingerprintCapability (List PrefixArchitecture)}
    (same : encodeArchitectures a = encodeArchitectures b) : a = b := by
  cases a <;> cases b <;> obtain ⟨variant, payload⟩ := CanonicalValue.enum.inj same
  case unknown.unknown => rfl
  case known.known =>
    have items := List.map_injective_iff.mpr
      (fun _ _ same => PrefixArchitecture.variant_inj (unit_inj same))
      (CanonicalValue.sequence.inj payload)
    rw [items]
  all_goals exact absurd variant (by decide)

theorem encodeDxvk_inj {a b : RuntimeDxvkIdentityV1} (same : encodeDxvk a = encodeDxvk b) :
    a = b := by
  cases a <;> cases b <;> obtain ⟨variant, payload⟩ := CanonicalValue.enum.inj same
  case runnerOwned.runnerOwned | managedPrefix.managedPrefix | winetricksPrefix.winetricksPrefix =>
    have fields := ofFields_inj payload (by simp) rfl
    simp only [List.cons.injEq, Prod.mk.injEq, true_and, and_true,
      CanonicalValue.string.injEq] at fields
    rw [fields]
  all_goals exact absurd variant (by decide)

theorem encodeOverlay_inj {a b : RuntimeOverlayIdentityV1}
    (same : encodeOverlay a = encodeOverlay b) : a = b := by
  cases a <;> cases b <;> obtain ⟨variant, payload⟩ := CanonicalValue.enum.inj same
  case none.none => rfl
  case dgVoodoo.dgVoodoo =>
    have fields := ofFields_inj payload (by simp) rfl
    simp only [List.cons.injEq, Prod.mk.injEq, true_and, and_true,
      CanonicalValue.string.injEq] at fields
    rw [fields]
  all_goals exact absurd variant (by decide)

theorem encodeObservedMaterial_inj {a b : ObservedMaterial}
    (same : encodeObservedMaterial a = encodeObservedMaterial b) : a = b := by
  have fields := ofFields_inj same (by simp) rfl
  simp only [List.cons.injEq, Prod.mk.injEq, true_and, and_true] at fields
  exact ObservedMaterial.ext (ObservedMaterialRole.id_inj (unit_inj fields.2))
    (encodeDigest_inj fields.1)

theorem encodeComponentProvenance_inj {a b : ComponentProvenance}
    (same : encodeComponentProvenance a = encodeComponentProvenance b) : a.kept = b.kept := by
  cases a <;> cases b <;> obtain ⟨variant, payload⟩ := CanonicalValue.enum.inj same
  case artifactReceipt.artifactReceipt =>
    have fields := ofFields_inj payload (by simp) rfl
    simp only [List.cons.injEq, Prod.mk.injEq, true_and, and_true] at fields
    simp only [ComponentProvenance.kept, encodeArtifactIdentity_inj fields]
  case bundledResource.bundledResource | legacyUnpinned.legacyUnpinned =>
    have fields := ofFields_inj payload (by simp) rfl
    simp only [List.cons.injEq, Prod.mk.injEq, true_and, and_true,
      CanonicalValue.string.injEq] at fields
    rw [fields]
  case externalObserved.externalObserved first second =>
    have fields := ofFields_inj payload (by simp) rfl
    simp only [List.cons.injEq, Prod.mk.injEq, true_and, and_true, CanonicalValue.bool.injEq,
      CanonicalValue.sequence.injEq] at fields
    obtain ⟨complete, roles⟩ := fields
    have items := List.map_injective_iff.mpr
      (fun _ _ same => ObservedMaterialRole.id_inj (unit_inj same)) roles
    rw [ExternalObserved.ext (BTreeSet.ext items) complete]
  all_goals exact absurd variant (by decide)

theorem encodeRunnerIdentity_inj {a b : RunnerIdentity}
    (same : encodeRunnerIdentity a = encodeRunnerIdentity b) : a.kept = b.kept := by
  have fields := ofFields_inj same (by simp) rfl
  simp only [List.cons.injEq, Prod.mk.injEq, true_and, and_true,
    CanonicalValue.sequence.injEq] at fields
  obtain ⟨provenance, material⟩ := fields
  have items := List.map_injective_iff.mpr (fun _ _ => encodeObservedMaterial_inj) material
  exact RunnerIdentity.ext rfl (encodeComponentProvenance_inj provenance) (BTreeSet.ext items)

/-- Two inputs have the same value exactly if they agree in what is kept of them. -/
theorem encodeRuntimeFingerprintInput_eq_iff {a b : RuntimeFingerprintInput} :
    encodeRuntimeFingerprintInput a = encodeRuntimeFingerprintInput b ↔ a.kept = b.kept := by
  constructor
  · intro same
    have fields := ofFields_inj same (by simp) rfl
    simp only [List.cons.injEq, Prod.mk.injEq, true_and, and_true, CanonicalValue.u64.injEq,
      CanonicalValue.bytes.injEq, CanonicalValue.bool.injEq] at fields
    obtain ⟨setup, digest, dxvk, environment, profile, policy, overlay, status, identity, kind,
      plan, architectures, sync, umu, webview, layout⟩ := fields
    have observed : a.observedPrefixArchitecture = b.observedPrefixArchitecture :=
      ObservedPrefixArchitectureV1.eq _ _
    exact RuntimeFingerprintInput.ext plan (runnerKindVariant_inj (unit_inj kind))
      (encodeRunnerIdentity_inj identity) (encodeUmu_inj umu) (encodeWow64_inj layout)
      (encodeArchitectures_inj architectures) (SyncPlan.variant_inj (unit_inj sync))
      (GraphicsProfile.variant_inj (unit_inj profile)) (encodeDxvk_inj dxvk)
      (encodeOverlay_inj overlay) (bindingStatusVariant_inj (unit_inj status))
      (FingerprintDigest.ext rfl rfl (Vector.toList_inj.mp digest)) observed setup webview policy
      environment
  · intro same
    rw [← encodeRuntimeFingerprintInput_kept, same, encodeRuntimeFingerprintInput_kept]

/-- **What the fingerprints tell apart**: the value of a prefix says its input, that
of a runtime what is kept of its input, and their bytes the same where every
text and list is short. -/
theorem fingerprints_separate :
    (∀ a b : PrefixFingerprintInput,
      encodePrefixFingerprintInput a = encodePrefixFingerprintInput b → a = b) ∧
    (∀ a b : PrefixFingerprintInput, (encodePrefixFingerprintInput a).Small →
      (encodePrefixFingerprintInput b).Small →
      (encodePrefixFingerprintInput a).encode = (encodePrefixFingerprintInput b).encode → a = b) ∧
    (∀ a b : RuntimeFingerprintInput,
      encodeRuntimeFingerprintInput a = encodeRuntimeFingerprintInput b ↔ a.kept = b.kept) ∧
    (∀ a b : RuntimeFingerprintInput, (encodeRuntimeFingerprintInput a).Small →
      (encodeRuntimeFingerprintInput b).Small →
      ((encodeRuntimeFingerprintInput a).encode = (encodeRuntimeFingerprintInput b).encode ↔
        a.kept = b.kept)) ∧
    ∀ evidence, keptLayout (mapWow64 evidence) = mapWow64 evidence := by
  have cut {a b : CanonicalValue} (small : a.Small) (small' : b.Small)
      (same : a.encode = b.encode) : a = b :=
    (encode_cancel a b [] [] small small' (by rw [same])).1
  refine ⟨fun _ _ => encodePrefixFingerprintInput_inj, ?_,
    fun _ _ => encodeRuntimeFingerprintInput_eq_iff, ?_, keptLayout_mapWow64⟩
  · intro a b small small' same
    exact encodePrefixFingerprintInput_inj (cut small small' same)
  · intro a b small small'
    rw [← encodeRuntimeFingerprintInput_eq_iff]
    constructor
    · exact cut small small'
    · intro same
      rw [same]

theorem small_unit {variant : String} (short : Short (utf8 variant).length) :
    (unit variant).Small :=
  ⟨short, Nat.two_pow_pos 32, trivial⟩

theorem small_externalInput (kind : RunnerKind) :
    (encodePrefixFingerprintInput { externalInput [] with runnerKind := kind }).Small := by
  have token : Short (Vector.replicate 32 (0 : UInt8)).toList.length := by decide
  have policy : (unit ArchitecturePolicy.runnerDefault.variant).Small := small_unit (by decide)
  have layout : (unit Wow64LayoutFingerprint.unknown.variant).Small := small_unit (by decide)
  have none : (encodePrefixOwnedGraphics .none).Small := small_unit (by decide)
  have locator : (encodeRunnerLocator (.external (Vector.replicate 32 0))).Small :=
    ⟨by decide, small_ofFields (by decide) ⟨by decide, token, trivial⟩⟩
  have identity : (encodeRunnerPrefixIdentity (.external [])).Small :=
    ⟨by decide, small_ofFields (by decide) ⟨by decide, ⟨by decide, trivial⟩, trivial⟩⟩
  have kinds : (unit (runnerKindVariant kind)).Small := by
    cases kind
    · exact small_unit (by decide)
    · exact small_unit (by decide)
  apply small_ofFields (by simp only [List.length_cons, List.length_nil]; decide)
  exact ⟨by decide, policy, by decide, ⟨by decide, trivial⟩, by decide, none, by decide, trivial,
    by decide, kinds, by decide, locator, by decide, identity, by decide, layout, trivial⟩

theorem fingerprints_separate_kinds :
    (encodePrefixFingerprintInput { externalInput [] with runnerKind := .wine }).encode
      ≠ (encodePrefixFingerprintInput { externalInput [] with runnerKind := .proton }).encode := by
  intro same
  have inputs := fingerprints_separate.2.1 _ _ (small_externalInput .wine)
    (small_externalInput .proton) same
  exact absurd (congrArg PrefixFingerprintInput.runnerKind inputs) (by decide)

/-- A runtime input of a Wine runner, its layout as given. -/
def layoutInput (layout : FingerprintCapability Wow64LayoutFingerprint) :
    RuntimeFingerprintInput where
  runtimePlanRecipeRevision := 1
  runnerKind := .wine
  runnerIdentity := ⟨.wine, .legacyUnpinned "wine", ⟨[], .nil⟩⟩
  umuProvenance := .none
  wow64Layout := layout
  supportedPrefixArchitectures := .unknown
  syncPlan := .wineServer
  graphicsProfile := .dxvk
  dxvk := .runnerOwned "runner/dxvk"
  overlay := .none
  prefixBindingStatus := .unknown
  desiredPrefixFingerprint := ⟨1, "sha256", Vector.replicate 32 0⟩
  observedPrefixArchitecture := .unknown
  baseSetupRecipeRevision := 1
  webview2Required := false
  invocationPolicyRevision := 1
  environmentBuilderRevision := 1

/-- A layout known to be unknown is written like one that is not known, and a
digest of 2 ^ 32 bytes like an empty one. -/
theorem fingerprints_collide :
    (layoutInput (.known .unknown) ≠ layoutInput .unknown ∧
      (encodeRuntimeFingerprintInput (layoutInput (.known .unknown))).encode
        = (encodeRuntimeFingerprintInput (layoutInput .unknown)).encode) ∧
    ∃ roles roles', externalInput roles ≠ externalInput roles' ∧
      (encodePrefixFingerprintInput (externalInput roles)).encode
        = (encodePrefixFingerprintInput (externalInput roles')).encode := by
  constructor
  · constructor
    · intro same
      exact absurd (congrArg RuntimeFingerprintInput.wow64Layout same) (by decide)
    · have values : encodeRuntimeFingerprintInput (layoutInput (.known .unknown))
          = encodeRuntimeFingerprintInput (layoutInput .unknown) :=
        encodeRuntimeFingerprintInput_eq_iff.mpr rfl
      rw [values]
  · obtain ⟨roles, roles', different, same⟩ := externalInput_collision
    refine ⟨roles, roles', ?_, same⟩
    intro inputs
    have identities := congrArg PrefixFingerprintInput.runnerPrefixIdentity inputs
    exact different (RunnerPrefixIdentity.external.inj identities)

end RoLauncher.Runtime
