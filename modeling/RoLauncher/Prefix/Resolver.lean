import RoLauncher.Prefix.Gate

/-!
# Binding resolution (`tools/runtime/identity.rs`)

`resolvePrefixBindingForLocation` chooses the prefix a launch runs in. It
stays on a root with an interrupted transaction; else it takes the
fingerprint's own v3 root when `tryV3Verified` trusts its manifest; else it
reports a conflict there, or falls back to the v2 root of the runner.

The resolver trusts a manifest as `inspectPrefix` reads it: through symbolic
links, without a bound, and without asking for its scope. Recovery reads the
same file with `readManifest` and `committedManifest`. `identity_agrees_iff`
says when the root the one verifies is a root the other calls committed.
-/

namespace RoLauncher.Prefix

open RoLauncher.Files RoLauncher.Crash

/-! ## Data -/

inductive PrefixIdentityStatus where
  | v3Verified
  | legacyV2RunnerMatched
  | unknown
  | incompatible
  deriving DecidableEq, Repr

inductive RuntimeEligibility where
  | eligible
  | ineligible (reasons : List String)
  | indeterminate (reasons : List String)
  deriving DecidableEq, Repr

/-- A fingerprint, by the 64 hex digits of its digest. -/
structure PrefixFingerprint where
  digest : String
  full : isFullDigest digest = true
  deriving DecidableEq, Repr

structure PrefixBinding where
  status : PrefixIdentityStatus
  desiredFingerprint : PrefixFingerprint
  location : PrefixLocation
  eligibility : RuntimeEligibility
  deriving DecidableEq, Repr

inductive RunnerKind where
  | wine
  | proton
  deriving DecidableEq, Repr

structure ResolvedRunner where
  kind : RunnerKind
  runnerPath : String
  /-- What `wine --version` reports is a 7.16. -/
  reports716 : Bool

namespace ResolvedRunner

def isProton (runner : ResolvedRunner) : Bool := runner.kind = .proton

def isWine716 (runner : ResolvedRunner) : Bool := runner.kind = .wine && runner.reports716

def kindLabel (runner : ResolvedRunner) : String :=
  match runner.kind with
  | .wine => "wine"
  | .proton => "proton"

end ResolvedRunner

/-- What resolution takes from its surroundings besides the host's. -/
structure Surroundings where
  /-- `fs::canonicalize`, or the path itself where that fails. -/
  canonicalOrOriginal : String → String
  /-- `stable_id_hash`, printed with 16 hex digits. -/
  stableIdHash : String → String
  /-- `RO_LAUNCHER_PREFIX_V3` is not `0`. -/
  prefixV3WriteEnabled : Bool

/-- The directory of isolated prefixes. -/
structure PrefixDir where
  entries : Entries
  dev : Nat

namespace PrefixDir

/-- The directory as one of its roots sees it. -/
def disk (dir : PrefixDir) (root : Path) : Disk :=
  let name := root.getLast?.getD ""
  let backup := "." ++ name ++ "." ++ resetBackupSuffix
  { root := dir.entries.find name
    backup := dir.entries.find backup
    siblings := (dir.entries.erase name).erase backup
    parentDev := dir.dev
    nextIno := 0 }

end PrefixDir

/-! ## Pending transactions -/

/-- `str::strip_suffix`. -/
def stripSuffix (stop s : List Char) : Option (List Char) :=
  if stop.isSuffixOf s then some (s.take (s.length - stop.length)) else none

/-- The root that an entry of the directory is, or is the reset backup of. -/
def candidateName (name : String) : String :=
  match (stripPrefix ['.'] name.toList).bind
      (stripSuffix ("." ++ resetBackupSuffix).toList) with
  | some root => String.ofList root
  | none => name

/-- Interrupted transactions of a server under every v3 fingerprint, sorted. -/
def pendingV3Transactions (host : Host) (serverId : String) (dir : PrefixDir) : List Path :=
  let names := (dir.entries.names.map candidateName).filter fun name =>
    isV3ManagedPrefixPath host (host.isolatedPrefixRoot ++ [name]) serverId
  let roots := (names.dedup.insertionSort fun a b => ¬ b < a).map fun name =>
    host.isolatedPrefixRoot ++ [name]
  roots.filter fun root =>
    (transactionGate host serverId root (dir.disk root)).blocksResolution

/-! ## Resolution -/

section Resolve

variable (host : Host) (around : Surroundings) (dir : PrefixDir) (serverId : String)
  (resolved : ResolvedRunner) (desired : PrefixFingerprint)

def isolatedPrefixPathForRunner (runnerPath : String) : Path :=
  host.isolatedPrefixRoot ++
    [around.stableIdHash serverId ++ "-" ++ around.stableIdHash runnerPath]

/-- `inspect_prefix` of a root in the directory. -/
def inspectAt (root : Path) : PrefixHealth := inspectPrefix host.serde (dir.disk root).root

/-- `root.is_dir()`, and the directory lists something. -/
def occupied (root : Path) : Bool :=
  match (dir.disk root).root with
  | some node => isDir (some node) && Entries.names node.children ≠ []
  | none => false

def legacyTopology (wine716 : Bool) : Bool :=
  resolved.isProton || wine716 || resolved.kind = .wine

/-- The runner of a v2 manifest is this one. -/
def manifestMatchesRunner (manifest : PrefixManifest) (kind path : String) : Bool :=
  manifest.runnerKind = kind &&
    around.canonicalOrOriginal manifest.runnerPath = around.canonicalOrOriginal path

def tryLegacyV2Match (v2Path : Path) : Bool :=
  let health := inspectAt host dir v2Path
  health.structureOk &&
    match health.manifest with
    | none => false
    | some manifest =>
      manifest.schemaVersion = prefixSchemaVersion && manifest.serverId = some serverId &&
        legacyTopology resolved resolved.isWine716 &&
        match manifest with
        | .v2 v2 => v2.runnerKind = resolved.kindLabel &&
            manifestMatchesRunner around v2 resolved.kindLabel resolved.runnerPath
        | .v3 _ => false

def tryV3Verified : Option Path :=
  let path := isolatedPrefixPathV3 host serverId desired.digest
  match (inspectAt host dir path).manifest with
  | some manifest =>
    if manifest.schemaVersion = prefixSchemaV3 &&
        manifest.prefixFingerprintDigest = some desired.digest &&
        manifest.serverId = some serverId then some path
    else none
  | none => none

/-- Any occupied v3 target that is not the exact binding is foreign state. -/
def v3PathIdentityConflict : Option String :=
  let path := isolatedPrefixPathV3 host serverId desired.digest
  if !occupied dir path then none
  else
    match (inspectAt host dir path).manifest with
    | none => some "nonempty-without-manifest"
    | some manifest =>
      if manifest.schemaVersion ≠ prefixSchemaV3 then some "v3-prefix-manifest-schema-mismatch"
      else if manifest.serverId ≠ some serverId then some "v3-prefix-server-mismatch"
      else if manifest.prefixFingerprintDigest ≠ some desired.digest then
        some "v3-prefix-fingerprint-mismatch"
      else none

def v2PathIdentityConflictAt (path : Path) : Option String :=
  if !occupied dir path then none
  else
    let health := inspectAt host dir path
    if health.legacyMarker then none
    else
      match health.manifest with
      | some manifest =>
        if manifest.schemaVersion = prefixSchemaVersion && manifest.serverId = some serverId &&
            tryLegacyV2Match host around dir serverId resolved path then none
        else some "v2-prefix-identity-mismatch"
      | none => some "nonempty-without-manifest"

/-- The roots of this server that resolution may not leave. -/
def pendingTransactions (v2Path : Path) : List Path :=
  let pending := pendingV3Transactions host serverId dir
  if (transactionGate host serverId v2Path (dir.disk v2Path)).blocksResolution &&
      !pending.contains v2Path then pending ++ [v2Path]
  else pending

/-- Resolution once no transaction of the server is pending. -/
def resolveSettled (location : PrefixLocation) (v2Path : Path) : PrefixBinding :=
  let bound path status eligibility : PrefixBinding :=
    { status, desiredFingerprint := desired, location := { location with path }, eligibility }
  let v3Path := isolatedPrefixPathV3 host serverId desired.digest
  match tryV3Verified host dir serverId desired with
  | some path => bound path .v3Verified .eligible
  | none =>
    match v3PathIdentityConflict host dir serverId desired with
    | some reason => bound v3Path .incompatible (.ineligible [reason])
    | none =>
      if tryLegacyV2Match host around dir serverId resolved v2Path then
        bound v2Path .legacyV2RunnerMatched .eligible
      else
        let v2Conflict :=
          if around.prefixV3WriteEnabled then none
          else v2PathIdentityConflictAt host around dir serverId resolved v2Path
        match v2Conflict with
        | some reason => bound v2Path .incompatible (.ineligible [reason])
        | none =>
          let path := if around.prefixV3WriteEnabled then v3Path else v2Path
          if isDir (dir.disk v2Path).root && !legacyTopology resolved resolved.isWine716 then
            bound path .unknown .eligible
          else
            let health := inspectAt host dir path
            if occupied dir path && health.manifest.isNone && !health.legacyMarker then
              bound path .incompatible (.ineligible ["nonempty-without-manifest"])
            else bound path .unknown .eligible

end Resolve

def resolvePrefixBindingForLocation (host : Host) (around : Surroundings) (dir : PrefixDir)
    (resolved : ResolvedRunner) (desired : PrefixFingerprint) (location : PrefixLocation) :
    Except String PrefixBinding :=
  let stay location eligibility : PrefixBinding :=
    { status := .unknown, desiredFingerprint := desired, location, eligibility }
  if location.scope = .custom then .ok (stay location (.indeterminate ["custom-prefix"]))
  else if location.scope ≠ .isolated || !location.managed then .ok (stay location .eligible)
  else
    match location.serverId with
    | none => .error "El entorno aislado no tiene serverId"
    | some serverId =>
      let v2Path := isolatedPrefixPathForRunner host around serverId
        (around.canonicalOrOriginal resolved.runnerPath)
      match pendingTransactions host dir serverId v2Path with
      | [] => .ok (resolveSettled host around dir serverId resolved desired location v2Path)
      | [only] => .ok (stay { location with path := only } .eligible)
      | many =>
        let paths := ", ".intercalate (many.map Path.display)
        .error s!"Hay {many.length} preparaciones o reconstrucciones interrumpidas para este servidor ({paths}); no se elegirá ninguna automáticamente. Revísalas antes de continuar"

/-! ## Two readers of one manifest -/

section Readers

variable {host : Host} {serde : Serde} {node : Option Node} {manifest : StoredPrefixManifest}

theorem inspectManifest_some {root : Node} :
    (inspectManifest serde root).1 = some manifest ↔
      ∃ data json, (child (some root) prefixMarker).bind Node.follow = some (.file data) ∧
        data.text? = some json ∧ parseStoredPrefixManifest serde json = .ok manifest := by
  unfold inspectManifest
  split
  next data found =>
    rw [found]
    cases ht : data.text? with
    | none =>
      refine iff_of_false (by simp) ?_
      rintro ⟨data', json, hd, hj, _⟩
      cases hd
      rw [ht] at hj
      cases hj
    | some json =>
      dsimp only
      cases hp : parseStoredPrefixManifest serde json with
      | ok m =>
        constructor
        · intro h
          cases h
          exact ⟨data, json, rfl, ht, hp⟩
        · rintro ⟨data', json', hd, hj, hm⟩
          cases hd
          rw [ht] at hj
          cases hj
          rw [hp] at hm
          cases hm
          rfl
      | error e =>
        refine iff_of_false ?_ ?_
        · dsimp only
          split
          · split <;> simp
          · simp
        · rintro ⟨data', json', hd, hj, hm⟩
          cases hd
          rw [ht] at hj
          cases hj
          rw [hp] at hm
          cases hm
  next other =>
    refine iff_of_false ?_ ?_
    · split <;> simp
    · rintro ⟨data, json, hd, _⟩
      exact other data hd

/-- The manifest a report carries, read through links and without a bound. -/
theorem inspectPrefix_manifest :
    (inspectPrefix serde node).manifest = some manifest ↔
      isDir node = true ∧ ∃ data json,
        (child node prefixMarker).bind Node.follow = some (.file data) ∧
          data.text? = some json ∧ parseStoredPrefixManifest serde json = .ok manifest := by
  unfold inspectPrefix
  cases node with
  | none => simp [inspectPrefix.absent, isDir]
  | some root =>
    dsimp only
    split
    next hd => exact inspectManifest_some.trans (by simp [hd])
    next hd => simp [inspectPrefix.absent, hd]

/-- The manifest recovery reads: a regular file, within its bound. -/
theorem readManifest_ok :
    readManifest serde node = .ok manifest ↔
      ∃ data json, node = some (.file data) ∧ data.size ≤ maxManifestBytes ∧
        data.text? = some json ∧ parseStoredPrefixManifest serde json = .ok manifest := by
  unfold readManifest
  constructor
  · intro h
    cases hr : readBounded node maxManifestBytes "el manifiesto" with
    | error reason => rw [hr] at h; cases h
    | ok json =>
      rw [hr] at h
      obtain ⟨data, hd, hs, ht⟩ := readBounded_ok hr
      dsimp only at h
      split at h
      next m hm =>
        cases h
        exact ⟨data, json, hd, hs, ht, hm⟩
      next => cases h
  · rintro ⟨data, json, rfl, hs, ht, hm⟩
    rw [readBounded, if_neg (by omega), ht]
    dsimp only
    rw [hm]

end Readers

/-! ## The fingerprint's own root -/

section Own

variable {host : Host} {around : Surroundings} {dir : PrefixDir} {serverId : String}
  {desired : PrefixFingerprint}

/-- A name that ends in a hex digit is not the name of a backup. -/
theorem candidateName_of_hex {name : String} {start digits : List Char}
    (spelled : name.toList = start ++ digits) (some' : digits ≠ [])
    (hex : digits.all isHexLower = true) : candidateName name = name := by
  have notBackup : ∀ rest, stripPrefix ['.'] name.toList = some rest →
      stripSuffix ("." ++ resetBackupSuffix).toList rest = none := by
    intro rest h
    unfold stripPrefix at h
    split at h
    next =>
      cases h
      unfold stripSuffix
      rw [if_neg]
      intro ends
      obtain ⟨before, hbefore⟩ := (List.isSuffixOf_iff_suffix.mp ends).trans (List.drop_suffix _ _)
      have last : name.toList.getLast? = some 'p' := by
        rw [← hbefore, List.getLast?_append]
        rfl
      rw [spelled, List.getLast?_append, List.getLast?_eq_some_getLast some'] at last
      have digit := List.all_eq_true.mp hex _ (List.getLast_mem some')
      rw [Option.some_or, Option.some.injEq] at last
      rw [last] at digit
      revert digit
      decide
    next => cases h
  unfold candidateName
  cases hs : stripPrefix ['.'] name.toList with
  | none => rfl
  | some rest => rw [Option.bind_some, notBackup rest hs]

/-- A fingerprint's root that exists is discovered when its transaction is pending. -/
theorem mem_pendingV3Transactions
    (exists' : (dir.disk (isolatedPrefixPathV3 host serverId desired.digest)).root ≠ none)
    (blocked : (transactionGate host serverId (isolatedPrefixPathV3 host serverId desired.digest)
      (dir.disk (isolatedPrefixPathV3 host serverId desired.digest))).blocksResolution = true) :
    isolatedPrefixPathV3 host serverId desired.digest ∈ pendingV3Transactions host serverId dir := by
  have managed := isV3ManagedPrefixPath_isolatedPrefixPathV3 host serverId desired.digest desired.full
  obtain ⟨count, hex⟩ := v3PathDigestPrefix24_hex desired.full
  unfold isolatedPrefixPathV3 at exists' blocked managed ⊢
  generalize hname : host.serverPathToken16 serverId ++ "-v3-" ++ v3PathDigestPrefix24 desired.digest
    = name at exists' blocked managed ⊢
  have named : candidateName name = name := by
    refine candidateName_of_hex (by rw [← hname, String.toList_append]) ?_ hex
    intro none
    rw [none] at count
    cases count
  have listed : name ∈ dir.entries.names := by
    rw [Entries.mem_names]
    simpa [PrefixDir.disk] using exists'
  refine List.mem_filter.mpr ⟨List.mem_map.mpr ⟨name, ?_, rfl⟩, blocked⟩
  rw [List.mem_insertionSort, List.mem_dedup, List.mem_filter]
  exact ⟨List.mem_map.mpr ⟨name, listed, named⟩, managed⟩

/-- The location of the fingerprint's own root. -/
def ownLocation (host : Host) (serverId : String) (desired : PrefixFingerprint) : PrefixLocation :=
  isolatedLocation serverId (isolatedPrefixPathV3 host serverId desired.digest)

/-- The rule recovery judges that root by, when this fingerprint is desired. -/
def ownRule (desired : PrefixFingerprint) : V3Identity :=
  { suffix := v3PathDigestPrefix24 desired.digest, anchor := some desired.digest }

theorem shapeOk_own : shapeOk (v3PathDigestPrefix24 desired.digest) desired.digest = true := by
  simp [shapeOk, desired.full]

theorem ownRule_check {digest : String} :
    (ownRule desired).check digest = .ok () ↔ digest = desired.digest := by
  rw [V3Identity.check_ok]
  constructor
  · rintro ⟨_, anchored⟩
    exact (anchored _ rfl).symm
  · rintro rfl
    exact ⟨shapeOk_own, fun anchor h => (Option.some.inj h).symm⟩

theorem v3PathSuffix_own :
    v3PathSuffix host (ownLocation host serverId desired) =
      some (v3PathDigestPrefix24 desired.digest) :=
  v3PathSuffix_isolatedPrefixPathV3 host serverId desired.digest true desired.full

theorem at_own (host : Host) (serverId : String) (desired : PrefixFingerprint)
    (wanted : Option String) :
    ∃ pfx, ManagedPrefix.at host (ownLocation host serverId desired) wanted = .ok pfx ∧
      pfx.location = ownLocation host serverId desired ∧
      pfx.expected = wanted.filter fun digest =>
        shapeOk (v3PathDigestPrefix24 desired.digest) digest := by
  have last : (ownLocation host serverId desired).path.getLast? =
      some (host.serverPathToken16 serverId ++ "-v3-" ++ v3PathDigestPrefix24 desired.digest) := by
    simp [ownLocation, isolatedLocation, isolatedPrefixPathV3]
  unfold ManagedPrefix.at
  rw [last]
  exact ⟨_, rfl, rfl, by rw [v3PathSuffix_own]; rfl⟩

theorem identity_own {pfx : ManagedPrefix} (root : Option Node)
    (hat : ManagedPrefix.at host (ownLocation host serverId desired) (some desired.digest) = .ok pfx) :
    pfx.identity host root = some (ownRule desired) := by
  obtain ⟨pfx', hat', location, expected⟩ := at_own host serverId desired (some desired.digest)
  rw [hat] at hat'
  cases hat'
  unfold ManagedPrefix.identity
  rw [location, v3PathSuffix_own, expected]
  simp [shapeOk_own, ownRule]

/-- A marker that says whose it is anchors the rule where no fingerprint is desired. -/
theorem markerClaim_single {suffix digest name : String} {authority : Bool} {ino dev : Nat}
    {es : Entries} {marker : ProvisioningMarker}
    (single : transactionMarker es = .ok (some (name, authority)))
    (read : readMarker host.serde (es.find name) = .ok marker)
    (claim : marker.prefixFingerprint = some digest) (shape : shapeOk suffix digest = true) :
    ManagedPrefix.markerClaim host suffix (some (.dir ino dev es)) = some digest := by
  have missing : readMarker host.serde none =
      .error "no se pudo leer el marcador de preparación: No such file or directory (os error 2)" :=
    rfl
  unfold ManagedPrefix.markerClaim
  cases authority with
  | true =>
    obtain ⟨rfl, _, gone⟩ := transactionMarker_authority.mp single
    simp [read, gone, missing, claim, shape, Except.toOption]
  | false =>
    obtain ⟨rfl, _, gone⟩ := transactionMarker_revoked.mp single
    simp [read, gone, missing, claim, shape, Except.toOption]

/-- **Where no transaction is pending**, the markers of the root agree with a manifest that records
the fingerprint: a marker anchors the rule the gate judged by, and so claims the same digest. -/
theorem markers_agree {ino dev : Nat} {es : Entries} {manifest : StoredPrefixManifest}
    (root : (dir.disk (isolatedPrefixPathV3 host serverId desired.digest)).root =
      some (.dir ino dev es))
    (settled : (transactionGate host serverId (isolatedPrefixPathV3 host serverId desired.digest)
      (dir.disk (isolatedPrefixPathV3 host serverId desired.digest))).blocksResolution = false)
    (read : readManifest host.serde (Entries.find es prefixMarker) = .ok manifest)
    (records : manifest.prefixFingerprintDigest = some desired.digest) :
    ∃ marker, transactionMarker es = .ok marker ∧ ∀ m ∈ marker,
      validatedMarker host (ownLocation host serverId desired) (some (ownRule desired)) es m.1 =
        .ok () := by
  obtain ⟨pfx, hat, location, expected⟩ := at_own host serverId desired none
  cases hg : transactionGate host serverId (isolatedPrefixPathV3 host serverId desired.digest)
      (dir.disk (isolatedPrefixPathV3 host serverId desired.digest)) with
  | pendingTransaction => rw [hg] at settled; cases settled
  | ambiguousTransaction reason => rw [hg] at settled; cases settled
  | noTransactionEvidence =>
    have clean := ((transactionGate_noEvidence hat).mp hg).2
    rw [root, rootHoldsTransactionEvidence_dir] at clean
    exact ⟨none, transactionMarker_none.mpr ⟨clean.1, clean.2.2⟩, fun m hm => by cases hm⟩
  | committedValid =>
    obtain ⟨_, ⟨stale, committed⟩, _⟩ := (transactionGate_committedValid hat).mp hg
    have rule : pfx.identity host (some (.dir ino dev es)) =
        some { suffix := v3PathDigestPrefix24 desired.digest
               anchor := (ManagedPrefix.markerClaim host (v3PathDigestPrefix24 desired.digest)
                 (some (.dir ino dev es))).or (ManagedPrefix.manifestClaim host
                   (v3PathDigestPrefix24 desired.digest) (some (.dir ino dev es))) } := by
      unfold ManagedPrefix.identity
      rw [location, v3PathSuffix_own, expected]
      rfl
    unfold ManagedPrefix.rootClass at committed
    rw [root, classifyRoot_dir, location, rule, classifyEntries_committed] at committed
    obtain ⟨valid, marker, single, agrees, _⟩ := committed
    refine ⟨marker, single, fun m hm => ?_⟩
    obtain ⟨name, authority⟩ := m
    cases hm
    have judged := agrees (name, authority) rfl
    unfold validatedMarker at judged ⊢
    cases hr : readMarker host.serde (Entries.find es name) with
    | error reason => rw [hr] at judged; cases judged
    | ok record =>
      rw [hr] at judged
      obtain ⟨digest, claim, checked, upgrade⟩ := validateMarker_rule judged
      refine upgrade (ownRule_check.mpr ?_)
      -- The marker's own claim is the anchor, and the manifest passed the check against it.
      have anchor : ManagedPrefix.markerClaim host _ (some (.dir ino dev es)) = some digest :=
        markerClaim_single single hr claim (V3Identity.check_ok.mp checked).1
      unfold validatedManifest at valid
      rw [read] at valid
      obtain ⟨digest', records', checked'⟩ := (committedManifest_ok.mp valid).2 _ rfl
      rw [records] at records'
      cases records'
      exact (V3Identity.check_ok.mp checked').2 digest (by rw [anchor]; rfl)

end Own

/-! ## Agreement -/

section Agreement

variable {host : Host} {around : Surroundings} {dir : PrefixDir} {serverId : String}
  {desired : PrefixFingerprint} {pfx : ManagedPrefix}

/-- The manifest in the fingerprint's own root, as a launch reads it, records the server and the
fingerprint. -/
def Recorded (host : Host) (dir : PrefixDir) (serverId : String) (desired : PrefixFingerprint) :
    Prop :=
  ∃ manifest, (inspectAt host dir (isolatedPrefixPathV3 host serverId desired.digest)).manifest =
      some manifest ∧ manifest.schemaVersion = prefixSchemaV3 ∧
    manifest.prefixFingerprintDigest = some desired.digest ∧ manifest.serverId = some serverId

theorem tryV3Verified_iff {path : Path} :
    tryV3Verified host dir serverId desired = some path ↔
      path = isolatedPrefixPathV3 host serverId desired.digest ∧
        Recorded host dir serverId desired := by
  unfold tryV3Verified Recorded
  dsimp only
  cases hm : (inspectAt host dir (isolatedPrefixPathV3 host serverId desired.digest)).manifest with
  | none => simp
  | some manifest =>
    dsimp only
    split
    next h =>
      simp only [Bool.and_eq_true, decide_eq_true_eq] at h
      exact ⟨fun hp => ⟨(Option.some.inj hp).symm, manifest, rfl, h.1.1, h.1.2, h.2⟩,
        fun hp => by rw [hp.1]⟩
    next h =>
      refine iff_of_false (by simp) ?_
      rintro ⟨_, m, hm', h1, h2, h3⟩
      cases hm'
      exact h (by simp [h1, h2, h3])

/-- What recovery asks of that root besides: a real directory, whose manifest is a regular file of
at most a mebibyte and names the scope of isolated prefixes. -/
def Plain (host : Host) (dir : PrefixDir) (serverId : String) (desired : PrefixFingerprint) : Prop :=
  ∃ (ino dev : Nat) (es : Entries) (data : Blob),
    (dir.disk (isolatedPrefixPathV3 host serverId desired.digest)).root = some (.dir ino dev es) ∧
      es.find prefixMarker = some (.file data) ∧ data.size ≤ maxManifestBytes ∧
      ∀ manifest, (inspectAt host dir (isolatedPrefixPathV3 host serverId desired.digest)).manifest =
        some manifest → manifest.scope = .isolated

theorem manifestMatches_isolated {manifest : StoredPrefixManifest} {root : Path} :
    manifestMatchesStoredLocation manifest (isolatedLocation serverId root) = true ↔
      manifest.scope = .isolated ∧ manifest.serverId = some serverId := by
  unfold manifestMatchesStoredLocation isolatedLocation
  simp

/-- **What recovery adds.** Where no transaction is pending, a recorded root is committed in
recovery's eyes exactly when it is plain. -/
theorem committed_iff_plain
    (hat : ManagedPrefix.at host (ownLocation host serverId desired) (some desired.digest) = .ok pfx)
    (settled : (transactionGate host serverId (isolatedPrefixPathV3 host serverId desired.digest)
      (dir.disk (isolatedPrefixPathV3 host serverId desired.digest))).blocksResolution = false)
    (recorded : Recorded host dir serverId desired) :
    (∃ stale, pfx.rootClass host
        (dir.disk (isolatedPrefixPathV3 host serverId desired.digest)) = .committed stale) ↔
      Plain host dir serverId desired := by
  obtain ⟨manifest, seen, _, records, owner⟩ := recorded
  obtain ⟨isdir, data, json, followed, text, parsed⟩ := inspectPrefix_manifest.mp seen
  have location := ManagedPrefix.at_location hat
  unfold ManagedPrefix.rootClass Plain
  rw [identity_own _ hat, location]
  constructor
  · rintro ⟨stale, committed⟩
    obtain ⟨h, _⟩ | ⟨reason, h⟩ | ⟨ino, dev, es, root, h⟩ := classifyRoot_cases committed
    · cases h
    · cases h
    have valid := (classifyEntries_committed.mp h).1
    unfold validatedManifest at valid
    cases hr : readManifest host.serde (Entries.find es prefixMarker) with
    | error reason => rw [hr] at valid; cases valid
    | ok manifest' =>
      rw [hr] at valid
      obtain ⟨data', json', file, size, text', parsed'⟩ := readManifest_ok.mp hr
      have same : manifest' = manifest := by
        rw [root, child_dir, file] at followed
        cases followed
        rw [text] at text'
        cases text'
        rw [parsed] at parsed'
        exact (Except.ok.inj parsed').symm
      refine ⟨ino, dev, es, data', root, file, size, fun m hm => ?_⟩
      rw [seen] at hm
      cases hm
      have matched := (committedManifest_ok.mp valid).1
      rw [same] at matched
      exact (manifestMatches_isolated.mp matched).1
  · rintro ⟨ino, dev, es, data', root, file, size, scope⟩
    rw [root, child_dir, file] at followed
    cases followed
    have read : readManifest host.serde (Entries.find es prefixMarker) = .ok manifest :=
      readManifest_ok.mpr ⟨data, json, file, size, text, parsed⟩
    obtain ⟨marker, single, agrees⟩ := markers_agree root settled read records
    have valid : validatedManifest host (ownLocation host serverId desired) (some (ownRule desired))
        es prefixMarker = .ok () := by
      unfold validatedManifest
      rw [read]
      refine committedManifest_ok.mpr
        ⟨manifestMatches_isolated.mpr ⟨scope manifest seen, owner⟩, fun rule hrule => ?_⟩
      cases hrule
      exact ⟨_, records, ownRule_check.mpr rfl⟩
    rw [root, classifyRoot_dir]
    exact ⟨_, classifyEntries_committed.mpr ⟨valid, marker, single, agrees, rfl⟩⟩

/-- A root that recovery calls committed records the fingerprint for the resolver, too. -/
theorem recorded_of_committed (lawful : host.serde.Lawful) {stale : Bool}
    (hat : ManagedPrefix.at host (ownLocation host serverId desired) (some desired.digest) = .ok pfx)
    (committed : pfx.rootClass host
      (dir.disk (isolatedPrefixPathV3 host serverId desired.digest)) = .committed stale) :
    Recorded host dir serverId desired := by
  have location := ManagedPrefix.at_location hat
  unfold ManagedPrefix.rootClass at committed
  rw [identity_own _ hat, location] at committed
  obtain ⟨h, _⟩ | ⟨reason, h⟩ | ⟨ino, dev, es, root, h⟩ := classifyRoot_cases committed
  · cases h
  · cases h
  have valid := (classifyEntries_committed.mp h).1
  unfold validatedManifest at valid
  cases hr : readManifest host.serde (Entries.find es prefixMarker) with
  | error reason => rw [hr] at valid; cases valid
  | ok manifest =>
    rw [hr] at valid
    obtain ⟨data, json, file, _, text, parsed⟩ := readManifest_ok.mp hr
    obtain ⟨matched, digests⟩ := committedManifest_ok.mp valid
    obtain ⟨digest, records, checked⟩ := digests _ rfl
    rw [ownRule_check.mp checked] at records
    have seen : (inspectAt host dir (isolatedPrefixPathV3 host serverId desired.digest)).manifest =
        some manifest := by
      refine inspectPrefix_manifest.mpr ⟨?_, data, json, ?_, text, parsed⟩
      · rw [root]
        rfl
      · rw [root, child_dir, file]
        rfl
    refine ⟨manifest, seen, ?_, records, ?_⟩
    · cases manifest with
      | v2 m => cases records
      | v3 m => exact parseStored_v3 lawful parsed
    · exact (manifestMatches_isolated.mp matched).2

/-- A recorded root is not a conflict. -/
theorem no_conflict_of_recorded (recorded : Recorded host dir serverId desired) :
    v3PathIdentityConflict host dir serverId desired = none := by
  obtain ⟨manifest, seen, schema, records, owner⟩ := recorded
  unfold v3PathIdentityConflict
  dsimp only
  rw [seen]
  simp [schema, records, owner]

/-- Where no transaction is pending, the gate of a recorded root is open. -/
theorem gate_of_settled {v2Path : Path}
    (settled : pendingTransactions host dir serverId v2Path = [])
    (recorded : Recorded host dir serverId desired) :
    (transactionGate host serverId (isolatedPrefixPathV3 host serverId desired.digest)
      (dir.disk (isolatedPrefixPathV3 host serverId desired.digest))).blocksResolution = false := by
  have none : pendingV3Transactions host serverId dir = [] := by
    unfold pendingTransactions at settled
    dsimp only at settled
    split at settled
    · simp at settled
    · exact settled
  obtain ⟨manifest, seen, _⟩ := recorded
  have isdir := (inspectPrefix_manifest.mp seen).1
  by_contra blocked
  have listed := mem_pendingV3Transactions
    (fun missing => by rw [missing] at isdir; cases isdir) (Bool.not_eq_false _ ▸ blocked)
  rw [none] at listed
  cases listed

variable {resolved : ResolvedRunner} {location : PrefixLocation} {binding : PrefixBinding}

/-- A binding that is not merely a place to stay comes from a server without pending transaction. -/
theorem resolve_settled
    (h : resolvePrefixBindingForLocation host around dir resolved desired location = .ok binding)
    (decided : binding.status ≠ .unknown) :
    location.scope = .isolated ∧ location.managed = true ∧ ∃ serverId,
      location.serverId = some serverId ∧
        pendingTransactions host dir serverId (isolatedPrefixPathForRunner host around serverId
          (around.canonicalOrOriginal resolved.runnerPath)) = [] ∧
        binding = resolveSettled host around dir serverId resolved desired location
          (isolatedPrefixPathForRunner host around serverId
            (around.canonicalOrOriginal resolved.runnerPath)) := by
  unfold resolvePrefixBindingForLocation at h
  dsimp only at h
  split at h
  · cases h
    exact absurd rfl decided
  split at h
  · cases h
    exact absurd rfl decided
  next managed =>
    have place : location.scope = .isolated ∧ location.managed = true := by simpa using managed
    refine ⟨place.1, place.2, ?_⟩
    split at h
    · cases h
    next serverId owner =>
      split at h
      next settled =>
        cases h
        exact ⟨serverId, owner, settled, rfl⟩
      next =>
        cases h
        exact absurd rfl decided
      next => cases h

theorem resolveSettled_recorded (recorded : Recorded host dir serverId desired) (v2Path : Path) :
    resolveSettled host around dir serverId resolved desired location v2Path =
      { status := .v3Verified, desiredFingerprint := desired
        location := { location with path := isolatedPrefixPathV3 host serverId desired.digest }
        eligibility := .eligible } := by
  have verified : tryV3Verified host dir serverId desired = some _ :=
    tryV3Verified_iff.mpr ⟨rfl, recorded⟩
  unfold resolveSettled
  dsimp only
  rw [verified]

/-- Only a recorded root is verified. -/
theorem recorded_of_verified {v2Path : Path}
    (h : (resolveSettled host around dir serverId resolved desired location v2Path).status =
      .v3Verified) : Recorded host dir serverId desired := by
  cases hv : tryV3Verified host dir serverId desired with
  | some path => exact (tryV3Verified_iff.mp hv).2
  | none =>
    unfold resolveSettled at h
    dsimp only at h
    rw [hv] at h
    dsimp only at h
    repeat' split at h
    all_goals cases h

end Agreement

/-- What the two modules owe each other about the fingerprint's own root. -/
structure IdentityAgrees (host : Host) (around : Surroundings) (dir : PrefixDir)
    (resolved : ResolvedRunner) (desired : PrefixFingerprint) (location : PrefixLocation) : Prop where
  /-- A root the resolver verifies is committed in recovery's eyes, and does not hold up the gate. -/
  verified : ∀ binding, resolvePrefixBindingForLocation host around dir resolved desired location =
      .ok binding → binding.status = .v3Verified →
    ∀ serverId, location.serverId = some serverId →
      (transactionGate host serverId binding.location.path
        (dir.disk binding.location.path)).blocksResolution = false ∧
      ∃ pfx stale, ManagedPrefix.at host binding.location (some desired.digest) = .ok pfx ∧
        pfx.rootClass host (dir.disk binding.location.path) = .committed stale
  /-- A root that recovery calls committed is never a conflict for the resolver. -/
  committed : ∀ serverId pfx stale, location.serverId = some serverId →
    ManagedPrefix.at host (ownLocation host serverId desired) (some desired.digest) = .ok pfx →
    pfx.rootClass host (dir.disk (isolatedPrefixPathV3 host serverId desired.digest)) =
      .committed stale →
    v3PathIdentityConflict host dir serverId desired = none ∧
      ∀ binding, resolvePrefixBindingForLocation host around dir resolved desired location =
        .ok binding → binding.status ≠ .incompatible

/-- **When the two agree**: exactly when the recorded root of every server without a pending
transaction is plain. -/
theorem identity_agrees_iff {host : Host} (lawful : host.serde.Lawful) (around : Surroundings)
    (dir : PrefixDir) (resolved : ResolvedRunner) (desired : PrefixFingerprint)
    (location : PrefixLocation) :
    IdentityAgrees host around dir resolved desired location ↔
      (location.scope = .isolated → location.managed = true →
        ∀ serverId, location.serverId = some serverId →
        pendingTransactions host dir serverId (isolatedPrefixPathForRunner host around serverId
          (around.canonicalOrOriginal resolved.runnerPath)) = [] →
        Recorded host dir serverId desired → Plain host dir serverId desired) := by
  constructor
  · intro agrees isolated managed serverId owner settled recorded
    have resolves : resolvePrefixBindingForLocation host around dir resolved desired location =
        .ok (resolveSettled host around dir serverId resolved desired location
          (isolatedPrefixPathForRunner host around serverId
            (around.canonicalOrOriginal resolved.runnerPath))) := by
      unfold resolvePrefixBindingForLocation
      simp only [isolated, managed, owner, settled]
      rfl
    rw [resolveSettled_recorded recorded] at resolves
    obtain ⟨gate, pfx, stale, hat, committed⟩ := agrees.verified _ resolves rfl serverId owner
    have own : ({ location with path := isolatedPrefixPathV3 host serverId desired.digest } :
        PrefixLocation) = ownLocation host serverId desired := by
      simp [ownLocation, isolatedLocation, isolated, managed, owner]
    rw [own] at hat
    exact (committed_iff_plain hat gate recorded).mp ⟨stale, committed⟩
  · intro plain
    refine ⟨fun binding h verified serverId owner => ?_,
      fun serverId pfx stale owner hat committed => ?_⟩
    · obtain ⟨isolated, managed, serverId', owner', settled, rfl⟩ :=
        resolve_settled h (by rw [verified]; simp)
      rw [owner] at owner'
      cases owner'
      have recorded := recorded_of_verified verified
      have gate := gate_of_settled settled recorded
      have own : ({ location with path := isolatedPrefixPathV3 host serverId desired.digest } :
          PrefixLocation) = ownLocation host serverId desired := by
        simp [ownLocation, isolatedLocation, isolated, managed, owner]
      rw [resolveSettled_recorded recorded, own]
      obtain ⟨pfx, hat, _⟩ := at_own host serverId desired (some desired.digest)
      obtain ⟨stale, committed⟩ := (committed_iff_plain hat gate recorded).mpr
        (plain isolated managed serverId owner settled recorded)
      exact ⟨gate, pfx, stale, hat, committed⟩
    · have recorded := recorded_of_committed lawful hat committed
      refine ⟨no_conflict_of_recorded recorded, fun binding h conflict => ?_⟩
      obtain ⟨_, _, serverId', owner', _, rfl⟩ := resolve_settled h (by rw [conflict]; simp)
      rw [owner] at owner'
      cases owner'
      rw [resolveSettled_recorded recorded] at conflict
      cases conflict

/-! ### A manifest of another scope -/

def sampleFingerprint : PrefixFingerprint where
  digest := "aaaaaaaaaaaaaaaaaaaaaaaaaaaaaaaaaaaaaaaaaaaaaaaaaaaaaaaaaaaaaaaa"
  full := by decide

/-- It names the server and the fingerprint of an isolated prefix, and the shared scope. -/
def sharedManifestV3 : PrefixManifestV3 :=
  { schemaVersion := prefixSchemaV3, scope := .shared, serverId := some "server"
    runnerKind := "wine", runnerPath := "/usr/bin/wine", components := []
    prefixFingerprint :=
      { schemaVersion := 1, algorithm := "sha256", digest := sampleFingerprint.digest } }

/-- The sample host with a decoder that reads `M` as that manifest. -/
def sharedScopeHost : Host :=
  { sampleHost with
    serde := { sampleSerde with
      schemaProbe := fun json => if json = "M" then .ok prefixSchemaV3 else .error "expected value"
      prefixManifestV3 := fun json =>
        if json = "M" then .ok sharedManifestV3 else .error "expected value" } }

theorem sharedScopeHost_lawful : sharedScopeHost.serde.Lawful where
  probe_v3 json manifest h := by
    change (if json = "M" then Except.ok sharedManifestV3 else .error _) = .ok manifest at h
    change (if json = "M" then Except.ok prefixSchemaV3 else .error _) = .ok manifest.schemaVersion
    split at h
    next isM =>
      cases h
      rw [if_pos isM]
      rfl
    next => cases h

def sampleSurroundings : Surroundings where
  canonicalOrOriginal path := path
  stableIdHash _ := "0000000000000000"
  prefixV3WriteEnabled := true

def sampleRunner : ResolvedRunner :=
  { kind := .wine, runnerPath := "/usr/bin/wine", reports716 := false }

def sharedScopeDir : PrefixDir where
  entries := [("0123456789abcdef-v3-aaaaaaaaaaaaaaaaaaaaaaaa",
    .dir 1 0 [(prefixMarker, .file (.text "M"))])]
  dev := 0

/-- The resolver verifies that root; recovery calls it foreign. -/
theorem verified_root_of_another_scope :
    ∃ binding pfx, resolvePrefixBindingForLocation sharedScopeHost sampleSurroundings sharedScopeDir
        sampleRunner sampleFingerprint (isolatedLocation "server" []) = .ok binding ∧
      binding.status = .v3Verified ∧
      ManagedPrefix.at sharedScopeHost binding.location (some sampleFingerprint.digest) = .ok pfx ∧
      pfx.rootClass sharedScopeHost (sharedScopeDir.disk binding.location.path) =
        .foreign "el manifiesto pertenece a otro servidor o ámbito" :=
  ⟨_, _, rfl, rfl, rfl, rfl⟩

theorem identity_agrees_iff_sharedScope :
    IdentityAgrees sharedScopeHost sampleSurroundings sharedScopeDir sampleRunner sampleFingerprint
        (isolatedLocation "server" []) ↔
      ((isolatedLocation "server" []).scope = .isolated →
        (isolatedLocation "server" []).managed = true →
        ∀ serverId, (isolatedLocation "server" []).serverId = some serverId →
        pendingTransactions sharedScopeHost sharedScopeDir serverId
          (isolatedPrefixPathForRunner sharedScopeHost sampleSurroundings serverId
            (sampleSurroundings.canonicalOrOriginal sampleRunner.runnerPath)) = [] →
        Recorded sharedScopeHost sharedScopeDir serverId sampleFingerprint →
        Plain sharedScopeHost sharedScopeDir serverId sampleFingerprint) :=
  identity_agrees_iff sharedScopeHost_lawful _ _ _ _ _

end RoLauncher.Prefix
