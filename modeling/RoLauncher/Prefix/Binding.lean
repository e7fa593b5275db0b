import RoLauncher.Prefix.Resolver

/-!
# What a launch may be bound to (`tools/runtime/identity.rs`)

`Ground` lists the roots that `resolvePrefixBindingForLocation` binds an
isolated server to, each with what the directory has to show for it. A binding
is eligible on one of these grounds and on no other.
-/

namespace RoLauncher.Prefix

open RoLauncher.Files

section Grounds

variable (host : Host) (around : Surroundings) (dir : PrefixDir) (serverId : String)
  (resolved : ResolvedRunner) (desired : PrefixFingerprint)

/-- The root's manifest is a v3 one of this server and this full fingerprint. -/
def HoldsIdentity (path : Path) : Prop :=
  ∃ manifest, (inspectAt host dir path).manifest = some manifest ∧ manifest.schemaVersion = prefixSchemaV3 ∧
    manifest.serverId = some serverId ∧ manifest.prefixFingerprintDigest = some desired.digest

/-- The root is a whole prefix, and its manifest a v2 one of this server and this runner. -/
def HoldsRunner (path : Path) : Prop :=
  (inspectAt host dir path).structureOk = true ∧
    ∃ manifest, (inspectAt host dir path).manifest = some (.v2 manifest) ∧
      (StoredPrefixManifest.v2 manifest).schemaVersion = prefixSchemaVersion ∧
      (StoredPrefixManifest.v2 manifest).serverId = some serverId ∧ manifest.runnerKind = resolved.kindLabel ∧
      around.canonicalOrOriginal manifest.runnerPath = around.canonicalOrOriginal resolved.runnerPath

/-- The root of the fingerprint, and that of the runner. -/
abbrev v3Root : Path := isolatedPrefixPathV3 host serverId desired.digest

abbrev v2Root : Path :=
  isolatedPrefixPathForRunner host around serverId (around.canonicalOrOriginal resolved.runnerPath)

abbrev pendingRoots : List Path :=
  pendingTransactions host dir serverId (v2Root host around serverId resolved)

/-- Why a launch may be bound to a root, and what the binding says of it. -/
inductive Ground : Path → PrefixIdentityStatus → Prop
  /-- The only interrupted transaction of the server. -/
  | pending {path : Path} (only : pendingRoots host around dir serverId resolved = [path]) : Ground path .unknown
  | verified (settled : pendingRoots host around dir serverId resolved = [])
      (holds : HoldsIdentity host dir serverId desired (v3Root host serverId desired)) :
      Ground (v3Root host serverId desired) .v3Verified
  | legacy (settled : pendingRoots host around dir serverId resolved = [])
      (vacant : occupied dir (v3Root host serverId desired) = false)
      (holds : HoldsRunner host around dir serverId resolved (v2Root host around serverId resolved)) :
      Ground (v2Root host around serverId resolved) .legacyV2RunnerMatched
  /-- Nothing is there yet. -/
  | fresh (settled : pendingRoots host around dir serverId resolved = [])
      (enabled : around.prefixV3WriteEnabled = true)
      (vacant : occupied dir (v3Root host serverId desired) = false)
      (other : ¬ HoldsRunner host around dir serverId resolved (v2Root host around serverId resolved)) :
      Ground (v3Root host serverId desired) .unknown
  | freshV2 (settled : pendingRoots host around dir serverId resolved = [])
      (disabled : around.prefixV3WriteEnabled = false)
      (vacant : occupied dir (v3Root host serverId desired) = false)
      (vacant' : occupied dir (v2Root host around serverId resolved) = false) :
      Ground (v2Root host around serverId resolved) .unknown
  /-- A prefix from before there were manifests. -/
  | marked (settled : pendingRoots host around dir serverId resolved = [])
      (disabled : around.prefixV3WriteEnabled = false)
      (vacant : occupied dir (v3Root host serverId desired) = false)
      (marker : (inspectAt host dir (v2Root host around serverId resolved)).legacyMarker = true)
      (other : ¬ HoldsRunner host around dir serverId resolved (v2Root host around serverId resolved)) :
      Ground (v2Root host around serverId resolved) .unknown

end Grounds

section Decisions

variable {host : Host} {around : Surroundings} {dir : PrefixDir} {serverId : String}
  {resolved : ResolvedRunner} {desired : PrefixFingerprint} {path : Path}

/-- A root with nothing in it has no manifest. -/
theorem manifest_of_vacant (vacant : occupied dir path = false) : (inspectAt host dir path).manifest = none := by
  cases found : (inspectAt host dir path).manifest with
  | none => rfl
  | some manifest =>
    obtain ⟨isDir, data, json, there, _⟩ := inspectPrefix_manifest.mp found
    rw [occupied] at vacant
    cases node : (dir.disk path).root with
    | none =>
      rw [node] at isDir
      cases isDir
    | some root =>
      rw [node] at isDir vacant there
      have lists : Entries.names root.children ≠ [] := by
        intro empty
        have absent : prefixMarker ∉ Entries.names root.children := by
          rw [empty]
          exact List.not_mem_nil
        rw [Entries.mem_names, not_not] at absent
        rw [child, absent] at there
        cases there
      simp [isDir, lists] at vacant

theorem tryV3Verified_eq_some :
    tryV3Verified host dir serverId desired = some path ↔
      path = v3Root host serverId desired ∧ HoldsIdentity host dir serverId desired (v3Root host serverId desired) := by
  rw [tryV3Verified, HoldsIdentity]
  cases (inspectAt host dir (isolatedPrefixPathV3 host serverId desired.digest)).manifest with
  | none => simp
  | some manifest =>
    dsimp only
    split
    next holds =>
      obtain ⟨⟨schema, digest⟩, server⟩ := by simpa only [Bool.and_eq_true, decide_eq_true_eq] using holds
      constructor
      · intro same
        exact ⟨(Option.some.inj same).symm, manifest, rfl, schema, server, digest⟩
      · rintro ⟨rfl, _⟩
        rfl
    next fails =>
      refine iff_of_false (fun here => by cases here) ?_
      rintro ⟨_, manifest, same, schema, server, digest⟩
      cases same
      exact fails (by simp [schema, server, digest])

theorem v3PathIdentityConflict_eq_none :
    v3PathIdentityConflict host dir serverId desired = none ↔
      occupied dir (v3Root host serverId desired) = false ∨
        HoldsIdentity host dir serverId desired (v3Root host serverId desired) := by
  rw [v3PathIdentityConflict]
  cases taken : occupied dir (isolatedPrefixPathV3 host serverId desired.digest) with
  | false => simp [taken]
  | true =>
    rw [HoldsIdentity, if_neg (by decide)]
    cases (inspectAt host dir (isolatedPrefixPathV3 host serverId desired.digest)).manifest with
    | none => simp [taken]
    | some manifest =>
      by_cases schema : manifest.schemaVersion = prefixSchemaV3
      · by_cases server : manifest.serverId = some serverId
        · by_cases digest : manifest.prefixFingerprintDigest = some desired.digest
          · simp [schema, server, digest]
          · simp [taken, schema, server, digest]
        · simp [taken, schema, server]
      · simp [taken, schema]

/-- Every runner is one of the kinds that v2 prefixes were made for. -/
theorem legacyTopology_always : legacyTopology resolved resolved.isWine716 = true := by
  rw [legacyTopology, ResolvedRunner.isProton]
  cases resolved.kind <;> simp

theorem tryLegacyV2Match_eq_true :
    tryLegacyV2Match host around dir serverId resolved path = true ↔
      HoldsRunner host around dir serverId resolved path := by
  rw [tryLegacyV2Match, HoldsRunner, legacyTopology_always]
  cases (inspectAt host dir path).manifest with
  | none => simp
  | some manifest =>
    cases manifest with
    | v2 manifest =>
      simp [manifestMatchesRunner, and_assoc, and_left_comm]
    | v3 manifest => simp

theorem v2PathIdentityConflictAt_eq_none :
    v2PathIdentityConflictAt host around dir serverId resolved path = none ↔
      occupied dir path = false ∨ (inspectAt host dir path).legacyMarker = true ∨
        HoldsRunner host around dir serverId resolved path := by
  rw [v2PathIdentityConflictAt, ← tryLegacyV2Match_eq_true]
  cases occupied dir path with
  | false => simp
  | true =>
    rw [if_neg (by decide)]
    dsimp only
    cases marker : (inspectAt host dir path).legacyMarker with
    | true => simp
    | false =>
      cases matched : tryLegacyV2Match host around dir serverId resolved path with
      | true =>
        obtain ⟨_, manifest, found, schema, server, _⟩ := tryLegacyV2Match_eq_true.mp matched
        simp [found, schema, server]
      | false =>
        cases (inspectAt host dir path).manifest <;> simp

theorem tryV3Verified_eq_none (vacant : occupied dir (v3Root host serverId desired) = false) :
    tryV3Verified host dir serverId desired = none := by
  cases found : tryV3Verified host dir serverId desired with
  | none => rfl
  | some path =>
    obtain ⟨_, manifest, here, _⟩ := tryV3Verified_eq_some.mp found
    rw [manifest_of_vacant vacant] at here
    cases here

/-- Neither verified nor in conflict: there is nothing at the fingerprint's root. -/
theorem vacant_of_noConflict (unverified : tryV3Verified host dir serverId desired = none)
    (none : v3PathIdentityConflict host dir serverId desired = none) :
    occupied dir (v3Root host serverId desired) = false := by
  cases v3PathIdentityConflict_eq_none.mp none with
  | inl vacant => exact vacant
  | inr holds =>
    rw [tryV3Verified_eq_some.mpr ⟨rfl, holds⟩] at unverified
    cases unverified

/-- An eligible binding. -/
abbrev eligibleAt (desired : PrefixFingerprint) (location : PrefixLocation) (path : Path) (status : PrefixIdentityStatus) :
    PrefixBinding :=
  { status, desiredFingerprint := desired, location := { location with path }, eligibility := .eligible }

theorem ground_of_eligible {location : PrefixLocation}
    (settled : pendingRoots host around dir serverId resolved = [])
    (eligible : (resolveSettled host around dir serverId resolved desired location
      (v2Root host around serverId resolved)).eligibility = .eligible) :
    ∃ path status, Ground host around dir serverId resolved desired path status ∧
      resolveSettled host around dir serverId resolved desired location (v2Root host around serverId resolved) =
        eligibleAt desired location path status := by
  rw [resolveSettled] at eligible ⊢
  cases verified : tryV3Verified host dir serverId desired with
  | some path =>
    obtain ⟨rfl, holds⟩ := tryV3Verified_eq_some.mp verified
    exact ⟨_, _, .verified settled holds, rfl⟩
  | none =>
    rw [verified] at eligible
    cases conflict : v3PathIdentityConflict host dir serverId desired with
    | some reason =>
      rw [conflict] at eligible
      cases eligible
    | none =>
      rw [conflict] at eligible
      dsimp only at eligible ⊢
      have vacant := vacant_of_noConflict verified conflict
      by_cases matched : tryLegacyV2Match host around dir serverId resolved (v2Root host around serverId resolved) = true
      · rw [if_pos matched]
        exact ⟨_, _, .legacy settled vacant (tryLegacyV2Match_eq_true.mp matched), rfl⟩
      · rw [if_neg matched] at eligible ⊢
        have other := fun holds => matched (tryLegacyV2Match_eq_true.mpr holds)
        rw [legacyTopology_always, Bool.not_true, Bool.and_false] at eligible ⊢
        cases enabled : around.prefixV3WriteEnabled with
        | true =>
          simp only [if_true, Bool.false_eq_true, if_false, vacant, Bool.false_and]
          exact ⟨_, _, .fresh settled enabled vacant other, rfl⟩
        | false =>
          rw [enabled] at eligible
          cases conflict' : v2PathIdentityConflictAt host around dir serverId resolved
              (v2Root host around serverId resolved) with
          | some reason =>
            simp only [conflict', Bool.false_eq_true, if_false] at eligible
            cases eligible
          | none =>
            simp only [conflict', Bool.false_eq_true, if_false] at eligible ⊢
            split at eligible
            next => cases eligible
            next unmarked =>
              rw [if_neg unmarked]
              refine ⟨_, _, ?_, rfl⟩
              obtain vacant' | marker | holds := v2PathIdentityConflictAt_eq_none.mp conflict'
              · exact .freshV2 settled enabled vacant vacant'
              · exact .marked settled enabled vacant marker other
              · exact absurd holds other

theorem eligible_of_ground {location : PrefixLocation} {status : PrefixIdentityStatus}
    (settled : pendingRoots host around dir serverId resolved = [])
    (ground : Ground host around dir serverId resolved desired path status) :
    resolveSettled host around dir serverId resolved desired location (v2Root host around serverId resolved) =
      eligibleAt desired location path status := by
  rw [resolveSettled, legacyTopology_always, Bool.not_true, Bool.and_false]
  cases ground with
  | pending only =>
    rw [settled] at only
    cases only
  | verified _ holds => rw [tryV3Verified_eq_some.mpr ⟨rfl, holds⟩]
  | legacy _ vacant holds =>
    rw [tryV3Verified_eq_none vacant, v3PathIdentityConflict_eq_none.mpr (.inl vacant)]
    dsimp only
    rw [if_pos (tryLegacyV2Match_eq_true.mpr holds)]
  | fresh _ enabled vacant other =>
    rw [tryV3Verified_eq_none vacant, v3PathIdentityConflict_eq_none.mpr (.inl vacant)]
    dsimp only
    rw [if_neg fun matched => other (tryLegacyV2Match_eq_true.mp matched), enabled]
    simp only [if_true, Bool.false_eq_true, if_false, vacant, Bool.false_and]
  | freshV2 _ disabled vacant vacant' =>
    have other : ¬ HoldsRunner host around dir serverId resolved (v2Root host around serverId resolved) := by
      rintro ⟨_, manifest, here, _⟩
      rw [manifest_of_vacant vacant'] at here
      cases here
    rw [tryV3Verified_eq_none vacant, v3PathIdentityConflict_eq_none.mpr (.inl vacant)]
    dsimp only
    rw [if_neg fun matched => other (tryLegacyV2Match_eq_true.mp matched), disabled]
    simp only [Bool.false_eq_true, if_false, v2PathIdentityConflictAt_eq_none.mpr (.inl vacant'), vacant', Bool.false_and]
  | marked _ disabled vacant marker other =>
    rw [tryV3Verified_eq_none vacant, v3PathIdentityConflict_eq_none.mpr (.inl vacant)]
    dsimp only
    rw [if_neg fun matched => other (tryLegacyV2Match_eq_true.mp matched), disabled]
    simp only [Bool.false_eq_true, if_false, v2PathIdentityConflictAt_eq_none.mpr (.inr (.inl marker)), marker,
      Bool.not_true, Bool.and_false]

theorem resolve_isolated (base : Path) :
    resolvePrefixBindingForLocation host around dir resolved desired (isolatedLocation serverId base) =
      match pendingRoots host around dir serverId resolved with
      | [] => .ok (resolveSettled host around dir serverId resolved desired (isolatedLocation serverId base)
          (v2Root host around serverId resolved))
      | [only] => .ok (eligibleAt desired (isolatedLocation serverId base) only .unknown)
      | many =>
        let paths := ", ".intercalate (many.map Path.display)
        .error s!"Hay {many.length} preparaciones o reconstrucciones interrumpidas para este servidor ({paths}); no se elegirá ninguna automáticamente. Revísalas antes de continuar" :=
  rfl

/-- **A launch is bound to nothing foreign.** For an isolated server the resolver answers with an
eligible binding exactly on one of the grounds, with that ground's root and status; and it fails
exactly when two or more transactions of the server were interrupted. -/
theorem eligible_binding_iff (host : Host) (around : Surroundings) (dir : PrefixDir) (resolved : ResolvedRunner)
    (desired : PrefixFingerprint) (serverId : String) (base : Path) :
    (∀ binding, (resolvePrefixBindingForLocation host around dir resolved desired
        (isolatedLocation serverId base) = .ok binding ∧ binding.eligibility = .eligible) ↔
      ∃ path status, Ground host around dir serverId resolved desired path status ∧
        binding = eligibleAt desired (isolatedLocation serverId base) path status) ∧
    ((∃ e, resolvePrefixBindingForLocation host around dir resolved desired (isolatedLocation serverId base) = .error e) ↔
      1 < (pendingRoots host around dir serverId resolved).length) := by
  rw [resolve_isolated]
  cases pending : pendingRoots host around dir serverId resolved with
  | nil =>
    refine ⟨fun binding => ⟨fun found => ?_, fun found => ?_⟩, iff_of_false (by simp) (by simp)⟩
    · obtain ⟨same, eligible⟩ := found
      obtain rfl := Except.ok.inj same
      exact ground_of_eligible pending eligible
    · obtain ⟨path, status, ground, rfl⟩ := found
      exact ⟨congrArg Except.ok (eligible_of_ground pending ground), rfl⟩
  | cons first rest =>
    -- with a transaction pending, no other ground holds
    have only : ∀ {path : Path} {status : PrefixIdentityStatus},
        Ground host around dir serverId resolved desired path status → status = .unknown ∧ rest = [] ∧ path = first := by
      intro path status ground
      cases ground with
      | pending only =>
        rw [pending] at only
        cases only
        exact ⟨rfl, rfl, rfl⟩
      | verified settled => exact absurd (pending.symm.trans settled) (List.cons_ne_nil first rest)
      | legacy settled => exact absurd (pending.symm.trans settled) (List.cons_ne_nil first rest)
      | fresh settled => exact absurd (pending.symm.trans settled) (List.cons_ne_nil first rest)
      | freshV2 settled => exact absurd (pending.symm.trans settled) (List.cons_ne_nil first rest)
      | marked settled => exact absurd (pending.symm.trans settled) (List.cons_ne_nil first rest)
    cases rest with
    | nil =>
      refine ⟨fun binding => ⟨fun found => ?_, fun found => ?_⟩, iff_of_false (by simp) (by simp)⟩
      · obtain ⟨same, _⟩ := found
        exact ⟨first, .unknown, .pending pending, (Except.ok.inj same).symm⟩
      · obtain ⟨path, status, ground, rfl⟩ := found
        obtain ⟨rfl, _, rfl⟩ := only ground
        exact ⟨rfl, rfl⟩
    | cons second rest =>
      refine ⟨fun binding => iff_of_false ?_ ?_, iff_of_true ⟨_, rfl⟩ (by simp)⟩
      · rintro ⟨same, _⟩
        cases same
      · rintro ⟨path, status, ground, _⟩
        cases (only ground).2.1

end Decisions

end RoLauncher.Prefix
