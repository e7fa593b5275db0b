import RoLauncher.Prefix.Moves
import RoLauncher.Prefix.Resolver

/-!
# The full digests behind a decision

A v3 path exposes 24 of 64 digits, so two fingerprints can share a path. The
claims of a disk are the whole digests its records name: the caller's, those
of the root's records, and that of the backup. `Agree` says of such a list
that it names one digest, and that the path can stand for it.

A class other than `foreign` vouches for every claim of what it classifies
(`rootClaims_checked`, `backupClaims_checked`); the anchor of the rule makes
claims that were checked one by one equal to each other.
-/

namespace RoLauncher.Prefix

open RoLauncher.Files RoLauncher.Crash

/-- The digest that a transaction's record names. -/
def markerDigest (host : Host) (node : Option Node) (name : String) : Option String :=
  (readMarker host.serde (child node name)).toOption.bind (·.prefixFingerprint)

/-- The digest that a manifest names. -/
def manifestDigest (host : Host) (node : Option Node) (name : String) : Option String :=
  (readManifest host.serde (child node name)).toOption.bind (·.prefixFingerprintDigest)

/-- What `P`, `C` and `M` of a root name. -/
def rootClaims (host : Host) (node : Option Node) : List String :=
  (markerDigest host node provisioningMarker).toList ++
    (markerDigest host node commitPendingMarker).toList ++
    (manifestDigest host node prefixMarker).toList

/-- The record a backup is judged by: `T` where it has one, `M` otherwise. -/
def backupRecord (node : Option Node) : String :=
  if (child node backupRemovingManifest).isSome then backupRemovingManifest else prefixMarker

/-- What the record of a backup names. -/
def backupClaims (host : Host) (node : Option Node) : List String :=
  (manifestDigest host node (backupRecord node)).toList

/-- Every full digest an action of recovery rests on. -/
def ManagedPrefix.claims (host : Host) (pfx : ManagedPrefix) (disk : Disk)
    (action : RecoveryAction) : List String :=
  pfx.expected.toList ++ rootClaims host disk.root ++ backupClaims host disk.backup ++
    match action with
    | .restoreLegacyBackup name => backupClaims host (disk.siblings.find name)
    | _ => []

/-- One digest, and one the path can stand for. -/
def Agree (suffix : String) (claims : List String) : Prop :=
  ∀ digest ∈ claims, shapeOk suffix digest = true ∧ ∀ other ∈ claims, other = digest

section Claims

variable {host : Host} {location : PrefixLocation} {rule : V3Identity} {node : Option Node}
  {pfx : ManagedPrefix} {disk : Disk}

/-! ## What a class vouches for -/

theorem markerDigest_missing {name : String} (h : child node name = none) :
    markerDigest host node name = none := by
  unfold markerDigest
  rw [h]
  rfl

theorem manifestDigest_missing {name : String} (h : child node name = none) :
    manifestDigest host node name = none := by
  unfold manifestDigest
  rw [h]
  rfl

theorem markerDigest_checked {ino dev : Nat} {es : Entries} {name digest : String}
    (valid : validatedMarker host location (some rule) es name = .ok ())
    (claimed : markerDigest host (some (.dir ino dev es)) name = some digest) :
    rule.check digest = .ok () := by
  unfold validatedMarker at valid
  rw [markerDigest, child_dir] at claimed
  cases hr : readMarker host.serde (es.find name) with
  | error reason => rw [hr] at valid; cases valid
  | ok marker =>
    rw [hr] at valid claimed
    obtain ⟨digest', names, checked, _⟩ : ∃ digest', marker.prefixFingerprint = some digest' ∧
        rule.check digest' = .ok () ∧ (rule.check digest' = .ok () →
          validateMarker marker location (some rule) = .ok ()) := validateMarker_rule valid
    rw [show (Except.ok marker : Except String _).toOption = some marker from rfl,
      Option.bind_some, names] at claimed
    cases claimed
    exact checked

theorem manifestDigest_checked {ino dev : Nat} {es : Entries} {name digest : String}
    (valid : validatedManifest host location (some rule) es name = .ok ())
    (claimed : manifestDigest host (some (.dir ino dev es)) name = some digest) :
    rule.check digest = .ok () := by
  unfold validatedManifest at valid
  rw [manifestDigest, child_dir] at claimed
  cases hr : readManifest host.serde (es.find name) with
  | error reason => rw [hr] at valid; cases valid
  | ok manifest =>
    rw [hr] at valid claimed
    obtain ⟨digest', names, checked⟩ := (committedManifest_ok.mp valid).2 rule rfl
    rw [show (Except.ok manifest : Except String _).toOption = some manifest from rfl,
      Option.bind_some, names] at claimed
    cases claimed
    exact checked

theorem mem_rootClaims {digest : String} :
    digest ∈ rootClaims host node ↔
      markerDigest host node provisioningMarker = some digest ∨
        markerDigest host node commitPendingMarker = some digest ∨
        manifestDigest host node prefixMarker = some digest := by
  simp only [rootClaims, List.mem_append, Option.mem_toList, or_assoc]

theorem rootClaims_nil (p : child node provisioningMarker = none)
    (c : child node commitPendingMarker = none) (m : child node prefixMarker = none) :
    rootClaims host node = [] := by
  rw [rootClaims, markerDigest_missing p, markerDigest_missing c, manifestDigest_missing m]
  rfl

/-- The single marker of a directory is the only record of a transaction it can hold. -/
theorem markerDigest_single {ino dev : Nat} {es : Entries} {marker : Option (String × Bool)}
    {name digest : String} (single : transactionMarker es = .ok marker)
    (fixed : name = provisioningMarker ∨ name = commitPendingMarker)
    (claimed : markerDigest host (some (.dir ino dev es)) name = some digest) :
    ∃ authority, marker = some (name, authority) := by
  have present : es.find name ≠ none := fun missing => by
    rw [markerDigest_missing (by rw [child_dir]; exact missing)] at claimed
    cases claimed
  rcases marker with _ | ⟨name', authority⟩
  · obtain ⟨p, c⟩ := transactionMarker_none.mp single
    rcases fixed with rfl | rfl
    · exact absurd p present
    · exact absurd c present
  · refine ⟨authority, ?_⟩
    cases authority with
    | true =>
      obtain ⟨rfl, _, c⟩ := transactionMarker_authority.mp single
      rcases fixed with rfl | rfl
      · rfl
      · exact absurd c present
    | false =>
      obtain ⟨rfl, _, p⟩ := transactionMarker_revoked.mp single
      rcases fixed with rfl | rfl
      · exact absurd p present
      · rfl

/-- Whoever vouches for the single marker vouches for every transaction record. -/
theorem markers_checked {ino dev : Nat} {es : Entries} {marker : Option (String × Bool)}
    {name digest : String} (single : transactionMarker es = .ok marker)
    (agrees : ∀ m ∈ marker, validatedMarker host location (some rule) es m.1 = .ok ())
    (fixed : name = provisioningMarker ∨ name = commitPendingMarker)
    (claimed : markerDigest host (some (.dir ino dev es)) name = some digest) :
    rule.check digest = .ok () := by
  obtain ⟨authority, rfl⟩ := markerDigest_single single fixed claimed
  exact markerDigest_checked (agrees _ rfl) claimed

/-- A directory without a manifest has no claims but those of its single marker. -/
theorem uncommittedClaims_checked {ino dev : Nat} {es : Entries} {name digest : String}
    {authority : Bool} (missing : es.find prefixMarker = none)
    (single : transactionMarker es = .ok (some (name, authority)))
    (valid : validatedMarker host location (some rule) es name = .ok ())
    (claimed : digest ∈ rootClaims host (some (.dir ino dev es))) : rule.check digest = .ok () := by
  have agrees : ∀ m ∈ (some (name, authority) : Option (String × Bool)),
      validatedMarker host location (some rule) es m.1 = .ok () := by
    intro m hm
    cases hm
    exact valid
  obtain p | c | m := mem_rootClaims.mp claimed
  · exact markers_checked single agrees (.inl rfl) p
  · exact markers_checked single agrees (.inr rfl) c
  · rw [manifestDigest_missing (by rw [child_dir]; exact missing)] at m
    cases m

theorem entryClaims_checked {ino dev : Nat} {es : Entries} {structureOk : Bool} {state : RootState}
    {digest : String} (he : classifyEntries host location (some rule) es structureOk = state)
    (vouched : ∀ reason, state ≠ .foreign reason)
    (claimed : digest ∈ rootClaims host (some (.dir ino dev es))) : rule.check digest = .ok () := by
  cases state with
  | absent => exact absurd he classifyEntries_ne_absent
  | empty =>
    rw [classifyEntries_empty.mp he] at claimed
    cases claimed
  | pendingMarker =>
    have only := classifyEntries_pendingMarker.mp he
    have none : rootClaims host (some (.dir ino dev es)) = [] :=
      rootClaims_nil (find_of_holdsOnlyPendingTmp only (by decide))
        (find_of_holdsOnlyPendingTmp only (by decide)) (find_of_holdsOnlyPendingTmp only (by decide))
    rw [none] at claimed
    cases claimed
  | provisioning =>
    obtain ⟨missing, single, valid, _⟩ := classifyEntries_provisioning.mp he
    exact uncommittedClaims_checked missing single valid claimed
  | commitPending =>
    obtain ⟨missing, single, valid⟩ := classifyEntries_commitPending.mp he
    exact uncommittedClaims_checked missing single valid claimed
  | committed stale =>
    obtain ⟨valid, marker, single, agrees, _⟩ := classifyEntries_committed.mp he
    obtain p | c | m := mem_rootClaims.mp claimed
    · exact markers_checked single agrees (.inl rfl) p
    · exact markers_checked single agrees (.inr rfl) c
    · exact manifestDigest_checked valid m
  | legacyValid =>
    obtain ⟨_, _, _, _, _, impossible⟩ := classifyEntries_legacyValid.mp he
    cases impossible
  | foreign reason => exact absurd rfl (vouched reason)

/-- **A root vouches for its claims**, unless it is foreign. -/
theorem rootClaims_checked
    (vouched : ∀ reason, classifyRoot host location (some rule) node ≠ .foreign reason)
    {digest : String} (claimed : digest ∈ rootClaims host node) : rule.check digest = .ok () := by
  have seen : classifyRoot host location (some rule) node =
      classifyRoot host location (some rule) node := rfl
  obtain ⟨_, rfl⟩ | ⟨reason, foreign⟩ | ⟨ino, dev, es, rfl, he⟩ := classifyRoot_cases seen
  · cases claimed
  · exact absurd foreign (vouched reason)
  · exact entryClaims_checked he vouched claimed

/-- **A backup vouches for its claim**, unless it is foreign. -/
theorem backupClaims_checked {parentDev : Nat}
    (vouched : ∀ reason, classifyBackup host parentDev location (some rule) node ≠ .foreign reason)
    {digest : String} (claimed : digest ∈ backupClaims host node) : rule.check digest = .ok () := by
  rw [backupClaims, Option.mem_toList] at claimed
  have seen : classifyBackup host parentDev location (some rule) node =
      classifyBackup host parentDev location (some rule) node := rfl
  obtain ⟨_, rfl⟩ | ⟨reason, foreign⟩ | ⟨ino, es, rfl, he⟩ := classifyBackup_cases seen
  · cases claimed
  · exact absurd foreign (vouched reason)
  have present : Entries.find es (backupRecord (some (.dir ino parentDev es))) ≠ none :=
      fun missing => by
    rw [manifestDigest_missing (by rw [child_dir]; exact missing)] at claimed
    cases claimed
  rw [← he] at vouched
  unfold classifyBackupEntries at vouched
  split at vouched
  next empty => exact absurd (Entries.find_eq_none_of_nil_names empty _) present
  split at vouched
  next => exact absurd rfl (vouched _)
  split at vouched
  next => exact absurd rfl (vouched _)
  next name removing =>
    unfold classifyRemoving at vouched
    split at vouched
    next => exact absurd rfl (vouched _)
    split at vouched
    next isManifest =>
      subst isManifest
      have recorded : backupRecord (some (.dir ino parentDev es)) = backupRemovingManifest := by
        obtain ⟨_, found, _⟩ | ⟨other, _⟩ := backupTombstone_some.mp removing
        · rw [backupRecord, child_dir, if_pos (Option.isSome_iff_ne_none.mpr found)]
        · exact absurd other (by decide)
      rw [recorded] at claimed
      split at vouched
      next => exact absurd rfl (vouched _)
      next valid => exact manifestDigest_checked valid claimed
    next => exact absurd rfl (vouched _)
  next none =>
    have recorded : backupRecord (some (.dir ino parentDev es)) = prefixMarker := by
      rw [backupRecord, child_dir, (backupTombstone_none.mp none).1]
      rfl
    rw [recorded] at claimed present
    unfold classifyOwned at vouched
    split at vouched
    next =>
      split at vouched
      next valid => exact manifestDigest_checked valid claimed
      next => exact absurd rfl (vouched _)
    next missing => exact absurd (entryKind_eq_missing.mp missing) present
    next => exact absurd rfl (vouched _)

/-! ## What the rule makes of them -/

/-- Claims that passed one anchored rule are one digest. -/
theorem Agree.of_anchor {claims : List String} {anchor : String} (fixed : rule.anchor = some anchor)
    (checked : ∀ digest ∈ claims, rule.check digest = .ok ()) : Agree rule.suffix claims := by
  have same : ∀ digest ∈ claims, digest = anchor := fun digest claimed =>
    ((V3Identity.check_ok.mp (checked digest claimed)).2 anchor fixed).symm
  intro digest claimed
  refine ⟨(V3Identity.check_ok.mp (checked digest claimed)).1, fun other claimed' => ?_⟩
  rw [same digest claimed, same other claimed']

/-- A single claim that passed is one digest. -/
theorem Agree.of_single {claims : List String} (single : claims.length ≤ 1)
    (checked : ∀ digest ∈ claims, rule.check digest = .ok ()) : Agree rule.suffix claims := by
  intro digest claimed
  refine ⟨(V3Identity.check_ok.mp (checked digest claimed)).1, fun other claimed' => ?_⟩
  rcases claims with _ | ⟨only, _ | ⟨second, rest⟩⟩
  · cases claimed
  · rw [List.mem_singleton.mp claimed, List.mem_singleton.mp claimed']
  · simp at single

theorem backupClaims_length (node : Option Node) : (backupClaims host node).length ≤ 1 := by
  unfold backupClaims
  cases manifestDigest host node (backupRecord node) <;> simp

/-- The first claim of two readable records is the first that claims, then the second. -/
theorem findSome?_pair {α β γ : Type} (read : γ → Option α) (claim : α → Option β) (x y : γ) :
    ([x, y].filterMap read).findSome? claim = ((read x).bind claim).or ((read y).bind claim) := by
  cases hx : read x with
  | none => cases hy : read y with
    | none => simp [hx, hy]
    | some b => cases hb : claim b <;> simp [hx, hy, hb]
  | some a => cases ha : claim a with
    | none => cases hy : read y with
      | none => simp [hx, hy, ha]
      | some b => cases hb : claim b <;> simp [hx, hy, ha, hb]
    | some d => simp [hx, ha]

theorem markerClaim_eq (suffix : String) :
    ManagedPrefix.markerClaim host suffix node =
      ((markerDigest host node provisioningMarker).or
        (markerDigest host node commitPendingMarker)).filter fun d => shapeOk suffix d := by
  rw [ManagedPrefix.markerClaim, findSome?_pair]
  rfl

theorem filter_none {α : Type} {p : α → Bool} {claim : Option α} (h : claim.filter p = none)
    (shaped : ∀ a ∈ claim, p a = true) : claim = none := by
  cases claim with
  | none => rfl
  | some a => rw [Option.filter_some_pos (shaped a rfl)] at h; cases h

/-- Without an anchor neither the caller nor the root claims anything of the path's shape. -/
theorem noClaims_of_noAnchor {suffix : String} {root : Option Node}
    (v3 : v3PathSuffix host pfx.location = some suffix)
    (free : ∀ rule ∈ pfx.identity host root, rule.anchor = none)
    (shaped : ∀ digest ∈ rootClaims host root, shapeOk suffix digest = true) :
    pfx.expected = none ∧ rootClaims host root = [] := by
  have anchor := free _ (by rw [ManagedPrefix.identity, v3]; rfl)
  simp only [Option.or_eq_none_iff] at anchor
  obtain ⟨⟨expected, marker⟩, manifest⟩ := anchor
  have noMarker : (markerDigest host root provisioningMarker).or
      (markerDigest host root commitPendingMarker) = none := by
    rw [markerClaim_eq] at marker
    refine filter_none marker fun digest claimed => shaped digest (mem_rootClaims.mpr ?_)
    rcases Option.or_eq_some_iff.mp claimed with p | ⟨_, c⟩
    · exact .inl p
    · exact .inr (.inl c)
  have noManifest : manifestDigest host root prefixMarker = none :=
    filter_none manifest fun digest claimed =>
      shaped digest (mem_rootClaims.mpr (.inr (.inr claimed)))
  obtain ⟨p, c⟩ := Option.or_eq_none_iff.mp noMarker
  refine ⟨expected, ?_⟩
  rw [rootClaims, p, c, noManifest]
  rfl

theorem expected_shaped {desired : Option String} {suffix : String}
    (v3 : v3PathSuffix host location = some suffix)
    (hat : ManagedPrefix.at host location desired = .ok pfx) :
    ∀ digest ∈ pfx.expected, shapeOk suffix digest = true := by
  intro digest claimed
  unfold ManagedPrefix.at at hat
  split at hat
  · cases hat
  · cases hat
    rw [v3, Option.bind_some] at claimed
    exact (Option.filter_eq_some_iff.mp claimed).2

theorem anchor_of_expected {root : Option Node} {digest : String}
    (h : pfx.identity host root = some rule) (wanted : pfx.expected = some digest) :
    rule.anchor = some digest := by
  obtain ⟨suffix, _, rfl⟩ := Option.map_eq_some_iff.mp h
  simp only [wanted, Option.some_or]

/-- **One identity.** Where the root vouches for itself, and the same rule accepts what one backup
claims, all claims are the digest of the path. -/
theorem agree_of_vouched {suffix : String} {backups : List String}
    (v3 : v3PathSuffix host pfx.location = some suffix)
    (expected : ∀ digest ∈ pfx.expected, shapeOk suffix digest = true)
    (root : ∀ reason, pfx.rootClass host disk ≠ .foreign reason) (single : backups.length ≤ 1)
    (backup : ∀ rule ∈ pfx.identity host disk.root, ∀ digest ∈ backups, rule.check digest = .ok ()) :
    Agree suffix (pfx.expected.toList ++ rootClaims host disk.root ++ backups) := by
  obtain ⟨rule, hrule, rfl⟩ : ∃ rule, pfx.identity host disk.root = some rule ∧
      rule.suffix = suffix := ⟨_, by rw [ManagedPrefix.identity, v3]; rfl, rfl⟩
  unfold ManagedPrefix.rootClass at root
  rw [hrule] at root
  have rooted : ∀ digest ∈ rootClaims host disk.root, rule.check digest = .ok () :=
    fun _ claimed => rootClaims_checked root claimed
  cases hanchor : rule.anchor with
  | some anchor =>
    refine Agree.of_anchor hanchor fun digest claimed => ?_
    rcases List.mem_append.mp claimed with claimed | claimed
    · rcases List.mem_append.mp claimed with claimed | claimed
      · have wanted : pfx.expected = some digest := Option.mem_toList.mp claimed
        refine V3Identity.check_ok.mpr ⟨expected digest wanted, fun anchor' fixed => ?_⟩
        rw [anchor_of_expected hrule wanted] at fixed
        exact (Option.some.inj fixed).symm
      · exact rooted digest claimed
    · exact backup rule hrule digest claimed
  | none =>
    obtain ⟨noExpected, noRoot⟩ := noClaims_of_noAnchor v3
      (fun rule' h => by rw [hrule] at h; cases h; exact hanchor)
      fun digest claimed => (V3Identity.check_ok.mp (rooted digest claimed)).1
    rw [noExpected, noRoot]
    exact Agree.of_single single (backup rule hrule)

/-- A foreign backup stops recovery, whatever the root. -/
theorem plan_backup_vouched {root : RootState} {backup : BackupState} {legacy : List String}
    {action : RecoveryAction} (h : plan root backup legacy = .ok action) (reason : String) :
    backup ≠ .foreign reason := by
  rintro rfl
  cases root <;> cases h

theorem backupClaims_vouched {parentDev : Nat} {identity : Option V3Identity}
    (vouched : ∀ reason, plannedBackup (classifyBackup host parentDev location identity node) ≠
      .foreign reason) :
    ∀ rule ∈ identity, ∀ digest ∈ backupClaims host node, rule.check digest = .ok () := by
  rintro rule rfl digest claimed
  have known : ∀ reason, classifyBackup host parentDev location (some rule) node ≠
      .foreign reason := fun reason foreign => by
    refine vouched reason ?_
    rw [foreign, plannedBackup, if_neg (by simp)]
  exact backupClaims_checked known claimed

theorem backupClaims_absent {parentDev : Nat} {identity : Option V3Identity}
    (absent : plannedBackup (classifyBackup host parentDev location identity node) = .absent) :
    backupClaims host node = [] := by
  unfold plannedBackup at absent
  split at absent
  next empty =>
    obtain ⟨ino, rfl⟩ := classifyBackup_empty.mp empty
    rfl
  next =>
    rw [classifyBackup_absent.mp absent]
    rfl

/-- What a decision rests on is one identity, whenever it acts or calls the root committed. -/
theorem assess_agree {suffix : String} (v3 : v3PathSuffix host pfx.location = some suffix)
    (expected : ∀ digest ∈ pfx.expected, shapeOk suffix digest = true) {a : Assessment}
    (ha : assess host pfx disk = .ok a)
    (decided : a.action ≠ .none ∨ ∃ stale, a.rootState = .committed stale) :
    Agree suffix (pfx.claims host disk a.action) := by
  obtain ⟨root, backup, _, _, planned, _⟩ := assess_ok ha
  have vouched : ∀ reason, pfx.rootClass host disk ≠ .foreign reason := by
    intro reason foreign
    change classifyRoot _ _ _ _ = _ at foreign
    rw [root, foreign] at planned decided
    rcases decided with acts | ⟨stale, committed⟩
    · exact acts (plan_foreign planned).1
    · cases committed
  have judged := backupClaims_vouched fun reason => by
    rw [← backup]
    exact plan_backup_vouched planned reason
  cases haction : a.action with
  | restoreLegacyBackup name =>
    rw [haction] at planned
    obtain ⟨absent, _, chosen⟩ := plan_action planned
    have restorable := mem_legacyRestorable (chosen ▸ List.mem_singleton_self name)
    rw [ManagedPrefix.claims, backupClaims_absent (backup.symm.trans absent), List.append_nil]
    refine agree_of_vouched v3 expected vouched (backupClaims_length _) ?_
    exact backupClaims_vouched fun reason => by rw [restorable]; simp [plannedBackup]
  | _ =>
    simp only [ManagedPrefix.claims, List.append_nil]
    exact agree_of_vouched v3 expected vouched (backupClaims_length _) judged

/-- A root the gate calls committed, next to a backup it does not refuse. -/
theorem gate_agree {serverId suffix : String} {root : Path}
    (v3 : v3PathSuffix host (isolatedLocation serverId root) = some suffix)
    (hat : ManagedPrefix.at host (isolatedLocation serverId root) none = .ok pfx)
    (valid : transactionGate host serverId root disk = .committedValid) :
    Agree suffix (pfx.claims host disk .none) := by
  obtain ⟨_, ⟨stale, committed⟩, backup⟩ := (transactionGate_committedValid hat).mp valid
  simp only [ManagedPrefix.claims, List.append_nil]
  have location := ManagedPrefix.at_location hat
  refine agree_of_vouched (by rw [location]; exact v3) (expected_shaped v3 hat)
    (fun reason foreign => ?_) (backupClaims_length _) (backupClaims_vouched backup)
  rw [committed] at foreign
  cases foreign

end Claims

/-- The one change recovery makes without an action: an empty backup directory goes. -/
def EmptyBackupGone (disk disk' : Disk) : Prop :=
  disk' = disk ∨
    ∃ ino, disk.backup = some (.dir ino disk.parentDev []) ∧ disk' = { disk with backup := none }

/-- A decision without action is carried out by removing an empty backup, or by nothing. -/
theorem carryOut_idle_meets {host : Host} {pfx : ManagedPrefix} {disk : Disk} {a : Assessment}
    (ha : assess host pfx disk = .ok a) (idle : a.action = .none) (active : Nat) :
    (pfx.carryOut active a).Meets device EmptyBackupGone (fun _ _ => True) disk := by
  have stay : ∀ s, EmptyBackupGone s s := fun s => .inl rfl
  have rest : ∀ t, (do pfx.execute a.action a.rootState a.backupState
                       return a.outcome pfx : FsProg RecoveryOutcome).Meets device EmptyBackupGone
      (fun _ _ => True) t := fun t => by
    rw [idle]
    trivial
  unfold ManagedPrefix.carryOut
  split
  · trivial
  refine Prog.Meets.bind ?_
  unfold ManagedPrefix.ensureQuiet
  split
  · refine Prog.Meets.bind (.onlyIf (fun empty => ?_) fun _ => rest disk)
    obtain ⟨ino, found⟩ := (assess_removedEmptyBackup ha).mp empty
    refine Prog.Meets.bind (meets_atomic rfl (stay _) (fun e => trivial) fun ok => ?_)
    obtain ⟨_, _, removed⟩ := removeDir_success ok
    rw [removed]
    refine ⟨.inr ⟨ino, found, rfl⟩, syncParent_meets (stay _) fun r => ?_⟩
    cases r with
    | error e => trivial
    | ok _ => exact rest _
  · trivial

/-- **Recovery acts on one full digest.** Whatever the disk of a v3 location, and however its
calls are disturbed, recovery changes more than an empty backup directory only on claims that are
one digest of the path; the same holds where it, or the gate, calls the root committed. -/
theorem full_digest_evidence (host : Host) {location : PrefixLocation} {desired : Option String}
    {suffix : String} {pfx : ManagedPrefix} (v3 : v3PathSuffix host location = some suffix)
    (hat : ManagedPrefix.at host location desired = .ok pfx) (disk : Disk) (active : Nat) :
    (∀ a, assess host pfx disk = .ok a →
        (a.action ≠ .none ∨ ∃ stale, a.rootState = .committed stale) →
        Agree suffix (pfx.claims host disk a.action)) ∧
      (recover host pfx active).Meets device
        (fun s t => EmptyBackupGone s t ∨ ∃ a, assess host pfx disk = .ok a ∧
          a.action ≠ .none ∧ Agree suffix (pfx.claims host disk a.action))
        (fun _ _ => True) disk ∧
      (∀ serverId, location = isolatedLocation serverId location.path → desired = none →
        transactionGate host serverId location.path disk = .committedValid →
        Agree suffix (pfx.claims host disk .none)) := by
  have own := ManagedPrefix.at_location hat
  have agree : ∀ a, assess host pfx disk = .ok a →
      (a.action ≠ .none ∨ ∃ stale, a.rootState = .committed stale) →
      Agree suffix (pfx.claims host disk a.action) := fun a ha decided =>
    assess_agree (by rw [own]; exact v3) (expected_shaped v3 hat) ha decided
  refine ⟨agree, ?_, ?_⟩
  · refine Prog.meets_look (Prog.Meets.bind (Prog.meets_ofExcept ?_))
    cases ha : assess host pfx disk with
    | error e => trivial
    | ok a =>
      by_cases idle : a.action = .none
      · exact (carryOut_idle_meets ha idle active).mono (fun _ _ gone => .inl gone)
          fun _ _ _ => trivial
      · exact (Prog.Meets.always _ _).mono
          (fun _ _ _ => .inr ⟨a, rfl, idle, agree a ha (.inl idle)⟩) fun _ _ _ => trivial
  · intro serverId isolated noDesired valid
    rw [noDesired] at hat
    rw [isolated] at hat v3
    exact gate_agree v3 hat valid

/-! ### A backup whose removal had begun -/

/-- Its first 24 digits are those of the sample fingerprint. -/
def otherDigest : String := "aaaaaaaaaaaaaaaaaaaaaaaabbbbbbbbbbbbbbbbbbbbbbbbbbbbbbbbbbbbbbbb"

/-- The manifest of an isolated prefix with the given digest. -/
def isolatedManifestV3 (digest : String) : PrefixManifestV3 :=
  { sharedManifestV3 with
    scope := .isolated
    prefixFingerprint := { schemaVersion := 1, algorithm := "sha256", digest } }

/-- A decoder that knows two manifests: `M` of the sample fingerprint, `N` of the other digest. -/
def twoDigestHost : Host :=
  { sampleHost with
    serde := { sampleSerde with
      schemaProbe := fun json =>
        if json = "M" ∨ json = "N" then .ok prefixSchemaV3 else .error "expected value"
      prefixManifestV3 := fun json =>
        if json = "M" then .ok (isolatedManifestV3 sampleFingerprint.digest)
        else if json = "N" then .ok (isolatedManifestV3 otherDigest)
        else .error "expected value" } }

def twoDigestLocation : PrefixLocation := ownLocation twoDigestHost "server" sampleFingerprint

def twoDigestPrefix : ManagedPrefix where
  location := twoDigestLocation
  parent := twoDigestLocation.path.dropLast
  name := "0123456789abcdef-v3-aaaaaaaaaaaaaaaaaaaaaaaa"
  expected := some sampleFingerprint.digest

theorem twoDigest_at :
    ManagedPrefix.at twoDigestHost twoDigestLocation (some sampleFingerprint.digest) =
      .ok twoDigestPrefix := by
  rfl

/-- A committed root, and a backup that holds the tombstone of the same digest beside a manifest
of the other one. -/
def twoDigestDisk : Disk :=
  sampleDisk (some (.dir 1 0 [(prefixMarker, .file (.text "M")), ("drive_c", .dir 2 0 [])]))
    (some (.dir 3 0 [(backupRemovingManifest, .file (.text "M")),
      (prefixMarker, .file (.text "N")), ("drive_c", .dir 4 0 [])]))

theorem v3PathDigestPrefix24_ofList {digits start : List Char}
    (taken : takeBytes 24 digits = some start) :
    v3PathDigestPrefix24 (String.ofList digits) = String.ofList start := by
  unfold v3PathDigestPrefix24
  rw [String.toList_ofList, taken]

/-- **Removal evidence dominates.** Recovery deletes that backup, although two digests that share
the digits of the path are claimed. -/
theorem tombstone_outweighs_manifest :
    ManagedPrefix.at twoDigestHost twoDigestLocation (some sampleFingerprint.digest) =
        .ok twoDigestPrefix ∧
      (∃ outcome, (recover twoDigestHost twoDigestPrefix 0).exec device twoDigestDisk =
          (.ok outcome, { twoDigestDisk with backup := none }) ∧
        outcome.action = .completeCommit false true) ∧
      manifestDigest twoDigestHost twoDigestDisk.backup backupRemovingManifest =
        some sampleFingerprint.digest ∧
      manifestDigest twoDigestHost twoDigestDisk.backup prefixMarker = some otherDigest ∧
      otherDigest ≠ sampleFingerprint.digest ∧
      v3PathDigestPrefix24 otherDigest = v3PathDigestPrefix24 sampleFingerprint.digest := by
  have other : v3PathDigestPrefix24 otherDigest = "aaaaaaaaaaaaaaaaaaaaaaaa" :=
    v3PathDigestPrefix24_ofList rfl
  have sample : v3PathDigestPrefix24 sampleFingerprint.digest = "aaaaaaaaaaaaaaaaaaaaaaaa" :=
    v3PathDigestPrefix24_ofList rfl
  exact ⟨twoDigest_at, ⟨_, rfl, rfl⟩, rfl, rfl, by decide, other.trans sample.symm⟩

theorem full_digest_evidence_twoDigest :
    (∀ a, assess twoDigestHost twoDigestPrefix twoDigestDisk = .ok a →
        (a.action ≠ .none ∨ ∃ stale, a.rootState = .committed stale) →
        Agree (v3PathDigestPrefix24 sampleFingerprint.digest)
          (twoDigestPrefix.claims twoDigestHost twoDigestDisk a.action)) ∧
      (recover twoDigestHost twoDigestPrefix 0).Meets device
        (fun s t => EmptyBackupGone s t ∨
          ∃ a, assess twoDigestHost twoDigestPrefix twoDigestDisk = .ok a ∧ a.action ≠ .none ∧
            Agree (v3PathDigestPrefix24 sampleFingerprint.digest)
              (twoDigestPrefix.claims twoDigestHost twoDigestDisk a.action))
        (fun _ _ => True) twoDigestDisk ∧
      (∀ serverId, twoDigestLocation = isolatedLocation serverId twoDigestLocation.path →
        some sampleFingerprint.digest = none →
        transactionGate twoDigestHost serverId twoDigestLocation.path twoDigestDisk =
          .committedValid →
        Agree (v3PathDigestPrefix24 sampleFingerprint.digest)
          (twoDigestPrefix.claims twoDigestHost twoDigestDisk .none)) :=
  full_digest_evidence twoDigestHost v3PathSuffix_own twoDigest_at twoDigestDisk 0

end RoLauncher.Prefix
