import RoLauncher.Prefix.Transaction
import RoLauncher.Prefix.Undisturbed

/-!
# Recovering twice

A recovery that succeeded should leave nothing for the next one. `Idle` is
that resting state, and `idle_iff` says what it looks like on disk: no backup,
no transaction marker in the root, and no single timestamped backup waiting
for a root without data.

Two outcomes miss it. A tree that is moved back to `R` brings along whatever
markers it carries, and the root was judged without them; a partial root that
is discarded leaves `R` absent, and only then are the timestamped backups
looked at. `recovery_one_shot_iff` says that there is no third.
-/

namespace RoLauncher.Prefix

open RoLauncher.Files RoLauncher.Crash

/-! ## Evidence and classes -/

section Evidence

variable {host : Host} {location : PrefixLocation} {identity : Option V3Identity}
  {node : Option Node}

theorem rootHoldsTransactionEvidence_dir {ino dev : Nat} {es : Entries} :
    rootHoldsTransactionEvidence (some (.dir ino dev es)) = false ↔
      es.find provisioningMarker = none ∧ es.find provisioningMarkerTmp = none ∧
        es.find commitPendingMarker = none := by
  simp [rootHoldsTransactionEvidence, rootEvidence]

/-- What a class says about the fixed transaction markers, if it says anything. -/
def RootState.evidence : RootState → Option Bool
  | .absent | .empty | .committed false | .legacyValid => some false
  | .pendingMarker | .provisioning | .commitPending | .committed true => some true
  | .foreign _ => none

/-- The classes are right about the markers. -/
theorem classifyRoot_evidence {state : RootState} {held : Bool}
    (seen : classifyRoot host location identity node = state)
    (said : state.evidence = some held) : rootHoldsTransactionEvidence node = held := by
  obtain ⟨rfl, rfl⟩ | ⟨reason, rfl⟩ | ⟨ino, dev, es, rfl, h⟩ := classifyRoot_cases seen
  · cases said
    rfl
  · cases said
  have holds : ∀ name ∈ rootEvidence, Entries.find es name ≠ none →
      rootHoldsTransactionEvidence (some (.dir ino dev es)) = true := by
    intro name hname present
    rw [rootHoldsTransactionEvidence, List.any_eq_true]
    exact ⟨name, hname, Option.isSome_iff_ne_none.mpr present⟩
  cases state with
  | absent => exact absurd h classifyEntries_ne_absent
  | empty =>
    cases said
    rw [classifyEntries_empty] at h
    subst h
    rfl
  | pendingMarker =>
    cases said
    obtain ⟨_, data, file, _⟩ := holdsOnlyPendingTmp_iff.mp (classifyEntries_pendingMarker.mp h)
    exact holds provisioningMarkerTmp (by decide) (by rw [file]; exact Option.some_ne_none _)
  | provisioning =>
    cases said
    obtain ⟨_, marker, _⟩ := classifyEntries_provisioning.mp h
    obtain ⟨_, ⟨data, file⟩, _⟩ := transactionMarker_authority.mp marker
    exact holds provisioningMarker (by decide) (by rw [file]; exact Option.some_ne_none _)
  | commitPending =>
    cases said
    obtain ⟨_, marker, _⟩ := classifyEntries_commitPending.mp h
    obtain ⟨_, ⟨data, file⟩, _⟩ := transactionMarker_revoked.mp marker
    exact holds commitPendingMarker (by decide) (by rw [file]; exact Option.some_ne_none _)
  | committed stale =>
    obtain ⟨_, marker, hm, _, hstale⟩ := classifyEntries_committed.mp h
    have same : held = stale := by cases stale <;> exact (Option.some.inj said).symm
    rw [same, hstale]
    rcases marker with _ | ⟨name, authority⟩
    · obtain ⟨hP, hC⟩ := transactionMarker_none.mp hm
      cases ht : Entries.find es provisioningMarkerTmp <;>
        simp [rootHoldsTransactionEvidence, rootEvidence, hP, hC, ht]
    · cases authority with
      | true =>
        obtain ⟨_, ⟨data, file⟩, _⟩ := transactionMarker_authority.mp hm
        exact holds provisioningMarker (by decide) (by rw [file]; exact Option.some_ne_none _)
      | false =>
        obtain ⟨_, ⟨data, file⟩, _⟩ := transactionMarker_revoked.mp hm
        exact holds commitPendingMarker (by decide) (by rw [file]; exact Option.some_ne_none _)
  | legacyValid =>
    cases said
    obtain ⟨_, marker, tmp, _⟩ := classifyEntries_legacyValid.mp h
    obtain ⟨hP, hC⟩ := transactionMarker_none.mp marker
    exact rootHoldsTransactionEvidence_dir.mpr ⟨hP, tmp, hC⟩
  | foreign reason => cases said

/-- The roots without data are the missing one and the empty directory. -/
theorem classifyRoot_vacant :
    (classifyRoot host location identity node).Vacant ↔
      node = none ∨ ∃ ino dev, node = some (.dir ino dev []) := by
  constructor
  · intro vacant
    obtain ⟨_, hn⟩ | ⟨reason, h⟩ | ⟨ino, dev, es, hn, h⟩ :=
      classifyRoot_cases (Eq.refl (classifyRoot host location identity node))
    · exact .inl hn
    · rw [h] at vacant
      exact vacant.elim
    · rw [← h] at vacant
      refine .inr ⟨ino, dev, ?_⟩
      have empty : classifyEntries host location identity es
          (inspectPrefix host.serde (some (.dir ino dev es))).structureOk = .empty := by
        revert vacant
        generalize hc : classifyEntries host location identity es
          (inspectPrefix host.serde (some (.dir ino dev es))).structureOk = state
        cases state <;> intro vacant <;>
          first | rfl | exact vacant.elim | exact absurd hc classifyEntries_ne_absent
      rw [hn, classifyEntries_empty.mp empty]
  · rintro (rfl | ⟨ino, dev, rfl⟩)
    · trivial
    · rw [classifyRoot_dir, classifyEntries_empty.mpr rfl]
      trivial

end Evidence

/-! ## The resting state -/

section Idle

variable {host : Host} {pfx : ManagedPrefix} {disk : Disk}

/-- The backup's class as recovery plans with it. -/
def ManagedPrefix.backupClass (host : Host) (pfx : ManagedPrefix) (disk : Disk) : BackupState :=
  plannedBackup
    (classifyBackup host disk.parentDev pfx.location (pfx.identity host disk.root) disk.backup)

/-- Recovery decides that there is nothing to do. -/
def Idle (host : Host) (pfx : ManagedPrefix) (disk : Disk) : Prop :=
  ∃ a, assess host pfx disk = .ok a ∧ a.action = .none ∧ a.removedEmptyBackup = false

/-- A timestamped backup is looked at only while there is neither a root nor a backup. -/
theorem legacyRestorable_singleton {identity : Option V3Identity} {root : RootState}
    {backup : BackupState} {name : String}
    (h : legacyRestorable host pfx disk identity root backup = [name]) :
    root.Vacant ∧ backup = .absent := by
  unfold legacyRestorable at h
  split at h
  next vacant =>
    refine ⟨?_, vacant.2⟩
    rcases vacant.1 with rfl | rfl <;> trivial
  next => cases h

theorem plan_none_of {root : RootState} {legacy : List String}
    (said : root.evidence ≠ some true) (several : ∀ name, legacy ≠ [name]) :
    plan root .absent legacy = .ok .none := by
  cases root with
  | absent | empty =>
    rcases legacy with _ | ⟨only, _ | ⟨second, rest⟩⟩
    · rfl
    · exact absurd rfl (several only)
    · rfl
  | legacyValid => rfl
  | foreign reason => rfl
  | committed stale =>
    cases stale with
    | false => rfl
    | true => exact absurd rfl said
  | _ => exact absurd rfl said

/-- The decision, from the table. -/
theorem assess_of_plan {action : RecoveryAction}
    (planned : plan (pfx.rootClass host disk) (pfx.backupClass host disk)
      (legacyRestorable host pfx disk (pfx.identity host disk.root) (pfx.rootClass host disk)
        (pfx.backupClass host disk)) = .ok action)
    (evidence : action = .none → rootHoldsTransactionEvidence disk.root = false) :
    ∃ a, assess host pfx disk = .ok a ∧ a.action = action ∧
      a.removedEmptyBackup = decide (classifyBackup host disk.parentDev pfx.location
        (pfx.identity host disk.root) disk.backup = .empty) := by
  unfold ManagedPrefix.rootClass ManagedPrefix.backupClass at planned
  unfold assess
  dsimp only
  rw [planned]
  dsimp only
  rw [if_neg (by simpa using evidence)]
  exact ⟨_, rfl, rfl, rfl⟩

/-- **What rest looks like.** -/
theorem idle_iff :
    Idle host pfx disk ↔
      disk.backup = none ∧ rootHoldsTransactionEvidence disk.root = false ∧
        ∀ name, legacyRestorable host pfx disk (pfx.identity host disk.root)
          (pfx.rootClass host disk) .absent ≠ [name] := by
  constructor
  · rintro ⟨a, ha, none, kept⟩
    obtain ⟨root, backup, removed, _, planned, evidence⟩ := assess_ok ha
    rw [none] at planned
    obtain ⟨absent, _, _, _, several⟩ := plan_action planned
    rw [removed, decide_eq_false_iff_not] at kept
    rw [absent] at backup several
    refine ⟨?_, evidence none, fun name single => ?_⟩
    · rw [plannedBackup, if_neg kept] at backup
      exact classifyBackup_absent.mp backup.symm
    · have vacant := (legacyRestorable_singleton single).1
      rw [root] at several
      exact several vacant name single
  · rintro ⟨backup, evidence, several⟩
    have absent : classifyBackup host disk.parentDev pfx.location (pfx.identity host disk.root)
        disk.backup = .absent := classifyBackup_absent.mpr backup
    have said : (pfx.rootClass host disk).evidence ≠ some true := fun said => by
      rw [classifyRoot_evidence rfl said] at evidence
      cases evidence
    have planned := plan_none_of said several
    obtain ⟨a, ha, action, removed⟩ := assess_of_plan
      (by rw [ManagedPrefix.backupClass, absent]; exact planned) fun _ => evidence
    exact ⟨a, ha, action, by rw [removed, absent]; rfl⟩

/-- A recovery that does nothing, whoever uses the prefix. -/
theorem idle_iff_recover (active : Nat) :
    Idle host pfx disk ↔
      ∃ outcome, (recover host pfx active).exec device disk = (.ok outcome, disk) ∧
        outcome.action = .none ∧ outcome.removedEmptyBackup = false := by
  constructor
  · rintro ⟨a, ha, none, kept⟩
    exact ⟨a.outcome pfx, recover_ok_iff.mpr
      ⟨a, ha, .inl ⟨none, kept⟩, rfl, (a.result_idle none kept).symm⟩, none, kept⟩
  · rintro ⟨outcome, he, none, kept⟩
    obtain ⟨a, ha, _, rfl, _⟩ := recover_ok_iff.mp he
    exact ⟨a, ha, none, kept⟩

/-- Rest, for a root that holds something. -/
theorem idle_of_data {ino dev : Nat} {es : Entries} (root : disk.root = some (.dir ino dev es))
    (data : es ≠ []) (backup : disk.backup = none) :
    Idle host pfx disk ↔ rootHoldsTransactionEvidence disk.root = false := by
  rw [idle_iff]
  refine ⟨fun h => h.2.1, fun evidence => ⟨backup, evidence, fun name single => ?_⟩⟩
  have vacant : (classifyRoot host pfx.location (pfx.identity host disk.root) disk.root).Vacant :=
    (legacyRestorable_singleton single).1
  rw [classifyRoot_vacant, root] at vacant
  rcases vacant with h | ⟨_, _, h⟩ <;> cases h
  exact data rfl

end Idle

/-! ## The second recovery -/

/-- Nothing that the first recovery brings to light needs a second one: no tree it would move back
carries a transaction marker, and no partial root hides a single restorable timestamped backup. -/
structure OneShot (host : Host) (pfx : ManagedPrefix) (disk : Disk) : Prop where
  backup : pfx.backupClass host disk = .restorable →
    (pfx.rootClass host disk).Vacant ∨ (pfx.rootClass host disk).Partial →
    rootHoldsTransactionEvidence disk.backup = false
  legacy : ∀ name, legacyRestorable host pfx disk (pfx.identity host disk.root)
      (pfx.rootClass host disk) (pfx.backupClass host disk) = [name] →
    rootHoldsTransactionEvidence (disk.siblings.find name) = false
  exposed : (pfx.rootClass host disk).Partial → pfx.backupClass host disk = .absent →
    ∀ name, legacyRestorable host pfx disk (pfx.identity host none) .absent .absent ≠ [name]

section OneShot

variable {host : Host} {pfx : ManagedPrefix} {disk : Disk}

/-- A backup that is moved back arrives as a root that holds something. -/
theorem idle_of_restored {identity : Option V3Identity} {node : Option Node}
    (restorable : classifyBackup host disk.parentDev pfx.location identity node = .restorable)
    (root : disk.root = node) (backup : disk.backup = none) :
    Idle host pfx disk ↔ rootHoldsTransactionEvidence node = false := by
  obtain ⟨ino, es, found, whole⟩ := classifyBackup_restorable.mp restorable
  have data : es ≠ [] := by
    rintro rfl
    obtain ⟨name, data, _, h⟩ := whole.owned
    cases h
  rw [← root]
  exact idle_of_data (root.trans found) data backup

theorem oneShot_of_restorable (restorable : pfx.backupClass host disk = .restorable)
    (unfinished : (pfx.rootClass host disk).Vacant ∨ (pfx.rootClass host disk).Partial) :
    OneShot host pfx disk ↔ rootHoldsTransactionEvidence disk.backup = false := by
  refine ⟨fun h => h.backup restorable unfinished, fun clean => ⟨fun _ _ => clean, ?_, ?_⟩⟩
  · intro name single
    rw [restorable] at single
    cases (legacyRestorable_singleton single).2
  · intro _ absent
    rw [restorable] at absent
    cases absent

theorem oneShot_of_unfinished (absent : pfx.backupClass host disk = .absent)
    (unfinished : (pfx.rootClass host disk).Partial) :
    OneShot host pfx disk ↔
      ∀ name, legacyRestorable host pfx disk (pfx.identity host none) .absent .absent ≠ [name] := by
  refine ⟨fun h => h.exposed unfinished absent, fun hidden => ⟨?_, ?_, fun _ _ => hidden⟩⟩
  · intro restorable
    rw [absent] at restorable
    cases restorable
  · intro name single
    have vacant := (legacyRestorable_singleton single).1
    generalize pfx.rootClass host disk = root at unfinished vacant
    cases root <;> first | exact unfinished.elim | exact vacant.elim

theorem oneShot_of_legacy {name : String}
    (single : legacyRestorable host pfx disk (pfx.identity host disk.root) (pfx.rootClass host disk)
      (pfx.backupClass host disk) = [name]) :
    OneShot host pfx disk ↔ rootHoldsTransactionEvidence (disk.siblings.find name) = false := by
  obtain ⟨vacant, absent⟩ := legacyRestorable_singleton single
  refine ⟨fun h => h.legacy name single, fun clean => ⟨?_, ?_, ?_⟩⟩
  · intro restorable
    rw [absent] at restorable
    cases restorable
  · intro other h
    rw [single] at h
    cases h
    exact clean
  · intro unfinished
    generalize pfx.rootClass host disk = root at unfinished vacant
    cases root <;> first | exact unfinished.elim | exact vacant.elim

/-- A finished root hides nothing. -/
theorem oneShot_of_finished (finished : ¬ (pfx.rootClass host disk).Vacant)
    (whole : ¬ (pfx.rootClass host disk).Partial) : OneShot host pfx disk where
  backup _ h := (h.elim finished whole).elim
  legacy _ single := absurd (legacyRestorable_singleton single).1 finished
  exposed h := absurd h whole

/-- A completed commit rests: its markers are gone, and so is the backup. -/
theorem idle_of_completed {stale remove : Bool} {identity : Option V3Identity}
    (committed : classifyRoot host pfx.location identity disk.root = .committed stale)
    (alone : remove = true ∨ disk.backup = none) :
    Idle host pfx (actionResult (.completeCommit stale remove) disk) := by
  obtain ⟨h, _⟩ | ⟨reason, h⟩ | ⟨ino, dev, es, found, h⟩ := classifyRoot_cases committed
  · cases h
  · cases h
  obtain ⟨data, manifest⟩ := validatedManifest_file (classifyEntries_committed.mp h).1
  have backup : (if remove then none else disk.backup) = none := by
    rcases alone with rfl | alone
    · rfl
    · rw [alone, ite_self]
  cases stale with
  | false =>
    have root : (actionResult (.completeCommit false remove) disk).root = disk.root := by
      simp only [actionResult, found]
    rw [idle_of_data (root.trans found) (by rintro rfl; cases manifest) backup, root]
    exact classifyRoot_evidence committed rfl
  | true =>
    have root : (actionResult (.completeCommit true remove) disk).root =
        some (.dir ino dev (payload es)) := by
      simp only [actionResult, found]
    have kept : (payload es).find prefixMarker = some (.file data) := by
      rw [find_payload (by decide), manifest]
    have dropped : ∀ name ∈ rootEvidence, (payload es).find name = none := fun name hname =>
      Entries.find_filter_of_neg (k := fun n => !rootEvidence.contains n) (by simpa using hname)
    rw [idle_of_data root (by intro h; rw [h] at kept; cases kept) backup, root,
      rootHoldsTransactionEvidence_dir]
    exact ⟨dropped _ (by decide), dropped _ (by decide), dropped _ (by decide)⟩

/-- **One-shot recovery**, one action at a time. -/
theorem idle_result_iff {a : Assessment} (ha : assess host pfx disk = .ok a) :
    Idle host pfx (a.result disk) ↔ OneShot host pfx disk := by
  obtain ⟨root, backup, removed, _, planned, evidence⟩ := assess_ok ha
  have judged := assess_judged ha
  have rootIs : pfx.rootClass host disk = a.rootState := root.symm
  have backupIs : pfx.backupClass host disk = a.backupState := backup.symm
  have chosen := plan_action planned
  -- An empty backup is only removed where it counts as absent.
  have cleanedRoot : (a.cleaned disk).root = disk.root := by unfold Assessment.cleaned; split <;> rfl
  have cleanedClass : pfx.rootClass host (a.cleaned disk) = a.rootState := by
    rw [← rootIs, ManagedPrefix.rootClass, cleanedRoot]
    rfl
  have cleanedLegacy : ∀ identity root backup,
      legacyRestorable host pfx (a.cleaned disk) identity root backup =
        legacyRestorable host pfx disk identity root backup := by
    intro identity root backup
    unfold Assessment.cleaned
    split <;> rfl
  have cleanedSame : a.backupState ≠ .absent → a.cleaned disk = disk := by
    intro present
    unfold Assessment.cleaned
    rw [if_neg]
    intro empty
    rw [removed, decide_eq_true_eq] at empty
    exact present (by rw [backup, empty]; rfl)
  unfold Assessment.result
  generalize a.action = action at planned chosen evidence
  cases action with
  | none =>
    obtain ⟨absent, settled, _, _, several⟩ := chosen
    refine iff_of_true (idle_iff.mpr ⟨judged.absent absent, ?_, fun name single => ?_⟩) ?_
    · rw [actionResult, cleanedRoot]
      exact evidence rfl
    · rw [actionResult, cleanedLegacy, cleanedRoot, cleanedClass] at single
      rw [absent] at several
      exact several (legacyRestorable_singleton single).1 name single
    · refine ⟨fun h => ?_, fun name single => ?_, fun h => ?_⟩
      · rw [backupIs, absent] at h
        cases h
      · rw [rootIs, backupIs] at single
        exact absurd single (several (legacyRestorable_singleton single).1 name)
      · rw [rootIs] at h
        exact absurd h settled
  | restoreBackup =>
    obtain ⟨restorable, unfinished⟩ := chosen
    have class' := (judged.backup (.inl restorable)).trans restorable
    rw [cleanedSame (by rw [restorable]; simp)] at class' ⊢
    rw [oneShot_of_restorable (backupIs.trans restorable)
      (by rw [rootIs]; exact unfinished.imp id fun h => by rw [h]; trivial)]
    exact idle_of_restored class' rfl rfl
  | discardPartialAndRestore =>
    obtain ⟨restorable, provisioning⟩ := chosen
    have class' := (judged.backup (.inl restorable)).trans restorable
    rw [cleanedSame (by rw [restorable]; simp)] at class' ⊢
    rw [oneShot_of_restorable (backupIs.trans restorable)
      (.inr (by rw [rootIs, provisioning]; trivial))]
    exact idle_of_restored class' rfl rfl
  | discardPartial =>
    obtain ⟨absent, unfinished⟩ := chosen
    rw [oneShot_of_unfinished (backupIs.trans absent) (by rw [rootIs]; exact unfinished), idle_iff]
    have vacated : pfx.rootClass host (actionResult .discardPartial (a.cleaned disk)) = .absent := rfl
    rw [vacated]
    refine ⟨fun h name single => h.2.2 name ?_, fun hidden =>
      ⟨judged.absent absent, rfl, fun name single => hidden name ?_⟩⟩
    · exact (cleanedLegacy _ _ _).trans single
    · exact (cleanedLegacy _ _ _).symm.trans single
  | completeCommit stale remove =>
    obtain ⟨committed, removal, alone⟩ := chosen
    refine iff_of_true ?_ (oneShot_of_finished ?_ ?_)
    · rw [ManagedPrefix.rootClass, committed] at cleanedClass
      refine idle_of_completed cleanedClass ?_
      cases remove with
      | true => exact .inl rfl
      | false => exact .inr (judged.absent (alone rfl).1)
    · rw [rootIs, committed]
      exact id
    · rw [rootIs, committed]
      exact id
  | restoreLegacyBackup name =>
    obtain ⟨absent, vacant, single⟩ := chosen
    have restorable := mem_legacyRestorable (by rw [single]; exact List.mem_singleton_self name)
    rw [oneShot_of_legacy (by rw [rootIs, backupIs]; exact single)]
    have sameSiblings : (a.cleaned disk).siblings = disk.siblings := by
      unfold Assessment.cleaned
      split <;> rfl
    have sameDev : (a.cleaned disk).parentDev = disk.parentDev := by
      unfold Assessment.cleaned
      split <;> rfl
    rw [← sameDev] at restorable
    refine idle_of_restored restorable ?_ (judged.absent absent)
    rw [actionResult, sameSiblings]

end OneShot

/-- **When recovery is one-shot.** After a successful recovery the next one has nothing to do and
changes nothing, whoever runs it, exactly when the first one met no `OneShot` surprise. -/
theorem recovery_one_shot_iff {host : Host} {pfx : ManagedPrefix} {disk disk' : Disk} {active : Nat}
    {outcome : RecoveryOutcome}
    (first : (recover host pfx active).exec device disk = (.ok outcome, disk')) :
    (∀ active', ∃ outcome', (recover host pfx active').exec device disk' = (.ok outcome', disk') ∧
        outcome'.action = .none ∧ outcome'.removedEmptyBackup = false) ↔
      OneShot host pfx disk := by
  obtain ⟨a, ha, _, _, rfl⟩ := recover_ok_iff.mp first
  rw [← idle_result_iff ha]
  exact ⟨fun h => (idle_iff_recover active).mpr (h active),
    fun idle active' => (idle_iff_recover active').mp idle⟩

/-- An interrupted first setup, next to one reset backup of an older build. -/
def interruptedSetup : Disk :=
  { sampleDisk (some (.dir 1 0 [(provisioningMarker, .file (.text "P"))])) none with
    siblings := [(".shared.reset-backup-12-34", .dir 3 0 sampleCommitted)] }

/-- What its recovery leaves: neither a root nor a backup. -/
def discardedSetup : Disk := { interruptedSetup with root := none }

/-- The first recovery succeeds, and so does the second, which restores the old build's backup. -/
theorem second_recovery_acts :
    (∃ outcome, (recover sampleHost samplePrefix 0).exec device interruptedSetup =
        (.ok outcome, discardedSetup)) ∧
      (∃ outcome disk', (recover sampleHost samplePrefix 0).exec device discardedSetup =
          (.ok outcome, disk') ∧
        outcome.action = .restoreLegacyBackup ".shared.reset-backup-12-34") ∧
      ¬ ∃ outcome, (recover sampleHost samplePrefix 0).exec device discardedSetup =
          (.ok outcome, discardedSetup) ∧ outcome.action = .none := by
  refine ⟨⟨_, rfl⟩, ⟨_, _, rfl, rfl⟩, ?_⟩
  rintro ⟨outcome, he, none⟩
  cases he

theorem recovery_one_shot_interruptedSetup :
    (∀ active', ∃ outcome', (recover sampleHost samplePrefix active').exec device discardedSetup =
        (.ok outcome', discardedSetup) ∧
        outcome'.action = .none ∧ outcome'.removedEmptyBackup = false) ↔
      OneShot sampleHost samplePrefix interruptedSetup :=
  have first : (recover sampleHost samplePrefix 0).exec device interruptedSetup =
      (.ok _, discardedSetup) := rfl
  recovery_one_shot_iff first

end RoLauncher.Prefix
