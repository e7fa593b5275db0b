import RoLauncher.Prefix.OneShot

/-!
# The read-only gate (`transaction_gate`)

Binding resolution asks the gate whether it may leave a root: two readings of
the same disk, the gate's verdict and what recovery would do. `GateAgrees` is
what the one promises about the other, verdict by verdict.

The gate calls a backup without entries no evidence at all; the classifier of
recovery looks at the backup's device first and refuses such a backup when it
is on another one. `gate_agrees_iff` says that this is the only disk on which
the two differ: what else it names (`Unhindered`) is a prefix in use, or a
filesystem that refuses recovery's own calls.
-/

namespace RoLauncher.Prefix

open RoLauncher.Files RoLauncher.Crash

/-! ## The gate -/

/-- Read-only verdict on one managed isolated root of a server. -/
inductive TransactionGate where
  | noTransactionEvidence
  | committedValid
  | pendingTransaction
  | ambiguousTransaction (reason : String)
  deriving DecidableEq, Repr

/-- Resolution must stay on this root instead of choosing another candidate. -/
def TransactionGate.blocksResolution : TransactionGate → Bool
  | .pendingTransaction | .ambiguousTransaction _ => true
  | _ => false

/-- `reset_backup_path`. -/
def resetBackupPath (root : Path) : Except String Path :=
  match root.getLast? with
  | none => .error "La ruta del entorno no tiene directorio padre"
  | some name => .ok (root.dropLast ++ ["." ++ name ++ "." ++ resetBackupSuffix])

/-- The entry at `B` is more than an empty directory. -/
def backupHoldsData : Option Node → Bool
  | none => false
  | some (.dir _ _ es) => Entries.names es ≠ []
  | some _ => true

/-- Fixed-name evidence written by this protocol: a backup, or a marker in the root. -/
def fixedResiduePresent (root : Path) (disk : Disk) : Bool :=
  ((resetBackupPath root).toOption.isSome && disk.backup.isSome) ||
    rootHoldsTransactionEvidence disk.root

/-- Any evidence that recovery would act on. Timestamped backups only matter while the root holds
no data. -/
def transactionResiduePresent (pfx : ManagedPrefix) (disk : Disk) : Bool :=
  fixedResiduePresent pfx.root disk ||
    (!rootHoldsData disk.root && !(legacyResetBackups pfx disk).isEmpty)
where
  rootHoldsData : Option Node → Bool
    | none => false
    | some (.dir _ _ es) => Entries.names es ≠ []
    | some _ => true

/-- An isolated managed root of a server. -/
def isolatedLocation (serverId : String) (root : Path) : PrefixLocation :=
  { path := root, scope := .isolated, managed := true, serverId := some serverId }

def transactionGate (host : Host) (serverId : String) (root : Path) (disk : Disk) :
    TransactionGate :=
  let backupData := (resetBackupPath root).toOption.isSome && backupHoldsData disk.backup
  if !backupData && !rootHoldsTransactionEvidence disk.root then .noTransactionEvidence
  else
    let location := isolatedLocation serverId root
    match ManagedPrefix.at host location none with
    | .error reason => .ambiguousTransaction reason
    | .ok pfx =>
      let identity := pfx.identity host disk.root
      match classifyRoot host location identity disk.root with
      | .committed _ =>
        match classifyBackup host disk.parentDev location identity disk.backup with
        | .foreign reason => .ambiguousTransaction reason
        | _ => .committedValid
      | .absent | .empty | .pendingMarker | .provisioning | .commitPending => .pendingTransaction
      | .legacyValid =>
        .ambiguousTransaction "el entorno actual es legacy y además existe un respaldo"
      | .foreign reason => .ambiguousTransaction reason

/-! ## What the gate reads -/

section Gate

variable {host : Host} {serverId : String} {root : Path} {pfx : ManagedPrefix} {disk : Disk}

theorem backupHoldsData_false {node : Option Node} :
    backupHoldsData node = false ↔ node = none ∨ ∃ ino dev, node = some (.dir ino dev []) := by
  rcases node with _ | (_ | ⟨ino, dev, es⟩ | _ | _) <;>
    simp [backupHoldsData, Entries.names_eq_nil]

theorem backupClass_ne_empty : pfx.backupClass host disk ≠ .empty := by
  unfold ManagedPrefix.backupClass plannedBackup
  split
  · simp
  next other => exact other

/-- A backup with data is one that recovery plans with. -/
theorem backupClass_of_data (h : backupHoldsData disk.backup = true) :
    pfx.backupClass host disk ≠ .absent := by
  unfold ManagedPrefix.backupClass plannedBackup
  split
  next empty =>
    obtain ⟨ino, found⟩ := classifyBackup_empty.mp empty
    rw [backupHoldsData_false.mpr (.inr ⟨_, _, found⟩)] at h
    cases h
  next =>
    intro absent
    rw [backupHoldsData_false.mpr (.inl (classifyBackup_absent.mp absent))] at h
    cases h

/-- A backup without data counts as absent, on the parent's device. -/
theorem backupClass_of_noData (h : backupHoldsData disk.backup = false)
    (here : ∀ ino dev, disk.backup = some (.dir ino dev []) → dev = disk.parentDev) :
    pfx.backupClass host disk = .absent := by
  unfold ManagedPrefix.backupClass plannedBackup
  obtain none | ⟨ino, dev, found⟩ := backupHoldsData_false.mp h
  · rw [classifyBackup_absent.mpr none]
    rfl
  · rw [if_pos (classifyBackup_empty.mpr ⟨ino, by rw [found, here ino dev found]⟩)]

theorem resetBackupPath_at {location : PrefixLocation} {desired : Option String}
    (hat : ManagedPrefix.at host location desired = .ok pfx) :
    (resetBackupPath location.path).toOption.isSome = true := by
  unfold ManagedPrefix.at at hat
  unfold resetBackupPath
  cases hl : location.path.getLast? with
  | none => rw [hl] at hat; cases hat
  | some name => rfl

/-- A root without residue needs no recovery: callers that ask only for residue skip nothing. -/
theorem idle_of_noResidue {location : PrefixLocation} {desired : Option String}
    (hat : ManagedPrefix.at host location desired = .ok pfx)
    (h : transactionResiduePresent pfx disk = false) : Idle host pfx disk := by
  have named : (resetBackupPath pfx.root).toOption.isSome = true := by
    rw [ManagedPrefix.root, ManagedPrefix.at_location hat]
    exact resetBackupPath_at hat
  unfold transactionResiduePresent fixedResiduePresent at h
  rw [named, Bool.true_and, Bool.or_eq_false_iff, Bool.or_eq_false_iff] at h
  obtain ⟨⟨backup, evidence⟩, legacy⟩ := h
  refine idle_iff.mpr ⟨Option.not_isSome_iff_eq_none.mp (by simp [backup]), evidence, ?_⟩
  intro name single
  have vacant : (classifyRoot host pfx.location (pfx.identity host disk.root) disk.root).Vacant :=
    (legacyRestorable_singleton single).1
  have noData : transactionResiduePresent.rootHoldsData disk.root = false := by
    obtain none | ⟨ino, dev, found⟩ := classifyRoot_vacant.mp vacant
    · rw [none]
      rfl
    · rw [found]
      simp [transactionResiduePresent.rootHoldsData, Entries.names]
  rw [noData, Bool.not_false, Bool.true_and, Bool.not_eq_false', List.isEmpty_iff] at legacy
  unfold legacyRestorable at single
  rw [legacy, List.filter_nil, ite_self] at single
  cases single

/-- The verdict as a function of the two classes. -/
theorem transactionGate_at
    (hat : ManagedPrefix.at host (isolatedLocation serverId root) none = .ok pfx) :
    transactionGate host serverId root disk =
      if !backupHoldsData disk.backup && !rootHoldsTransactionEvidence disk.root then
        .noTransactionEvidence
      else
        match pfx.rootClass host disk with
        | .committed _ =>
          match pfx.backupClass host disk with
          | .foreign reason => .ambiguousTransaction reason
          | _ => .committedValid
        | .absent | .empty | .pendingMarker | .provisioning | .commitPending => .pendingTransaction
        | .legacyValid =>
          .ambiguousTransaction "el entorno actual es legacy y además existe un respaldo"
        | .foreign reason => .ambiguousTransaction reason := by
  have named : (resetBackupPath root).toOption.isSome = true := resetBackupPath_at hat
  unfold transactionGate ManagedPrefix.rootClass ManagedPrefix.backupClass plannedBackup
  dsimp only
  rw [named, hat, ManagedPrefix.at_location hat, Bool.true_and]
  dsimp only
  split
  · rfl
  · split
    · generalize classifyBackup host disk.parentDev _ _ disk.backup = state
      cases state <;> rfl
    all_goals rfl

theorem transactionGate_noEvidence
    (hat : ManagedPrefix.at host (isolatedLocation serverId root) none = .ok pfx) :
    transactionGate host serverId root disk = .noTransactionEvidence ↔
      backupHoldsData disk.backup = false ∧ rootHoldsTransactionEvidence disk.root = false := by
  rw [transactionGate_at hat]
  split
  next none => simpa using none
  next seen =>
    refine iff_of_false ?_ (by simpa using seen)
    split
    · split <;> simp
    all_goals simp

theorem transactionGate_committedValid
    (hat : ManagedPrefix.at host (isolatedLocation serverId root) none = .ok pfx) :
    transactionGate host serverId root disk = .committedValid ↔
      (backupHoldsData disk.backup = true ∨ rootHoldsTransactionEvidence disk.root = true) ∧
        (∃ stale, pfx.rootClass host disk = .committed stale) ∧
        ∀ reason, pfx.backupClass host disk ≠ .foreign reason := by
  rw [transactionGate_at hat]
  split
  next none =>
    have none' : backupHoldsData disk.backup = false ∧
        rootHoldsTransactionEvidence disk.root = false := by simpa using none
    simp [none']
  next seen =>
    have seen' : backupHoldsData disk.backup = true ∨
        rootHoldsTransactionEvidence disk.root = true := by
      by_contra h
      simp_all
    simp only [seen', true_and]
    split
    next stale committed =>
      split
      next reason foreign => simp [foreign]
      next other => exact ⟨fun _ => ⟨⟨stale, committed⟩, other⟩, fun _ => rfl⟩
    all_goals simp_all

end Gate

/-! ## Agreement -/

/-- The payload of the root is what it was. -/
def PayloadKept (node node' : Option Node) : Prop :=
  ∃ ino dev es es', node = some (.dir ino dev es) ∧ node' = some (.dir ino dev es') ∧
    payload es' = payload es

/-- What each verdict promises about recovery on the same disk. -/
structure GateAgrees (host : Host) (serverId : String) (root : Path) (pfx : ManagedPrefix)
    (active : Nat) (disk : Disk) : Prop where
  ambiguous : ∀ reason, transactionGate host serverId root disk = .ambiguousTransaction reason →
    ∃ message, (recover host pfx active).exec device disk = (.error message, disk)
  pending : transactionGate host serverId root disk = .pendingTransaction →
    ∀ outcome t, (recover host pfx active).exec device disk = (.ok outcome, t) →
      outcome.action ≠ .none
  committed : transactionGate host serverId root disk = .committedValid →
    ∃ outcome t, (recover host pfx active).exec device disk = (.ok outcome, t) ∧
      PayloadKept disk.root t.root
  noEvidence : transactionGate host serverId root disk = .noTransactionEvidence →
    ∃ outcome t, (recover host pfx active).exec device disk = (.ok outcome, t) ∧
      (outcome.action = .none ∨ ∃ name, outcome.action = .restoreLegacyBackup name)

/-- The verdicts hold: an empty backup is on the parent's device, and whenever recovery has
something to do, no process uses the prefix and the filesystem lets it. -/
structure Unhindered (host : Host) (pfx : ManagedPrefix) (active : Nat) (disk : Disk) : Prop where
  /-- Only a root with a marker of its own may stand next to an empty backup elsewhere. -/
  sameDevice : rootHoldsTransactionEvidence disk.root = false →
    ∀ ino dev, disk.backup = some (.dir ino dev []) → dev = disk.parentDev
  emptyBackup : rootHoldsTransactionEvidence disk.root = false →
    ∀ ino dev, disk.backup = some (.dir ino dev []) → active = 0
  legacy : ∀ name, legacyRestorable host pfx disk (pfx.identity host disk.root)
      (pfx.rootClass host disk) (pfx.backupClass host disk) = [name] →
    active = 0 ∧ rootMounted disk = false
  cleanup : ∀ stale, pfx.rootClass host disk = .committed stale →
    backupHoldsData disk.backup = true ∨ rootHoldsTransactionEvidence disk.root = true →
    (∀ reason, pfx.backupClass host disk ≠ .foreign reason) →
    active = 0 ∧ tmpIsDirectory disk = false

section Agreement

variable {host : Host} {serverId : String} {root : Path} {pfx : ManagedPrefix} {disk : Disk}
  {active : Nat}

/-- A refusal of the table, or of the evidence check behind it. -/
theorem assess_error_of_plan
    (h : ∀ action, plan (pfx.rootClass host disk) (pfx.backupClass host disk)
        (legacyRestorable host pfx disk (pfx.identity host disk.root) (pfx.rootClass host disk)
          (pfx.backupClass host disk)) = .ok action →
      action = .none ∧ rootHoldsTransactionEvidence disk.root = true) :
    ∃ message, assess host pfx disk = .error message := by
  cases ha : assess host pfx disk with
  | error message => exact ⟨message, rfl⟩
  | ok a =>
    obtain ⟨root, backup, _, _, planned, evidence⟩ := assess_ok ha
    rw [root, backup] at planned
    obtain ⟨none, held⟩ := h a.action planned
    rw [evidence none] at held
    cases held

/-- **Ambiguous.** Recovery refuses. -/
theorem recover_of_ambiguous
    (hat : ManagedPrefix.at host (isolatedLocation serverId root) none = .ok pfx)
    {reason : String}
    (h : transactionGate host serverId root disk = .ambiguousTransaction reason) :
    ∃ message, assess host pfx disk = .error message := by
  refine assess_error_of_plan fun action planned => ?_
  rw [transactionGate_at hat] at h
  split at h
  · cases h
  next seen =>
    have data : rootHoldsTransactionEvidence disk.root = false →
        pfx.backupClass host disk ≠ .absent := fun clean => by
      rw [clean] at seen
      exact backupClass_of_data (by simpa using seen)
    split at h
    next stale committed =>
      split at h
      next reason' foreign =>
        rw [committed, foreign] at planned
        cases planned
      next => cases h
    all_goals try cases h
    next legacy =>
      have clean := classifyRoot_evidence legacy rfl
      have present := data clean
      rw [legacy] at planned
      generalize pfx.backupClass host disk = state at planned present
      cases state <;> first | exact absurd rfl present | cases planned
    next foreign =>
      rw [foreign] at planned
      obtain ⟨none, absent⟩ := plan_foreign planned
      refine ⟨none, ?_⟩
      by_contra clean
      exact data (Bool.not_eq_true _ ▸ clean) absent

/-- **Pending.** Recovery never takes the disk for a finished one. -/
theorem recover_of_pending
    (hat : ManagedPrefix.at host (isolatedLocation serverId root) none = .ok pfx)
    (h : transactionGate host serverId root disk = .pendingTransaction) {a : Assessment}
    (ha : assess host pfx disk = .ok a) : a.action ≠ .none := by
  intro none
  obtain ⟨_, backup, _, _, planned, evidence⟩ := assess_ok ha
  rw [none] at planned
  have absent : pfx.backupClass host disk = .absent := backup.symm.trans (plan_action planned).1
  rw [transactionGate_at hat, evidence none] at h
  cases hd : backupHoldsData disk.backup with
  | true => exact backupClass_of_data hd absent
  | false =>
    rw [hd] at h
    cases h

/-- A committed root with evidence around it has its commit completed. -/
theorem plan_of_committed {stale : Bool} {legacy : List String}
    (committed : pfx.rootClass host disk = .committed stale)
    (evident : backupHoldsData disk.backup = true ∨
      rootHoldsTransactionEvidence disk.root = true)
    (owned : ∀ reason, pfx.backupClass host disk ≠ .foreign reason)
    (marked : rootHoldsTransactionEvidence disk.root = true → stale = true) :
    ∃ remove, plan (pfx.rootClass host disk) (pfx.backupClass host disk) legacy =
      .ok (.completeCommit stale remove) := by
  have absent : pfx.backupClass host disk = .absent → stale = true := fun absent =>
    marked (evident.resolve_left fun data => backupClass_of_data data absent)
  have nonempty : pfx.backupClass host disk ≠ .empty := backupClass_ne_empty
  rw [committed]
  generalize pfx.backupClass host disk = state at owned absent nonempty
  cases state with
  | absent =>
    rw [absent rfl]
    exact ⟨false, rfl⟩
  | empty => exact absurd rfl nonempty
  | restorable | removing => exact ⟨true, rfl⟩
  | foreign reason => exact absurd rfl (owned reason)

/-- **Committed.** Recovery only cleans up, when it may. -/
theorem recover_of_committed {stale : Bool} (committed : pfx.rootClass host disk = .committed stale)
    (evident : backupHoldsData disk.backup = true ∨
      rootHoldsTransactionEvidence disk.root = true)
    (owned : ∀ reason, pfx.backupClass host disk ≠ .foreign reason) :
    (∃ outcome t, (recover host pfx active).exec device disk = (.ok outcome, t) ∧
      PayloadKept disk.root t.root) ↔ active = 0 ∧ tmpIsDirectory disk = false := by
  have marked : rootHoldsTransactionEvidence disk.root = true → stale = true := by
    cases stale with
    | true => exact fun _ => rfl
    | false =>
      intro held
      rw [classifyRoot_evidence committed rfl] at held
      cases held
  obtain ⟨remove, planned⟩ := plan_of_committed committed evident owned marked
  obtain ⟨a, ha, action, _⟩ := assess_of_plan planned (by simp)
  have obstructed : a.action.obstructed disk = tmpIsDirectory disk := by
    rw [action]
    cases stale with
    | true => rfl
    | false =>
      by_contra directory
      have present : tmpIsDirectory disk = true := by
        cases hd : tmpIsDirectory disk with
        | true => rfl
        | false => exact absurd hd.symm directory
      refine absurd (marked ?_) (by simp)
      rw [rootHoldsTransactionEvidence, List.any_eq_true]
      refine ⟨provisioningMarkerTmp, by decide, ?_⟩
      obtain ⟨_, _, _, found⟩ := entryKind_eq_directory.mp (of_decide_eq_true present)
      rw [found]
      rfl
  have kept : PayloadKept disk.root (a.result disk).root := by
    obtain ⟨h, _⟩ | ⟨reason, h⟩ | ⟨ino, dev, es, found, h⟩ := classifyRoot_cases committed
    · cases h
    · cases h
    have same : (a.cleaned disk).root = disk.root := by unfold Assessment.cleaned; split <;> rfl
    cases stale with
    | true =>
      refine ⟨ino, dev, es, payload es, found, ?_, by simp [payload, List.filter_filter]⟩
      simp only [Assessment.result, actionResult, action, same, found]
    | false =>
      refine ⟨ino, dev, es, es, found, ?_, rfl⟩
      simp only [Assessment.result, actionResult, action, same, found]
  constructor
  · rintro ⟨outcome, t, he, _⟩
    obtain ⟨a', ha', idle | quiet, _⟩ := recover_ok_iff.mp he
    · rw [ha] at ha'
      cases ha'
      rw [action] at idle
      cases idle.1
    · rw [ha] at ha'
      cases ha'
      rwa [obstructed] at quiet
  · intro quiet
    rw [← obstructed] at quiet
    exact ⟨_, _, recover_ok_iff.mpr ⟨a, ha, .inr quiet, rfl, rfl⟩, kept⟩

/-- **No evidence.** At most one old backup is restored, when it may. -/
theorem recover_of_noEvidence (noData : backupHoldsData disk.backup = false)
    (clean : rootHoldsTransactionEvidence disk.root = false) :
    (∃ outcome t, (recover host pfx active).exec device disk = (.ok outcome, t) ∧
        (outcome.action = .none ∨ ∃ name, outcome.action = .restoreLegacyBackup name)) ↔
      (∀ ino dev, disk.backup = some (.dir ino dev []) → dev = disk.parentDev ∧ active = 0) ∧
        ∀ name, legacyRestorable host pfx disk (pfx.identity host disk.root)
            (pfx.rootClass host disk) (pfx.backupClass host disk) = [name] →
          active = 0 ∧ rootMounted disk = false := by
  by_cases here : ∀ ino dev, disk.backup = some (.dir ino dev []) → dev = disk.parentDev
  · have absent : pfx.backupClass host disk = .absent := backupClass_of_noData noData here
    have said : (pfx.rootClass host disk).evidence ≠ some true := fun said => by
      rw [classifyRoot_evidence rfl said] at clean
      cases clean
    by_cases single : ∃ name, legacyRestorable host pfx disk (pfx.identity host disk.root)
        (pfx.rootClass host disk) (pfx.backupClass host disk) = [name]
    · obtain ⟨name, single⟩ := single
      have planned : plan (pfx.rootClass host disk) (pfx.backupClass host disk) [name] =
          .ok (.restoreLegacyBackup name) := by
        have vacant := (legacyRestorable_singleton single).1
        rw [absent]
        generalize pfx.rootClass host disk = state at vacant
        cases state <;> first | exact vacant.elim | rfl
      obtain ⟨a, ha, action, _⟩ := assess_of_plan (by rw [single]; exact planned) (by simp)
      constructor
      · rintro ⟨outcome, t, he, _⟩
        obtain ⟨a', ha', quiet, _⟩ := recover_ok_iff.mp he
        rw [ha] at ha'
        cases ha'
        rw [action] at quiet
        have free : active = 0 ∧ rootMounted disk = false := quiet.resolve_left (by simp)
        exact ⟨fun ino dev found => ⟨here ino dev found, free.1⟩, fun _ _ => free⟩
      · intro free
        have quiet := free.2 name single
        refine ⟨_, _, recover_ok_iff.mpr ⟨a, ha, .inr ⟨quiet.1, ?_⟩, rfl, rfl⟩, .inr ⟨name, action⟩⟩
        rw [action]
        exact quiet.2
    · have several : ∀ name, legacyRestorable host pfx disk (pfx.identity host disk.root)
          (pfx.rootClass host disk) (pfx.backupClass host disk) ≠ [name] :=
        fun name h => single ⟨name, h⟩
      obtain ⟨a, ha, action, removed⟩ := assess_of_plan
        (by rw [absent] at several ⊢; exact plan_none_of said several) (fun _ => clean)
      constructor
      · rintro ⟨outcome, t, he, _⟩
        refine ⟨fun ino dev found => ⟨here ino dev found, ?_⟩, fun name h => absurd h (several name)⟩
        obtain ⟨a', ha', idle | quiet, _⟩ := recover_ok_iff.mp he
        · rw [ha] at ha'
          cases ha'
          have empty : classifyBackup host disk.parentDev pfx.location
              (pfx.identity host disk.root) disk.backup = .empty :=
            classifyBackup_empty.mpr ⟨ino, by rw [found, here ino dev found]⟩
          rw [removed, decide_eq_false_iff_not] at idle
          exact absurd empty idle.2
        · exact quiet.1
      · intro free
        refine ⟨_, _, recover_ok_iff.mpr ⟨a, ha, ?_, rfl, rfl⟩, .inl action⟩
        rw [action, removed, decide_eq_false_iff_not]
        by_cases empty : classifyBackup host disk.parentDev pfx.location
            (pfx.identity host disk.root) disk.backup = .empty
        · obtain ⟨ino, found⟩ := classifyBackup_empty.mp empty
          exact .inr ⟨(free.1 ino _ found).2, rfl⟩
        · exact .inl ⟨rfl, empty⟩
  · -- An empty directory on another device: no evidence for the gate, unverifiable for recovery.
    refine iff_of_false ?_ fun h => here fun ino dev found => (h.1 ino dev found).1
    push Not at here
    obtain ⟨ino, dev, found, elsewhere⟩ := here
    have foreign : pfx.backupClass host disk = .foreign "está en otro sistema de archivos" := by
      unfold ManagedPrefix.backupClass
      rw [found, classifyBackup_dir, if_pos elsewhere]
      rfl
    have refusal : ∃ message, assess host pfx disk = .error message :=
      assess_error_of_plan fun action planned => by
        rw [foreign] at planned
        cases hr : pfx.rootClass host disk <;> rw [hr] at planned <;> cases planned
    obtain ⟨message, refused⟩ := refusal
    rintro ⟨outcome, t, he, _⟩
    rw [recover_refused refused] at he
    cases he

end Agreement

/-- **When gate and recovery agree**: on every disk that is not in recovery's way, but for an empty
backup on another device. -/
theorem gate_agrees_iff {host : Host} {serverId : String} {root : Path} {pfx : ManagedPrefix}
    (hat : ManagedPrefix.at host (isolatedLocation serverId root) none = .ok pfx)
    (active : Nat) (disk : Disk) :
    GateAgrees host serverId root pfx active disk ↔ Unhindered host pfx active disk := by
  constructor
  · intro agrees
    have none := fun noData clean => (recover_of_noEvidence noData clean).mp
      (agrees.noEvidence ((transactionGate_noEvidence hat).mpr ⟨noData, clean⟩))
    refine ⟨fun clean ino dev found => ?_, fun clean ino dev found => ?_, fun name single => ?_,
      fun stale committed evident owned => ?_⟩
    · exact ((none (backupHoldsData_false.mpr (.inr ⟨_, _, found⟩)) clean).1 ino dev found).1
    · exact ((none (backupHoldsData_false.mpr (.inr ⟨_, _, found⟩)) clean).1 ino dev found).2
    · obtain ⟨vacant, absent⟩ := legacyRestorable_singleton single
      refine (none ?_ ?_).2 name single
      · by_contra data
        exact backupClass_of_data (Bool.not_eq_false _ ▸ data) absent
      · generalize hr : pfx.rootClass host disk = state at vacant
        cases state <;> first | exact vacant.elim | exact classifyRoot_evidence hr rfl
    · exact (recover_of_committed committed evident owned).mp
        (agrees.committed ((transactionGate_committedValid hat).mpr
          ⟨evident, ⟨stale, committed⟩, owned⟩))
  · intro free
    refine ⟨fun reason h => ?_, fun h outcome t he => ?_, fun h => ?_, fun h => ?_⟩
    · obtain ⟨message, refused⟩ := recover_of_ambiguous hat h
      exact ⟨message, recover_refused refused active⟩
    · obtain ⟨a, ha, _, rfl, _⟩ := recover_ok_iff.mp he
      exact recover_of_pending hat h ha
    · obtain ⟨evident, ⟨stale, committed⟩, owned⟩ := (transactionGate_committedValid hat).mp h
      exact (recover_of_committed committed evident owned).mpr
        (free.cleanup stale committed evident owned)
    · obtain ⟨noData, clean⟩ := (transactionGate_noEvidence hat).mp h
      exact (recover_of_noEvidence noData clean).mpr
        ⟨fun ino dev found => ⟨free.sameDevice clean ino dev found,
          free.emptyBackup clean ino dev found⟩, free.legacy⟩

/-- An isolated root that was never set up. -/
def isolatedPrefix : ManagedPrefix :=
  { location := isolatedLocation "server" ["data", "prefixes", "isolated", "server"]
    parent := ["data", "prefixes", "isolated"], name := "server", expected := none }

/-- Its backup is an empty directory of another device. -/
def mountedBackup : Disk := sampleDisk none (some (.dir 3 7 []))

theorem gate_disagrees_on_mounted_backup :
    transactionGate sampleHost "server" isolatedPrefix.root mountedBackup =
        .noTransactionEvidence ∧
      ∃ message, (recover sampleHost isolatedPrefix 0).exec device mountedBackup =
        (.error message, mountedBackup) := ⟨by decide, _, rfl⟩

theorem gate_agrees_iff_mounted_backup :
    GateAgrees sampleHost "server" isolatedPrefix.root isolatedPrefix 0 mountedBackup ↔
      Unhindered sampleHost isolatedPrefix 0 mountedBackup := gate_agrees_iff rfl 0 mountedBackup

end RoLauncher.Prefix
