import RoLauncher.Benchmark.Store
import Mathlib.Logic.Relation

/-!
# The life of a benchmark run

`Change` says once what an operation can do to one record of the store; every
operation is a sequence of changes. From it follow the invariant of the store
(`Lifecycle`), that an invalid run stays invalid, and what a visual verdict
freezes: the samples stay as they are until the verdict is withdrawn.
-/

namespace RoLauncher.Benchmark

open Tables RuntimeBenchmarkRun

/-- The operations on the store, each with what it finds of the world outside:
how its writes end, the time, which processes are alive. -/
inductive Operation where
  | attach (alive : String → Game.ProcessIdentity → Bool) (fates : List Fate) (fate : Fate)
      (now : Nat) (runId : String) (attachedAt : Timestamp) (clientId : String)
      (arm : BenchmarkArm) (spec : BenchmarkSpec) (planId graphicsProfile : String)
      (game : Game.ProcessIdentity) (linkedOutcome : Option String)
  | begin (fate : Fate) (now : Timestamp) (runId : String) (identity : Game.ProcessIdentity)
      (resolvedPlanId : String) (warmupSeconds : UInt32) (processAgeSecs : Option ℚ)
  | finish (fate : Fate) (now : Timestamp) (runId : String) (identity : Game.ProcessIdentity)
  | importSamples (fate : Fate) (runId : String) (parsed : Except String ParsedCsvSamples)
  | setVisualCheck (fate : Fate) (runId : String) (status : BenchmarkVisualCheck)
  | prune (now : Nat) (keepId : String)

namespace Operation

variable (host : Host)

def next : Operation → Store → Store
  | attach alive fates fate now runId attachedAt clientId arm spec planId graphicsProfile game
      linkedOutcome, store =>
    (attachBenchmarkRun host alive fates fate now (startRun runId attachedAt clientId arm spec
      planId graphicsProfile game linkedOutcome) store).2
  | begin fate now runId identity resolvedPlanId warmupSeconds processAgeSecs, store =>
    (beginBenchmarkCapture host fate now runId identity resolvedPlanId warmupSeconds
      processAgeSecs store).2
  | finish fate now runId identity, store =>
    (finishBenchmarkCapture host fate now runId identity store).2
  | importSamples fate runId parsed, store => (importBenchmarkSamples host fate runId parsed store).2
  | setVisualCheck fate runId status, store =>
    (setBenchmarkVisualCheck host fate runId status store).2
  | prune now keepId, store => Benchmark.prune now keepId store

/-- The run id an operation makes up: `new_benchmark_run_id` gives a new one every time. -/
def issues : Operation → List String
  | attach _ _ _ _ runId .. => [runId]
  | _ => []

/-- The operation puts the verdict on a run back to pending. -/
def withdraws (runId : String) : Operation → Prop
  | setVisualCheck _ id .pending => id = runId
  | _ => False

end Operation

/-- The run ids that were made up so far, and the store. -/
structure History where
  issued : List String
  store : Store

def History.empty : History := ⟨[], ∅⟩

variable {host : Host}

/-- One operation among the allowed ones. -/
inductive Step (host : Host) (allowed : Operation → Prop) : History → History → Prop
  | mk {h : History} (operation : Operation) : allowed operation →
      (∀ id ∈ operation.issues, id ∉ h.issued) →
      Step host allowed h ⟨operation.issues ++ h.issued, operation.next host h.store⟩

abbrev Run (host : Host) (allowed : Operation → Prop) : History → History → Prop :=
  Relation.ReflTransGen (Step host allowed)

/-! ## What an operation can do -/

/-- One change of the record of run `id`. -/
inductive Update (host : Host) (operation : Operation) (id : String) :
    RuntimeBenchmarkRun → RuntimeBenchmarkRun → Prop
  | invalidated {record : RuntimeBenchmarkRun} (reason : BenchmarkInvalidReason)
      (finished : Option Timestamp) :
      Update host operation id record
        ({ record with captureFinishedAt := finished }.invalidate reason)
  | started {record : RuntimeBenchmarkRun} (now : Timestamp) : record.recordState = .attached →
      Update host operation id record
        { record with recordState := .capturing, captureStartedAt := some now }
  | finished {record : RuntimeBenchmarkRun} {started : Timestamp} (now : Timestamp) :
      record.recordState = .capturing → record.captureStartedAt = some started →
      host.withinTolerance ((now - started).tdiv 1000000) record.spec.captureSeconds = true →
      Update host operation id record
        { record with captureFinishedAt := some now, recordState := .captureFinished }
  | imported {record : RuntimeBenchmarkRun} (samples : BenchmarkSamples) :
      record.visualCheck = .pending → record.isCaptured = true →
      minSamplesForCapture record.spec.captureSeconds ≤ samples.frametimeMs.length →
      Update host operation id record
        { record with samples := some samples, recordState := .samplesImported, invalidReason := none }
  | judged {record : RuntimeBenchmarkRun} (status : BenchmarkVisualCheck) :
      record.isCaptured = true → (status = .pending → operation.withdraws id) →
      Update host operation id record { record with visualCheck := status }

/-- One change of the store. -/
inductive Change (host : Host) (operation : Operation) (store : Store) : Store → Prop
  | updated {id : String} {record record' : RuntimeBenchmarkRun} :
      store.lookup id = some record → Update host operation id record record' →
      Change host operation store (store.insert id (redactBenchmarkForDisk host record'))
  | attached {record : RuntimeBenchmarkRun} : record.runId ∈ operation.issues →
      (record.invalidReason.isSome ↔ record.recordState = .invalid) → record.isCaptured = false →
      (∀ id other, store.lookup id = some other → other.clientId = record.clientId →
        other.isActive = false) →
      Change host operation store
        (store.insert record.runId (redactBenchmarkForDisk host record))
  | removed (id : String) : Change host operation store (store.erase id)

abbrev Changes (host : Host) (operation : Operation) : Store → Store → Prop :=
  Relation.ReflTransGen (Change host operation)

section Redaction

variable (record : RuntimeBenchmarkRun)

@[simp] theorem redact_runId : (redactBenchmarkForDisk host record).runId = record.runId := rfl
@[simp] theorem redact_recordState :
    (redactBenchmarkForDisk host record).recordState = record.recordState := rfl
@[simp] theorem redact_invalidReason :
    (redactBenchmarkForDisk host record).invalidReason = record.invalidReason := rfl
@[simp] theorem redact_clientId :
    (redactBenchmarkForDisk host record).clientId = record.clientId := rfl
@[simp] theorem redact_samples :
    (redactBenchmarkForDisk host record).samples = record.samples := rfl
@[simp] theorem redact_visualCheck :
    (redactBenchmarkForDisk host record).visualCheck = record.visualCheck := rfl
@[simp] theorem redact_captureSeconds :
    (redactBenchmarkForDisk host record).spec.captureSeconds = record.spec.captureSeconds := rfl
@[simp] theorem redact_captureStartedAt :
    (redactBenchmarkForDisk host record).captureStartedAt = record.captureStartedAt := rfl
@[simp] theorem redact_captureFinishedAt :
    (redactBenchmarkForDisk host record).captureFinishedAt = record.captureFinishedAt := rfl
@[simp] theorem redact_isActive :
    (redactBenchmarkForDisk host record).isActive = record.isActive := rfl

end Redaction

/-- Every file holds the record of the run it is named after. -/
def Named (store : Store) : Prop := ∀ id record, store.lookup id = some record → record.runId = id

theorem Update.runId {operation : Operation} {id : String} {record record' : RuntimeBenchmarkRun}
    (update : Update host operation id record record') : record'.runId = record.runId := by
  cases update <;> rfl

theorem Change.named {operation : Operation} {store store' : Store}
    (change : Change host operation store store') (h : Named store) : Named store' := by
  cases change with
  | @updated id record record' here update =>
    intro id' found at'
    rw [Table.lookup_insert_of] at at'
    split at at'
    next same =>
      cases at'
      rw [redact_runId, update.runId, h id record here, same]
    next => exact h id' found at'
  | attached =>
    intro id' found at'
    rw [Table.lookup_insert_of] at at'
    split at at'
    next same =>
      cases at'
      exact same.symm
    next => exact h id' found at'
  | removed id =>
    intro id' found at'
    rw [Table.lookup_erase_of] at at'
    split at at'
    next => cases at'
    next => exact h id' found at'

theorem readRecord_ok {runId : String} {store : Store} {record : RuntimeBenchmarkRun}
    (h : readRecord host runId store = .ok record) : store.lookup runId = some record := by
  rw [readRecord] at h
  split at h
  next =>
    split at h
    next found =>
      cases h
      exact found
    next => cases h
  next => cases h

/-- A write replaces the record, or nothing. -/
theorem writeRecord_cases (fate : Fate) (record : RuntimeBenchmarkRun) (store : Store) :
    (writeRecord host fate record store).2 = store ∨
      (writeRecord host fate record store).2 =
        store.insert record.runId (redactBenchmarkForDisk host record) := by
  unfold writeRecord
  split
  next =>
    cases fate with
    | written => exact .inr rfl
    | failed => exact .inl rfl
    | unsynced => exact .inr rfl
  next => exact .inl rfl

theorem writeRecord_ok {fate : Fate} {record : RuntimeBenchmarkRun} {store store' : Store}
    (h : writeRecord host fate record store = (.ok (), store')) :
    store' = store.insert record.runId (redactBenchmarkForDisk host record) := by
  unfold writeRecord at h
  split at h
  next =>
    cases fate with
    | written => exact (Prod.mk.inj h).2.symm
    | failed => cases h
    | unsynced => cases h
  next => cases h

theorem writeRecord_changes {operation : Operation} (fate : Fate) {id : String}
    {record record' : RuntimeBenchmarkRun} {store : Store} (named : Named store)
    (here : store.lookup id = some record) (update : Update host operation id record record') :
    Changes host operation store (writeRecord host fate record' store).2 := by
  rcases @writeRecord_cases host fate record' store with same | written
  · rw [same]
  · rw [written, update.runId, named id record here]
    exact .single (.updated here update)

theorem writeAndSummarize_changes {operation : Operation} {fate : Fate} {id : String}
    {record record' : RuntimeBenchmarkRun} {store : Store} (named : Named store)
    (here : store.lookup id = some record) (update : Update host operation id record record') :
    Changes host operation store (writeAndSummarize host fate record' store).2 := by
  have write : (writeAndSummarize host fate record' store).2 =
      (writeRecord host fate record' store).2 := by
    rw [writeAndSummarize]
    split <;> simp only [*]
  rw [write]
  exact writeRecord_changes fate named here update

theorem begin_changes {operation : Operation} (fate : Fate) (now : Timestamp) (runId : String)
    (identity : Game.ProcessIdentity) (resolvedPlanId : String) (warmupSeconds : UInt32)
    (processAgeSecs : Option ℚ) {store : Store} (named : Named store) :
    Changes host operation store (beginBenchmarkCapture host fate now runId identity
      resolvedPlanId warmupSeconds processAgeSecs store).2 := by
  unfold beginBenchmarkCapture
  split
  next =>
    split
    next => exact .refl
    next record read =>
      have here := readRecord_ok read
      split
      next => exact .refl
      next attached =>
        split
        next => exact writeAndSummarize_changes named here (.invalidated _ record.captureFinishedAt)
        split
        next => exact writeAndSummarize_changes named here (.invalidated _ record.captureFinishedAt)
        split
        next => exact .refl
        split
        next => exact writeAndSummarize_changes named here (.invalidated _ record.captureFinishedAt)
        next => exact writeAndSummarize_changes named here (.started now (not_not.mp attached))
  next => exact .refl

theorem finish_changes {operation : Operation} (fate : Fate) (now : Timestamp) (runId : String)
    (identity : Game.ProcessIdentity) {store : Store} (named : Named store) :
    Changes host operation store (finishBenchmarkCapture host fate now runId identity store).2 := by
  unfold finishBenchmarkCapture
  split
  next =>
    split
    next => exact .refl
    next record read =>
      have here := readRecord_ok read
      split
      next => exact .refl
      next capturing =>
        split
        next => exact writeAndSummarize_changes named here (.invalidated _ record.captureFinishedAt)
        next =>
          dsimp only
          split
          next => exact .refl
          next good =>
            unfold durationWithinTolerance at good
            split at good
            next => cases good
            next started known =>
              exact writeAndSummarize_changes named here
                (.finished now (not_not.mp capturing) known (Except.ok.inj good))
          next => exact writeAndSummarize_changes named here (.invalidated _ (some now))
  next => exact .refl

theorem importSamples_changes {operation : Operation} (fate : Fate) (runId : String)
    (parsed : Except String ParsedCsvSamples) {store : Store} (named : Named store) :
    Changes host operation store (importBenchmarkSamples host fate runId parsed store).2 := by
  unfold importBenchmarkSamples
  split
  next =>
    split
    next => exact .refl
    next record read =>
      have here := readRecord_ok read
      split
      next => exact .refl
      next pending =>
        split
        next => exact .refl
        next captured =>
          split
          next =>
            split
            next =>
              exact writeAndSummarize_changes named here (.invalidated _ record.captureFinishedAt)
            next => exact .refl
          next parsed =>
            split
            next =>
              exact writeAndSummarize_changes named here (.invalidated _ record.captureFinishedAt)
            next enough =>
              exact writeAndSummarize_changes named here (.imported _ (not_not.mp pending)
                (by simpa using captured) (Nat.not_lt.mp enough))
  next => exact .refl

theorem setVisualCheck_changes (fate : Fate) (runId : String) (status : BenchmarkVisualCheck)
    {store : Store} (named : Named store) :
    Changes host (.setVisualCheck fate runId status) store
      (setBenchmarkVisualCheck host fate runId status store).2 := by
  unfold setBenchmarkVisualCheck
  split
  next =>
    split
    next => exact .refl
    next record read =>
      split
      next => exact .refl
      next captured =>
        refine writeAndSummarize_changes named (readRecord_ok read)
          (.judged status (by simpa using captured) fun withdrawn => ?_)
        subst withdrawn
        rfl
  next => exact .refl

theorem erased_changes {operation : Operation} (files : List String) (store : Store) :
    Changes host operation store (files.foldl (fun store file => store.erase file) store) := by
  induction files generalizing store with
  | nil => exact .refl
  | cons file files ih => exact .head (.removed file) (ih _)

theorem prune_changes {operation : Operation} (now : Nat) (keepId : String) (store : Store) :
    Changes host operation store (prune now keepId store) := by
  unfold prune
  dsimp only
  split
  next => exact erased_changes _ _
  next => exact (erased_changes _ _).trans (erased_changes _ _)

theorem Changes.named {operation : Operation} {store store' : Store}
    (changes : Changes host operation store store') (h : Named store) : Named store' := by
  induction changes with
  | refl => exact h
  | tail _ change ih => exact change.named ih

/-- The scan only invalidates, and when it finds nothing the files it went
through hold no active run of the client. -/
theorem clientHasActiveCapture_changes {operation : Operation}
    (alive : String → Game.ProcessIdentity → Bool) (clientId : String) (files : List String)
    (fates : List Fate) {store : Store} (named : Named store) :
    Changes host operation store
      (clientHasActiveCapture host alive clientId files fates store).2 ∧
    ((clientHasActiveCapture host alive clientId files fates store).1 = .ok false →
      ∀ id record, (clientHasActiveCapture host alive clientId files fates store).2.lookup id =
        some record → record.clientId = clientId → record.isActive = true →
        id ∉ files ∧ store.lookup id = some record) := by
  induction files generalizing fates store with
  | nil => exact ⟨.refl, fun _ id record here _ _ => ⟨List.not_mem_nil, here⟩⟩
  | cons file files ih =>
    unfold clientHasActiveCapture
    split
    next absent =>
      obtain ⟨changes, clear⟩ := ih fates named
      refine ⟨changes, fun none id record here client active => ?_⟩
      obtain ⟨later, before⟩ := clear none id record here client active
      refine ⟨List.not_mem_cons_of_ne_of_not_mem (fun same => ?_) later, before⟩
      rw [same, absent] at before
      cases before
    next record here =>
      split
      next wanted =>
        split
        next => exact ⟨.refl, nofun⟩
        next =>
          have update : Update host operation file record (record.invalidate .processGone) :=
            .invalidated .processGone record.captureFinishedAt
          have changes := writeRecord_changes (fates.headD .written) named here update
          split
          next store' written =>
            rw [written] at changes
            obtain ⟨more, clear⟩ := ih fates.tail (changes.named named)
            refine ⟨changes.trans more, fun none id other found client active => ?_⟩
            obtain ⟨later, before⟩ := clear none id other found client active
            rw [writeRecord_ok written, update.runId, named file record here,
              Table.lookup_insert_of] at before
            split at before
            next =>
              cases before
              exact absurd active (by simp [isActive, invalidate])
            next ne => exact ⟨List.not_mem_cons_of_ne_of_not_mem ne later, before⟩
          next error store' failed =>
            rw [failed] at changes
            exact ⟨changes, nofun⟩
      next unwanted =>
        obtain ⟨changes, clear⟩ := ih fates named
        refine ⟨changes, fun none id other found client active => ?_⟩
        obtain ⟨later, before⟩ := clear none id other found client active
        refine ⟨List.not_mem_cons_of_ne_of_not_mem (fun same => ?_) later, before⟩
        rw [same, here] at before
        cases before
        exact unwanted ⟨client, active⟩

theorem attach_changes {operation : Operation} (alive : String → Game.ProcessIdentity → Bool)
    (fates : List Fate) (fate : Fate) (now : Nat) {record : RuntimeBenchmarkRun}
    (issued : record.runId ∈ operation.issues)
    (reason : record.invalidReason.isSome ↔ record.recordState = .invalid)
    (fresh : record.isCaptured = false) {store : Store} (named : Named store) :
    Changes host operation store
      (attachBenchmarkRun host alive fates fate now record store).2 := by
  obtain ⟨changes, clear⟩ := @clientHasActiveCapture_changes host operation
    alive record.clientId store.keys fates _ named
  unfold attachBenchmarkRun
  split
  next =>
    split
    next scan =>
      rw [scan] at changes
      exact changes
    next scan =>
      rw [scan] at changes
      exact changes
    next scanned scan =>
      rw [scan] at changes clear
      have write : Changes host operation scanned (writeRecord host fate record scanned).2 := by
        rcases @writeRecord_cases host fate record scanned with same | written
        · rw [same]
        · rw [written]
          refine .single (.attached issued reason fresh fun id other found client => ?_)
          refine Bool.eq_false_iff.mpr fun active => ?_
          -- An active run of the client would be in a file that the scan went through.
          obtain ⟨unseen, before⟩ := clear rfl id other found client active
          have listed : id ∈ store.keys :=
            AList.mem_keys.mp (AList.lookup_isSome.mp (by rw [before]; rfl))
          exact unseen listed
      split
      next written =>
        rw [written] at write
        exact changes.trans write
      next written =>
        rw [written] at write
        exact (changes.trans write).trans (prune_changes now record.runId _)
  next => exact .refl

theorem startRun_reason (linkedOutcome : Option String) :
    (buildInvalidAtAttach linkedOutcome).isSome ↔
      (if (buildInvalidAtAttach linkedOutcome).isSome then BenchmarkRecordState.invalid
        else .attached) = .invalid := by
  split
  next some => exact ⟨fun _ => rfl, fun _ => some⟩
  next none => exact ⟨fun some => absurd some none, nofun⟩

/-- **One operation** is a sequence of changes. -/
theorem next_changes (operation : Operation) {store : Store} (named : Named store) :
    Changes host operation store (operation.next host store) := by
  cases operation with
  | attach alive fates fate now runId attachedAt clientId arm spec planId graphicsProfile game
      linkedOutcome =>
    refine attach_changes alive fates fate now (List.mem_singleton.mpr rfl)
      (startRun_reason linkedOutcome) ?_ named
    rw [startRun]
    cases (buildInvalidAtAttach linkedOutcome).isSome <;> rfl
  | begin => exact begin_changes _ _ _ _ _ _ _ named
  | finish => exact finish_changes _ _ _ _ named
  | importSamples => exact importSamples_changes _ _ _ named
  | setVisualCheck => exact setVisualCheck_changes _ _ _ named
  | prune => exact prune_changes _ _ _

/-! ## The invariant -/

/-- What holds of every record. -/
structure Sound (host : Host) (record : RuntimeBenchmarkRun) : Prop where
  reason : record.invalidReason.isSome ↔ record.recordState = .invalid
  duration : record.isCaptured = true → ∃ started finished,
    record.captureStartedAt = some started ∧ record.captureFinishedAt = some finished ∧
      host.withinTolerance ((finished - started).tdiv 1000000) record.spec.captureSeconds = true
  samples : record.recordState = .samplesImported → ∃ samples, record.samples = some samples ∧
    minSamplesForCapture record.spec.captureSeconds ≤ samples.frametimeMs.length

theorem Sound.redact {record : RuntimeBenchmarkRun} (h : Sound host record) :
    Sound host (redactBenchmarkForDisk host record) := ⟨h.reason, h.duration, h.samples⟩

theorem Sound.unreasoned {record : RuntimeBenchmarkRun} (h : Sound host record)
    (valid : record.recordState ≠ .invalid) : record.invalidReason.isSome = false :=
  Bool.eq_false_iff.mpr fun some => valid (h.reason.mp some)

theorem isCaptured_valid {record : RuntimeBenchmarkRun} (h : record.isCaptured = true) :
    record.recordState ≠ .invalid := by
  intro invalid
  rw [isCaptured, invalid] at h
  exact absurd h (by decide)

theorem Update.sound {operation : Operation} {id : String} {record record' : RuntimeBenchmarkRun}
    (update : Update host operation id record record') (h : Sound host record) :
    Sound host record' := by
  cases update with
  | invalidated => exact ⟨⟨fun _ => rfl, fun _ => rfl⟩, nofun, nofun⟩
  | started now attached =>
    refine ⟨?_, nofun, nofun⟩
    rw [h.unreasoned (by rw [attached]; exact nofun)]
    exact ⟨nofun, nofun⟩
  | finished now capturing known good =>
    refine ⟨?_, fun _ => ⟨_, now, known, rfl, good⟩, nofun⟩
    rw [h.unreasoned (by rw [capturing]; exact nofun)]
    exact ⟨nofun, nofun⟩
  | imported samples pending captured enough =>
    exact ⟨⟨nofun, nofun⟩, fun _ => h.duration captured, fun _ => ⟨samples, rfl, enough⟩⟩
  | judged status captured =>
    exact ⟨h.reason, fun _ => h.duration captured, h.samples⟩

/-- Two active runs of one client. -/
def Clash (record record' : RuntimeBenchmarkRun) : Prop :=
  record.clientId = record'.clientId ∧ record.isActive = true ∧ record'.isActive = true

/-- What holds of every store that the operations lead to. -/
structure Lifecycle (host : Host) (store : Store) : Prop where
  named : Named store
  sound : ∀ id record, store.lookup id = some record → Sound host record
  active : Table.Apart Clash store

theorem lifecycle_empty : Lifecycle host ∅ where
  named _ _ here := by cases here
  sound _ _ here := by cases here
  active := Table.apart_empty

theorem Clash.symm (record record' : RuntimeBenchmarkRun) (h : Clash record record') :
    Clash record' record := ⟨h.1.symm, h.2.2, h.2.1⟩

theorem Update.active {operation : Operation} {id : String} {record record' : RuntimeBenchmarkRun}
    (update : Update host operation id record record') :
    record'.clientId = record.clientId ∧ (record'.isActive = true → record.isActive = true) := by
  cases update with
  | invalidated => exact ⟨rfl, nofun⟩
  | started now attached => exact ⟨rfl, fun _ => by simp [isActive, attached]⟩
  | finished => exact ⟨rfl, nofun⟩
  | imported => exact ⟨rfl, nofun⟩
  | judged => exact ⟨rfl, fun active => active⟩

theorem Change.lifecycle {operation : Operation} {store store' : Store}
    (change : Change host operation store store') (h : Lifecycle host store) :
    Lifecycle host store' := by
  refine ⟨change.named h.named, fun id found here => ?_, ?_⟩
  · cases change with
    | updated known update =>
      rw [Table.lookup_insert_of] at here
      split at here
      next =>
        cases here
        exact (update.sound (h.sound _ _ known)).redact
      next => exact h.sound id found here
    | @attached record issued reason fresh none =>
      rw [Table.lookup_insert_of] at here
      split at here
      next =>
        cases here
        have uncaptured : ¬ record.isCaptured = true := by rw [fresh]; exact Bool.false_ne_true
        refine Sound.redact ⟨reason, fun captured => absurd captured uncaptured, fun imported => ?_⟩
        exact absurd (by simp [isCaptured, imported]) uncaptured
      next => exact h.sound id found here
    | removed =>
      rw [Table.lookup_erase_of] at here
      split at here
      next => cases here
      next => exact h.sound id found here
  · cases change with
    | @updated id record record' known update =>
      refine h.active.insert Clash.symm fun id' other here ne clash => ?_
      obtain ⟨client, active⟩ := update.active
      exact ne (h.active id' id other record here known
        ⟨clash.1.trans client, clash.2.1, active clash.2.2⟩)
    | attached issued reason fresh none =>
      refine h.active.insert Clash.symm fun id other here _ clash => ?_
      obtain ⟨client, active, -⟩ := clash
      rw [none id other here client] at active
      exact Bool.false_ne_true active
    | removed id => exact h.active.erase id

/-! ## Runs -/

/-- A property of the record of a run that is there, as long as it is there. -/
def While (id : String) (P : RuntimeBenchmarkRun → Prop) (store : Store) : Prop :=
  ∀ record, store.lookup id = some record → P record

/-- What the updates of a run's record keep holds of it as long as it is there:
its id is not given out again. -/
theorem Change.while {operation : Operation} {store store' : Store}
    (change : Change host operation store store') {id : String}
    {P : RuntimeBenchmarkRun → Prop} (known : id ∉ operation.issues)
    (kept : ∀ record record', Update host operation id record record' → P record →
      P (redactBenchmarkForDisk host record')) (h : While id P store) : While id P store' := by
  intro found here
  cases change with
  | @updated id' record record' before update =>
    rw [Table.lookup_insert_of] at here
    split at here
    next same =>
      subst same
      cases here
      exact kept record record' update (h record before)
    next => exact h found here
  | @attached record issued =>
    rw [Table.lookup_insert_of] at here
    split at here
    next same => exact absurd (same ▸ issued) known
    next => exact h found here
  | removed id' =>
    rw [Table.lookup_erase_of] at here
    split at here
    next => cases here
    next => exact h found here

/-- The store is in order, and holds only runs whose ids were given out. -/
structure History.Good (host : Host) (history : History) : Prop where
  lifecycle : Lifecycle host history.store
  issued : ∀ id record, history.store.lookup id = some record → id ∈ history.issued

theorem Change.issued {operation : Operation} {store store' : Store}
    (change : Change host operation store store') {issued : List String}
    (h : ∀ id record, store.lookup id = some record → id ∈ operation.issues ++ issued) :
    ∀ id record, store'.lookup id = some record → id ∈ operation.issues ++ issued := by
  intro id found here
  cases change with
  | updated before update =>
    rw [Table.lookup_insert_of] at here
    split at here
    next same => exact same ▸ h _ _ before
    next => exact h id found here
  | attached made =>
    rw [Table.lookup_insert_of] at here
    split at here
    next same => exact same ▸ List.mem_append_left _ made
    next => exact h id found here
  | removed =>
    rw [Table.lookup_erase_of] at here
    split at here
    next => cases here
    next => exact h id found here

section Runs

variable {operation : Operation} {store store' : Store}

theorem Changes.lifecycle (changes : Changes host operation store store')
    (h : Lifecycle host store) : Lifecycle host store' := by
  induction changes with
  | refl => exact h
  | tail _ change ih => exact change.lifecycle ih

theorem Changes.issued (changes : Changes host operation store store') {issued : List String}
    (h : ∀ id record, store.lookup id = some record → id ∈ operation.issues ++ issued) :
    ∀ id record, store'.lookup id = some record → id ∈ operation.issues ++ issued := by
  induction changes with
  | refl => exact h
  | tail _ change ih => exact change.issued ih

theorem Changes.while (changes : Changes host operation store store') {id : String}
    {P : RuntimeBenchmarkRun → Prop} (known : id ∉ operation.issues)
    (kept : ∀ record record', Update host operation id record record' → P record →
      P (redactBenchmarkForDisk host record')) (h : While id P store) : While id P store' := by
  induction changes with
  | refl => exact h
  | tail _ change ih => exact change.while known kept ih

variable {allowed : Operation → Prop} {history history' : History}

theorem good_of_run (run : Run host allowed history history') (h : history.Good host) :
    history'.Good host := by
  induction run with
  | refl => exact h
  | tail _ step ih =>
    obtain ⟨operation, _, _⟩ := step
    have changes := @next_changes host operation _ ih.lifecycle.named
    exact ⟨Changes.lifecycle changes ih.lifecycle, Changes.issued changes
      fun id record here => List.mem_append_right _ (ih.issued id record here)⟩

/-- **Whole runs** keep what every update of the run's record keeps. -/
theorem while_of_run {id : String} {P : RuntimeBenchmarkRun → Prop}
    (run : Run host allowed history history')
    (kept : ∀ operation, allowed operation → ∀ record record',
      Update host operation id record record' → P record → P (redactBenchmarkForDisk host record'))
    (good : history.Good host) (known : id ∈ history.issued) (h : While id P history.store) :
    While id P history'.store := by
  have both : id ∈ history'.issued ∧ While id P history'.store := by
    induction run with
    | refl => exact ⟨known, h⟩
    | tail before step ih =>
      obtain ⟨operation, may, fresh⟩ := step
      have changes := @next_changes host operation _ (good_of_run before good).lifecycle.named
      exact ⟨List.mem_append_right _ ih.1,
        Changes.while changes (fun made => fresh id made ih.1) (kept operation may) ih.2⟩
  exact both.2

end Runs

theorem good_empty : History.empty.Good host := ⟨lifecycle_empty, fun _ _ here => by cases here⟩

/-- An invalid run is not made valid. -/
theorem Update.invalid {operation : Operation} {id : String} {record record' : RuntimeBenchmarkRun}
    (update : Update host operation id record record') (h : record.recordState = .invalid) :
    record'.recordState = .invalid := by
  cases update with
  | invalidated => rfl
  | started now attached => cases h.symm.trans attached
  | finished now capturing => cases h.symm.trans capturing
  | imported samples pending captured => exact absurd h (isCaptured_valid captured)
  | judged => exact h

/-- Samples under a verdict stay, unless the verdict is withdrawn. -/
theorem Update.frozen {operation : Operation} {id : String} {record record' : RuntimeBenchmarkRun}
    {samples : Option BenchmarkSamples} (update : Update host operation id record record')
    (stands : ¬ operation.withdraws id)
    (h : record.visualCheck ≠ .pending ∧ record.samples = samples) :
    record'.visualCheck ≠ .pending ∧ record'.samples = samples := by
  cases update with
  | invalidated | started | finished => exact h
  | imported samples pending => exact absurd pending h.1
  | judged status captured withdrawn => exact ⟨fun pending => stands (withdrawn pending), h.2⟩

/-- An import into a run is refused, and the store is left as it is. -/
def Refused (host : Host) (fate : Fate) (id : String) (parsed : Except String ParsedCsvSamples)
    (store : Store) : Prop :=
  ∃ error, importBenchmarkSamples host fate id parsed store = (.error error, store) ∧
    (host.enabled = true → host.isUuid id = true → error = "samples-frozen")

/-- An import under a verdict is refused. -/
theorem import_frozen {store : Store} {id : String} {record : RuntimeBenchmarkRun}
    (here : store.lookup id = some record) (verdict : record.visualCheck ≠ .pending) (fate : Fate)
    (parsed : Except String ParsedCsvSamples) : Refused host fate id parsed store := by
  unfold Refused importBenchmarkSamples
  split
  next enabled =>
    cases read : readRecord host id store with
    | error error =>
      refine ⟨error, rfl, fun _ uuid => ?_⟩
      rw [readRecord, if_pos uuid, here] at read
      cases read
    | ok found =>
      cases here.symm.trans (readRecord_ok read)
      exact ⟨_, if_pos verdict, fun _ _ => rfl⟩
  next disabled => exact ⟨_, rfl, fun enabled => absurd enabled disabled⟩

/-- **The life of a run**, in every store the operations lead to: the invariant
holds, an invalid run stays invalid, and the samples a verdict was given for
stay while the verdict is not withdrawn: an import is refused. -/
theorem benchmark_lifecycle {history : History} (run : Run host (fun _ => True) .empty history) :
    Lifecycle host history.store ∧
    (∀ id record history', history.store.lookup id = some record →
      record.recordState = .invalid → Run host (fun _ => True) history history' →
        While id (fun record' => record'.recordState = .invalid) history'.store) ∧
    (∀ id record history', history.store.lookup id = some record →
      record.visualCheck ≠ .pending →
      Run host (fun operation => ¬ operation.withdraws id) history history' →
        While id (fun record' => record'.samples = record.samples) history'.store) ∧
    ∀ id record, history.store.lookup id = some record → record.visualCheck ≠ .pending →
      ∀ fate parsed, Refused host fate id parsed history.store := by
  have good := good_of_run run good_empty
  refine ⟨good.lifecycle, fun id record history' here invalid later => ?_,
    fun id record history' here verdict later => ?_,
    fun id record here verdict fate parsed => import_frozen here verdict fate parsed⟩
  · refine while_of_run later (fun operation _ record record' update => update.invalid) good
      (good.issued id record here) fun found at' => ?_
    cases here.symm.trans at'
    exact invalid
  · have frozen := while_of_run (P := fun record' =>
        record'.visualCheck ≠ .pending ∧ record'.samples = record.samples) later
      (fun operation stands record record' update => update.frozen stands) good
      (good.issued id record here) fun found at' => by
        cases here.symm.trans at'
        exact ⟨verdict, rfl⟩
    exact fun found at' => (frozen found at').2

/-! ## A verdict that is withdrawn -/

section Withdrawn

/-- The history after one more operation. -/
def History.after (host : Host) (operation : Operation) (history : History) : History :=
  ⟨operation.issues ++ history.issued, operation.next host history.store⟩

theorem step_after (history : History) {operation : Operation} (none : operation.issues = []) :
    Step host (fun _ => True) history (history.after host operation) :=
  .mk operation trivial fun id made => by
    rw [none] at made
    cases made

def sampleRun : String := "0b0e7a52-6f3c-4a6e-9d52-0c1f5d1c2a11"

def sampleHost : Host where
  enabled := true
  isUuid id := id == sampleRun
  redact := id
  withinTolerance milliseconds seconds :=
    9 * seconds.toNat * 100 ≤ milliseconds ∧ milliseconds ≤ 11 * seconds.toNat * 100
  readError id := "no se pudo leer run-" ++ id ++ ".json"

def sampleIdentity : Game.ProcessIdentity := ⟨42, 7⟩

def sampleCsv (frametime : ℚ) : ParsedCsvSamples := ⟨List.replicate 30 frametime, none, "digest"⟩

def sampleSamples (frametime : ℚ) : BenchmarkSamples :=
  ⟨"digest", 30, List.replicate 30 frametime, none⟩

/-- A run of thirty seconds with its samples and a verdict. -/
def judgedHistory : History :=
  ((((History.empty.after sampleHost
    (.attach (fun _ _ => true) [] .written 0 sampleRun 0 "client" .a ⟨"prontera", 30⟩ "plan"
      "dxvk" sampleIdentity none)).after sampleHost
    (.begin .written 10000000000 sampleRun sampleIdentity "plan" 5 (some 10))).after sampleHost
    (.finish .written 40000000000 sampleRun sampleIdentity)).after sampleHost
    (.importSamples .written sampleRun (.ok (sampleCsv 16)))).after sampleHost
    (.setVisualCheck .written sampleRun .passed)

/-- The verdict is put back to pending, and other samples are imported. -/
def replacedHistory : History :=
  (judgedHistory.after sampleHost (.setVisualCheck .written sampleRun .pending)).after sampleHost
    (.importSamples .written sampleRun (.ok (sampleCsv 8)))

theorem run_judgedHistory : Run sampleHost (fun _ => True) .empty judgedHistory :=
  .tail (.tail (.tail (.tail (.single (.mk _ trivial fun _ _ => List.not_mem_nil))
    (step_after _ rfl)) (step_after _ rfl)) (step_after _ rfl)) (step_after _ rfl)

theorem judgedHistory_record : ∃ record, judgedHistory.store.lookup sampleRun = some record ∧
    record.visualCheck = .passed ∧ record.samples = some (sampleSamples 16) := ⟨_, rfl, rfl, rfl⟩

theorem benchmark_lifecycle_judgedHistory :
    Lifecycle sampleHost judgedHistory.store ∧
    (∀ history', Run sampleHost (fun operation => ¬ operation.withdraws sampleRun) judgedHistory
      history' →
        While sampleRun (fun record => record.samples = some (sampleSamples 16)) history'.store) ∧
    Refused sampleHost .written sampleRun (.ok (sampleCsv 8)) judgedHistory.store := by
  obtain ⟨lifecycle, -, frozen, refused⟩ := benchmark_lifecycle run_judgedHistory
  obtain ⟨record, here, verdict, samples⟩ := judgedHistory_record
  have stands : record.visualCheck ≠ .pending := by rw [verdict]; exact nofun
  refine ⟨lifecycle, fun history' later => ?_, refused sampleRun record here stands _ _⟩
  rw [← samples]
  exact frozen sampleRun record history' here stands later

theorem withdrawn_verdict_replaced :
    Run sampleHost (fun _ => True) .empty judgedHistory ∧
    Run sampleHost (fun _ => True) judgedHistory replacedHistory ∧
    ∃ record record', judgedHistory.store.lookup sampleRun = some record ∧
      replacedHistory.store.lookup sampleRun = some record' ∧
      record.visualCheck = .passed ∧ record'.samples ≠ record.samples := by
  refine ⟨run_judgedHistory, .tail (.single (step_after _ rfl)) (step_after _ rfl), ?_⟩
  obtain ⟨record, here, verdict, samples⟩ := judgedHistory_record
  have other : ∃ record', replacedHistory.store.lookup sampleRun = some record' ∧
      record'.samples = some (sampleSamples 8) := ⟨_, rfl, rfl⟩
  obtain ⟨record', here', samples'⟩ := other
  refine ⟨record, record', here, here', verdict, ?_⟩
  rw [samples, samples']
  exact fun same => absurd (congrArg BenchmarkSamples.frametimeMs (Option.some.inj same)) (by decide)

end Withdrawn

end RoLauncher.Benchmark
