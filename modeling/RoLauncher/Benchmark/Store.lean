import RoLauncher.Tables.Table
import RoLauncher.Game.Registry
import Mathlib.Data.Rat.Defs

/-!
# The benchmark store (`runtime/benchmark_store.rs`)

One file a run, named after the run's id. Every operation holds the store's
lock, reads the record, checks its state and writes it back.

Run ids and client ids are UUIDs, and with timestamps and digests they hold no
path, so the redaction of a record before it is written does not reach them. A
write fails before the file is replaced or behind it (`Fate`); a read of a file
that is there succeeds.
-/

namespace RoLauncher.Benchmark

open Tables Game

/-- Nanoseconds since the epoch; what is written is parsed back to the same. -/
abbrev Timestamp := Int

inductive BenchmarkRecordState where
  | attached
  | capturing
  | captureFinished
  | samplesImported
  | invalid
  deriving DecidableEq, Repr

inductive BenchmarkArm where
  | a
  | b
  deriving DecidableEq, Repr

inductive BenchmarkVisualCheck where
  | pending
  | passed
  | failed
  | skipped
  deriving DecidableEq, Repr

inductive BenchmarkInvalidReason where
  | processGone
  | planChanged
  | warmupTooShort
  | durationMismatch
  | clockJumpOrPause
  | insufficientSamples
  | linkedOutcomeNotUsable
  | corruptRecord
  deriving DecidableEq, Repr

structure BenchmarkSpec where
  sceneId : String
  captureSeconds : UInt32
  deriving DecidableEq

structure BenchmarkSamples where
  sourceSha256 : String
  sampleCount : UInt32
  frametimeMs : List ℚ
  monotonicNs : Option (List UInt64)
  deriving DecidableEq

/-- What the operations read and write of a `RuntimeBenchmarkRunV1`. -/
structure RuntimeBenchmarkRun where
  runId : String
  recordState : BenchmarkRecordState
  invalidReason : Option BenchmarkInvalidReason
  attachedAt : Timestamp
  captureStartedAt : Option Timestamp
  captureFinishedAt : Option Timestamp
  clientId : String
  arm : BenchmarkArm
  spec : BenchmarkSpec
  planId : String
  graphicsProfile : String
  game : Option ProcessIdentity
  samples : Option BenchmarkSamples
  visualCheck : BenchmarkVisualCheck
  linkedOutcomeKind : Option String

structure ParsedCsvSamples where
  frametimeMs : List ℚ
  monotonicNs : Option (List UInt64)
  sourceSha256 : String

structure BenchmarkRunSummary where
  runId : String
  recordState : String
  attachedAt : Timestamp
  arm : String
  sceneId : String
  planId : String
  graphicsProfile : String
  visualCheck : String
  sampleCount : Option UInt32
  invalidReason : Option String

def recordStateLabel : BenchmarkRecordState → String
  | .attached => "attached"
  | .capturing => "capturing"
  | .captureFinished => "capture-finished"
  | .samplesImported => "samples-imported"
  | .invalid => "invalid"

def armLabel : BenchmarkArm → String
  | .a => "a"
  | .b => "b"

def visualCheckLabel : BenchmarkVisualCheck → String
  | .pending => "pending"
  | .passed => "passed"
  | .failed => "failed"
  | .skipped => "skipped"

def invalidReasonLabel : BenchmarkInvalidReason → String
  | .processGone => "process-gone"
  | .planChanged => "plan-changed"
  | .warmupTooShort => "warmup-too-short"
  | .durationMismatch => "duration-mismatch"
  | .clockJumpOrPause => "clock-jump-or-pause"
  | .insufficientSamples => "insufficient-samples"
  | .linkedOutcomeNotUsable => "linked-outcome-not-usable"
  | .corruptRecord => "corrupt-record"

/-- What the store gets from elsewhere. -/
structure Host where
  /-- `runtime_benchmark_enabled`. -/
  enabled : Bool
  /-- `Uuid::parse_str` succeeds. -/
  isUuid : String → Bool
  /-- `redact_sensitive_values` with the home and the data directory. -/
  redact : String → String
  /-- The comparisons of `duration_within_tolerance`, which are on floating
  point numbers: milliseconds measured, seconds expected. -/
  withinTolerance : Int → UInt32 → Bool
  /-- The text of a read that failed. -/
  readError : String → String

abbrev Store := Table String RuntimeBenchmarkRun

/-- How a write ends: `failed` leaves the file as it was, `unsynced` replaces it
and fails to make that durable. -/
inductive Fate where
  | written
  | failed (error : String)
  | unsynced (error : String)

def MAX_RECORDS : Nat := 100

/-- Seconds. -/
def MAX_AGE : Nat := 90 * 24 * 3600

def minSamplesForCapture (captureSeconds : UInt32) : Nat := max 30 captureSeconds.toNat

namespace RuntimeBenchmarkRun

def identityMatchesRecord (record : RuntimeBenchmarkRun) (identity : ProcessIdentity) : Bool :=
  record.game.any (· == identity)

def invalidate (record : RuntimeBenchmarkRun) (reason : BenchmarkInvalidReason) :
    RuntimeBenchmarkRun := { record with recordState := .invalid, invalidReason := some reason }

/-- `Attached | Capturing`. -/
def isActive (record : RuntimeBenchmarkRun) : Bool :=
  record.recordState = .attached ∨ record.recordState = .capturing

/-- `CaptureFinished | SamplesImported`. -/
def isCaptured (record : RuntimeBenchmarkRun) : Bool :=
  record.recordState = .captureFinished ∨ record.recordState = .samplesImported

def summaryFromRecord (record : RuntimeBenchmarkRun) : BenchmarkRunSummary where
  runId := record.runId
  recordState := recordStateLabel record.recordState
  attachedAt := record.attachedAt
  arm := armLabel record.arm
  sceneId := record.spec.sceneId
  planId := record.planId
  graphicsProfile := record.graphicsProfile
  visualCheck := visualCheckLabel record.visualCheck
  sampleCount := record.samples.map (·.sampleCount)
  invalidReason := record.invalidReason.map invalidReasonLabel

end RuntimeBenchmarkRun

open RuntimeBenchmarkRun

/-! ## Records on disk -/

def redactBenchmarkForDisk (host : Host) (record : RuntimeBenchmarkRun) : RuntimeBenchmarkRun :=
  { record with
    spec := { record.spec with sceneId := host.redact record.spec.sceneId }
    planId := host.redact record.planId
    graphicsProfile := host.redact record.graphicsProfile
    linkedOutcomeKind := record.linkedOutcomeKind.map host.redact }

/-- `read_record` at the path of a run. -/
def readRecord (host : Host) (runId : String) (store : Store) :
    Except String RuntimeBenchmarkRun :=
  if host.isUuid runId then
    match store.lookup runId with
    | some record => .ok record
    | none => .error (host.readError runId)
  else .error "invalid-run-id"

def writeRecord (host : Host) (fate : Fate) (record : RuntimeBenchmarkRun) (store : Store) :
    Except String Unit × Store :=
  if host.isUuid record.runId then
    match fate with
    | .written => (.ok (), store.insert record.runId (redactBenchmarkForDisk host record))
    | .failed error => (.error error, store)
    | .unsynced error =>
      (.error error, store.insert record.runId (redactBenchmarkForDisk host record))
  else (.error "invalid-run-id", store)

/-- How most operations end: the record is written and summarized. -/
def writeAndSummarize (host : Host) (fate : Fate) (record : RuntimeBenchmarkRun) (store : Store) :
    Except String BenchmarkRunSummary × Store :=
  match writeRecord host fate record store with
  | (.ok (), store) => (.ok record.summaryFromRecord, store)
  | (.error error, store) => (.error error, store)

/-! ## The operations -/

/-- Whether the process of a record is alive when it is looked at. -/
def benchmarkProcessIsAlive (alive : String → ProcessIdentity → Bool)
    (record : RuntimeBenchmarkRun) : Bool := record.game.any (alive record.runId)

/-- `client_has_active_capture`, file by file; the fates are those of its writes. -/
def clientHasActiveCapture (host : Host) (alive : String → ProcessIdentity → Bool)
    (clientId : String) : List String → List Fate → Store → Except String Bool × Store
  | [], _, store => (.ok false, store)
  | file :: files, fates, store =>
    match store.lookup file with
    | none => clientHasActiveCapture host alive clientId files fates store
    | some record =>
      if record.clientId = clientId ∧ record.isActive then
        if benchmarkProcessIsAlive alive record then (.ok true, store)
        else
          match writeRecord host (fates.headD .written) (record.invalidate .processGone) store with
          | (.ok (), store) => clientHasActiveCapture host alive clientId files fates.tail store
          | (.error error, store) => (.error error, store)
      else clientHasActiveCapture host alive clientId files fates store

/-- `prune`: first the records over the age, then the oldest over the number. -/
def prune (now : Nat) (keepId : String) (store : Store) : Store :=
  let old := store.entries.filter fun entry =>
    entry.2.runId ≠ keepId ∧ MAX_AGE < now - (max 0 (entry.2.attachedAt / 1000000000)).toNat
  let store := (old.map Sigma.fst).foldl (fun store file => store.erase file) store
  if store.entries.length ≤ MAX_RECORDS then store
  else
    let sorted := store.entries.mergeSort fun left right =>
      left.2.attachedAt < right.2.attachedAt ∨
        left.2.attachedAt = right.2.attachedAt ∧ left.2.runId ≤ right.2.runId
    let excess := (sorted.take (store.entries.length - MAX_RECORDS)).filter fun entry =>
      entry.2.runId ≠ keepId
    (excess.map Sigma.fst).foldl (fun store file => store.erase file) store

def BAD_OUTCOMES : List String := ["startupFailed", "startupTimeout", "crashConfirmed"]

def linkedOutcomeUnusable (kind : String) : Bool := BAD_OUTCOMES.contains kind

def buildInvalidAtAttach (linkedOutcome : Option String) : Option BenchmarkInvalidReason :=
  (linkedOutcome.filter linkedOutcomeUnusable).map fun _ => .linkedOutcomeNotUsable

/-- The record `start_runtime_benchmark_run` attaches. -/
def startRun (runId : String) (attachedAt : Timestamp) (clientId : String) (arm : BenchmarkArm)
    (spec : BenchmarkSpec) (planId graphicsProfile : String) (game : ProcessIdentity)
    (linkedOutcome : Option String) : RuntimeBenchmarkRun where
  runId
  recordState := if (buildInvalidAtAttach linkedOutcome).isSome then .invalid else .attached
  invalidReason := buildInvalidAtAttach linkedOutcome
  attachedAt
  captureStartedAt := none
  captureFinishedAt := none
  clientId
  arm
  spec
  planId
  graphicsProfile
  game := some game
  samples := none
  visualCheck := .pending
  linkedOutcomeKind := linkedOutcome

def attachBenchmarkRun (host : Host) (alive : String → ProcessIdentity → Bool) (fates : List Fate)
    (fate : Fate) (now : Nat) (record : RuntimeBenchmarkRun) (store : Store) :
    Except String BenchmarkRunSummary × Store :=
  if host.enabled then
    match clientHasActiveCapture host alive record.clientId store.keys fates store with
    | (.error error, store) => (.error error, store)
    | (.ok true, store) => (.error "client-capture-active", store)
    | (.ok false, store) =>
      match writeRecord host fate record store with
      | (.error error, store) => (.error error, store)
      | (.ok (), store) => (.ok record.summaryFromRecord, prune now record.runId store)
  else (.error "runtime-benchmark-disabled", store)

def beginBenchmarkCapture (host : Host) (fate : Fate) (now : Timestamp) (runId : String)
    (identity : ProcessIdentity) (resolvedPlanId : String) (warmupSeconds : UInt32)
    (processAgeSecs : Option ℚ) (store : Store) : Except String BenchmarkRunSummary × Store :=
  if host.enabled then
    match readRecord host runId store with
    | .error error => (.error error, store)
    | .ok record =>
      if record.recordState ≠ .attached then (.error "illegal-state-transition", store)
      else if ¬ record.identityMatchesRecord identity then
        writeAndSummarize host fate (record.invalidate .processGone) store
      else if record.planId ≠ resolvedPlanId then
        writeAndSummarize host fate (record.invalidate .planChanged) store
      else
        match processAgeSecs with
        | none => (.error "process-age-unavailable", store)
        | some age =>
          if age < warmupSeconds.toNat then
            writeAndSummarize host fate (record.invalidate .warmupTooShort) store
          else
            writeAndSummarize host fate
              { record with recordState := .capturing, captureStartedAt := some now } store
  else (.error "runtime-benchmark-disabled", store)

/-- `duration_within_tolerance`; a start that was never recorded does not parse. -/
def durationWithinTolerance (host : Host) (started : Option Timestamp) (finished : Timestamp)
    (expectedSeconds : UInt32) : Except String Bool :=
  match started with
  | none => .error "invalid-timestamp"
  | some started => .ok (host.withinTolerance ((finished - started).tdiv 1000000) expectedSeconds)

def finishBenchmarkCapture (host : Host) (fate : Fate) (now : Timestamp) (runId : String)
    (identity : ProcessIdentity) (store : Store) : Except String BenchmarkRunSummary × Store :=
  if host.enabled then
    match readRecord host runId store with
    | .error error => (.error error, store)
    | .ok record =>
      if record.recordState ≠ .capturing then (.error "illegal-state-transition", store)
      else if ¬ record.identityMatchesRecord identity then
        writeAndSummarize host fate (record.invalidate .processGone) store
      else
        let record := { record with captureFinishedAt := some now }
        match durationWithinTolerance host record.captureStartedAt now
            record.spec.captureSeconds with
        | .error error => (.error error, store)
        | .ok true =>
          writeAndSummarize host fate { record with recordState := .captureFinished } store
        | .ok false => writeAndSummarize host fate (record.invalidate .durationMismatch) store
  else (.error "runtime-benchmark-disabled", store)

/-- `import_benchmark_samples`; `parsed` is what `parse_imported_csv_v1` makes of the file. -/
def importBenchmarkSamples (host : Host) (fate : Fate) (runId : String)
    (parsed : Except String ParsedCsvSamples) (store : Store) :
    Except String BenchmarkRunSummary × Store :=
  if host.enabled then
    match readRecord host runId store with
    | .error error => (.error error, store)
    | .ok record =>
      if record.visualCheck ≠ .pending then (.error "samples-frozen", store)
      else if ¬ record.isCaptured then (.error "illegal-state-transition", store)
      else
        match parsed with
        | .error error =>
          if error = "csv-clock-not-monotonic" then
            writeAndSummarize host fate (record.invalidate .clockJumpOrPause) store
          else (.error error, store)
        | .ok parsed =>
          if parsed.frametimeMs.length < minSamplesForCapture record.spec.captureSeconds then
            writeAndSummarize host fate (record.invalidate .insufficientSamples) store
          else
            let samples : BenchmarkSamples :=
              { sourceSha256 := parsed.sourceSha256
                sampleCount := UInt32.ofNat parsed.frametimeMs.length
                frametimeMs := parsed.frametimeMs
                monotonicNs := parsed.monotonicNs }
            writeAndSummarize host fate
              { record with
                samples := some samples
                recordState := .samplesImported
                invalidReason := none } store
  else (.error "runtime-benchmark-disabled", store)

def setBenchmarkVisualCheck (host : Host) (fate : Fate) (runId : String)
    (status : BenchmarkVisualCheck) (store : Store) : Except String BenchmarkRunSummary × Store :=
  if host.enabled then
    match readRecord host runId store with
    | .error error => (.error error, store)
    | .ok record =>
      if ¬ record.isCaptured then (.error "illegal-state-transition", store)
      else writeAndSummarize host fate { record with visualCheck := status } store
  else (.error "runtime-benchmark-disabled", store)

end RoLauncher.Benchmark
