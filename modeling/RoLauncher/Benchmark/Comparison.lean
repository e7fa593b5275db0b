import Mathlib.Algebra.Group.Nat.Defs
import Mathlib.Data.List.Dedup
import RoLauncher.Results.Except
import RoLauncher.Benchmark.Comparability

/-!
# The comparison of two arms (`compare_benchmark_runs`)

An arm is a list of runs. The frame times of the runs that are eligible are
put together, and the number of runs reported with them is the length of the
list. The two agree where the runs of an arm are alike in that either all of
them contribute frame times or none does (`restsOnSamples_iff`).

What is computed from the frame times is a parameter (`Floats`).
-/

namespace RoLauncher.Benchmark

open Results

structure FrametimeStats (F : Type) where
  p50Ms : F
  p95Ms : F
  p99Ms : F
  onePercentLowFps : F
  pointOnePercentLowFps : F
  deriving DecidableEq

/-- The floating point side of `compute_frametime_metrics`. -/
structure Floats (F : Type) where
  stats : List F → FrametimeStats F
  sub : F → F → F

structure FrametimeMetrics (F : Type) where
  stats : FrametimeStats F
  sampleCount : UInt32
  runCount : UInt32
  deriving DecidableEq

structure ArmMetricsIpc (F : Type) where
  arm : String
  attempts : UInt32
  captureSuccesses : UInt32
  planIds : List String
  frametime : Option (FrametimeMetrics F)
  deriving DecidableEq

structure ComparisonGatesIpc where
  visualCorrectLeft : Bool
  visualCorrectRight : Bool
  startupCleanLeft : Bool
  startupCleanRight : Bool
  frametimeAvailable : Bool
  passed : Bool
  deriving DecidableEq

structure BenchmarkComparisonIpc (F : Type) where
  comparability : ComparabilityIpc
  left : ArmMetricsIpc F
  right : ArmMetricsIpc F
  deltas : Option (FrametimeStats F)
  gates : ComparisonGatesIpc
  caveats : List String
  orderBiasUncontrolled : Bool
  usableForAutotune : Bool
  deriving DecidableEq

variable {F : Type}

abbrev Runs (F : Type) := List (RuntimeBenchmarkRunV1 F)

def isFrametimeEligible (run : RuntimeBenchmarkRunV1 F) : Bool :=
  run.recordState = .samplesImported && run.invalidReason.isNone &&
    run.visualCheck = .passed && run.samples.isSome

def collectFrametimes : Runs F → List F
  | [] => []
  | run :: rest =>
    if isFrametimeEligible run then
      match run.samples with
      | some samples => samples.frametimeMs ++ collectFrametimes rest
      | none => collectFrametimes rest
    else collectFrametimes rest

def computeFrametimeMetrics (floats : Floats F) (frametimeMs : List F) (runCount : UInt32) :
    Option (FrametimeMetrics F) :=
  if frametimeMs.isEmpty then none
  else some ⟨floats.stats frametimeMs, UInt32.ofNat frametimeMs.length, runCount⟩

def visualCorrectForArm (runs : Runs F) : Bool :=
  (runs.all fun run => run.visualCheck ≠ .failed) && runs.any fun run => run.visualCheck = .passed

def captureSucceeded (run : RuntimeBenchmarkRunV1 F) : Bool :=
  run.recordState = .samplesImported && run.invalidReason.isNone

def startupCleanForArm (runs : Runs F) : Bool :=
  if (runs.filter captureSucceeded).length ≠ runs.length then false
  else !runs.any fun run => run.linkedOutcomeKind.any (BAD_OUTCOMES.contains ·)

/-- What the loop over the runs in the order they were attached has seen. -/
structure OrderSeen where
  sawLeft : Bool
  sawRight : Bool
  leftBeforeRightDone : Bool
  rightBeforeLeftDone : Bool

def OrderSeen.see (order : OrderSeen) (isLeft : Bool) : OrderSeen :=
  if isLeft then
    { order with
      sawLeft := true
      rightBeforeLeftDone := order.rightBeforeLeftDone || order.sawRight }
  else
    { order with
      sawRight := true
      leftBeforeRightDone := order.leftBeforeRightDone || order.sawLeft }

def orderBiasUncontrolled (left right : Runs F) : Bool :=
  let combined := left.map (·, true) ++ right.map (·, false)
  let sorted := combined.insertionSort fun a b => a.1.attachedAt ≤ b.1.attachedAt
  let order : OrderSeen :=
    sorted.foldl (fun order entry => order.see entry.2) ⟨false, false, false, false⟩
  (order.sawLeft && order.sawRight) &&
    ((order.leftBeforeRightDone && !order.rightBeforeLeftDone) ||
      (order.rightBeforeLeftDone && !order.leftBeforeRightDone))

def armMetricsIpc (arm : String) (runs : Runs F) (metrics : Option (FrametimeMetrics F)) :
    ArmMetricsIpc F where
  arm
  attempts := UInt32.ofNat runs.length
  captureSuccesses := UInt32.ofNat (runs.filter captureSucceeded).length
  planIds := runs.map (·.planId)
  frametime := metrics

def armsComparability (left right : Runs F) : ComparabilityIpc :=
  if !armInternalHomogeneous left || !armInternalHomogeneous right then
    .incomparable "arm-internal-mismatch"
  else
    match left, right with
    | first :: _, second :: _ => assessPairComparability first second
    | _, _ => .incomparable "compare-empty-arm"

/-- The caveat on an arm pair neither of whose first runs measured the heat. -/
def thermalUnmeasured (left right : Runs F) : Bool :=
  left.head?.any (·.spec.thermalDeclared = .unmeasured) &&
    right.head?.any (·.spec.thermalDeclared = .unmeasured)

def subStats (floats : Floats F) (right left : FrametimeStats F) : FrametimeStats F where
  p50Ms := floats.sub right.p50Ms left.p50Ms
  p95Ms := floats.sub right.p95Ms left.p95Ms
  p99Ms := floats.sub right.p99Ms left.p99Ms
  onePercentLowFps := floats.sub right.onePercentLowFps left.onePercentLowFps
  pointOnePercentLowFps := floats.sub right.pointOnePercentLowFps left.pointOnePercentLowFps

def compareBenchmarkRuns (floats : Floats F) (leftRuns rightRuns : Runs F) :
    BenchmarkComparisonIpc F :=
  let comparability := armsComparability leftRuns rightRuns
  let comparable : Bool := comparability = .comparable
  let planIds := ((leftRuns ++ rightRuns).map (·.planId)).dedup
  let leftMetrics := computeFrametimeMetrics floats (collectFrametimes leftRuns)
    (UInt32.ofNat leftRuns.length)
  let rightMetrics := computeFrametimeMetrics floats (collectFrametimes rightRuns)
    (UInt32.ofNat rightRuns.length)
  let caveats :=
    (if comparable && thermalUnmeasured leftRuns rightRuns then ["thermal-unmeasured"] else []) ++
    (if planIds.length = 1 then ["same-runtime-plan"] else []) ++
    (if leftMetrics.any (·.sampleCount = 10) then ["low-sample-1pct"] else [])
  let visualCorrectLeft := visualCorrectForArm leftRuns
  let visualCorrectRight := visualCorrectForArm rightRuns
  let startupCleanLeft := startupCleanForArm leftRuns
  let startupCleanRight := startupCleanForArm rightRuns
  let frametimeAvailable := leftMetrics.isSome && rightMetrics.isSome
  let passed := comparable && visualCorrectLeft && visualCorrectRight && startupCleanLeft &&
    startupCleanRight && frametimeAvailable
  let deltas :=
    if comparable then
      match leftMetrics, rightMetrics with
      | some left, some right => some (subStats floats right.stats left.stats)
      | _, _ => none
    else none
  let orderBias := orderBiasUncontrolled leftRuns rightRuns
  { comparability
    left := armMetricsIpc "a" leftRuns leftMetrics
    right := armMetricsIpc "b" rightRuns rightMetrics
    deltas
    gates := ⟨visualCorrectLeft, visualCorrectRight, startupCleanLeft, startupCleanRight,
      frametimeAvailable, passed⟩
    caveats
    orderBiasUncontrolled := orderBias
    usableForAutotune := comparable && passed && !orderBias &&
      leftMetrics.any (2 ≤ ·.runCount) && rightMetrics.any (2 ≤ ·.runCount) }

/-! ## The comparison by run ids (`runtime/benchmark_store.rs`) -/

structure CompareRuntimeBenchmarksIpc where
  leftRunIds : List String
  rightRunIds : List String

/-- The store as the comparison sees it: whether an id is a UUID, and what the
file named after it holds, if there is one. -/
structure Records (F : Type) where
  isUuid : String → Bool
  read : String → Option (Except String (RuntimeBenchmarkRunV1 F))

/-- The loop of `validate_run_ids` over the ids behind those it has `seen`. -/
def validateUnique (isUuid : String → Bool) (seen : List String) :
    List String → Except String Unit
  | [] => .ok ()
  | runId :: rest =>
    if !isUuid runId then .error "invalid-run-id"
    else if seen.contains runId then .error "duplicate-run-id"
    else validateUnique isUuid (runId :: seen) rest

def validateRunIds (isUuid : String → Bool) (runIds : List String) : Except String Unit :=
  if MAX_RECORDS < runIds.length then .error "too-many-run-ids"
  else validateUnique isUuid [] runIds

def validateComparisonIds (isUuid : String → Bool) (input : CompareRuntimeBenchmarksIpc) :
    Except String Unit := do
  validateRunIds isUuid input.leftRunIds
  validateRunIds isUuid input.rightRunIds
  if input.rightRunIds.any (input.leftRunIds.contains ·) then
    .error "compare-overlapping-runs"
  else .ok ()

def validateForCompare (record : RuntimeBenchmarkRunV1 F) (expectedArm : BenchmarkArm) :
    Except String Unit :=
  if record.arm ≠ expectedArm then .error "compare-arm-mismatch"
  else if record.recordState = .invalid then .error "run-invalid"
  else if record.visualCheck = .pending then .error "visual-check-pending"
  else .ok ()

def readForCompare (records : Records F) (arm : BenchmarkArm) (runId : String) :
    Except String (RuntimeBenchmarkRunV1 F) :=
  match records.read runId with
  | none => .error "run-not-found"
  | some contents => do
    let record ← contents
    validateForCompare record arm
    pure record

def compareBenchmarkRunsById (floats : Floats F) (records : Records F)
    (input : CompareRuntimeBenchmarksIpc) : Except String (BenchmarkComparisonIpc F) :=
  if input.leftRunIds.isEmpty || input.rightRunIds.isEmpty then .error "compare-empty-arm"
  else do
    validateComparisonIds records.isUuid input
    let left ← input.leftRunIds.mapM (readForCompare records .a)
    let right ← input.rightRunIds.mapM (readForCompare records .b)
    pure (compareBenchmarkRuns floats left right)

/-! ## The runs that contribute -/

/-- The run alone yields frame times. -/
def contributes (run : RuntimeBenchmarkRunV1 F) : Bool := !(collectFrametimes [run]).isEmpty

def contributing (runs : Runs F) : Nat := (runs.filter contributes).length

def silent (runs : Runs F) : Nat := (runs.filter fun run => !contributes run).length

theorem contributing_add_silent (runs : Runs F) :
    contributing runs + silent runs = runs.length := by
  induction runs with
  | nil => rfl
  | cons run rest ih =>
    unfold contributing silent at ih ⊢
    cases c : contributes run
    · rw [List.filter_cons_of_neg (by simp [c]), List.filter_cons_of_pos (by simp [c])]
      simp only [List.length_cons]
      omega
    · rw [List.filter_cons_of_pos (by simp [c]), List.filter_cons_of_neg (by simp [c])]
      simp only [List.length_cons]
      omega

theorem collectFrametimes_cons (run : RuntimeBenchmarkRunV1 F) (rest : Runs F) :
    collectFrametimes (run :: rest) = collectFrametimes [run] ++ collectFrametimes rest := by
  simp only [collectFrametimes]
  split
  · cases run.samples with
    | none => rfl
    | some samples => simp only [List.append_nil]
  · rfl

/-- Nothing is collected from an arm exactly if no run of it contributes. -/
theorem collectFrametimes_eq_nil (runs : Runs F) :
    collectFrametimes runs = [] ↔ contributing runs = 0 := by
  induction runs with
  | nil => exact ⟨fun _ => rfl, fun _ => rfl⟩
  | cons run rest ih =>
    rw [collectFrametimes_cons, List.append_eq_nil_iff, ih]
    unfold contributing
    have alone : collectFrametimes [run] = [] ↔ contributes run = false := by
      unfold contributes
      rw [Bool.not_eq_false', List.isEmpty_iff]
    rw [alone]
    cases c : contributes run
    · rw [List.filter_cons_of_neg (by simp [c])]
      exact ⟨fun both => both.2, fun none => ⟨rfl, none⟩⟩
    · rw [List.filter_cons_of_pos c, List.length_cons]
      constructor
      · intro both
        cases both.1
      · intro none
        omega

theorem contributes_eligible {run : RuntimeBenchmarkRunV1 F} (h : contributes run = true) :
    isFrametimeEligible run = true := by
  by_contra refused
  simp only [contributes, collectFrametimes, if_neg refused] at h
  cases h

theorem contributes_passed {run : RuntimeBenchmarkRunV1 F} (h : contributes run = true) :
    run.visualCheck = .passed := by
  have eligible := contributes_eligible h
  simp only [isFrametimeEligible, Bool.and_eq_true, decide_eq_true_eq] at eligible
  exact eligible.1.2

/-! ## What is reported of an arm -/

/-- Either no run of the arm contributes, or every run does as far as a count of
32 bits can tell. -/
def Alike (runs : Runs F) : Prop :=
  contributing runs = 0 ∨ (contributing runs < 2 ^ 32 ∧ 2 ^ 32 ∣ silent runs)

theorem alike_iff_of_small {runs : Runs F} (small : runs.length < 2 ^ 32) :
    Alike runs ↔ contributing runs = 0 ∨ ∀ run ∈ runs, contributes run = true := by
  have total := contributing_add_silent runs
  have all : silent runs = 0 ↔ ∀ run ∈ runs, contributes run = true := by
    unfold silent
    rw [List.length_eq_zero_iff, List.filter_eq_nil_iff]
    simp only [Bool.not_eq_true', Bool.not_eq_false]
  unfold Alike
  rw [← all]
  constructor
  · intro alike
    cases alike with
    | inl none => exact Or.inl none
    | inr wrapped =>
      obtain ⟨-, k, times⟩ := wrapped
      right
      omega
  · intro cases
    cases cases with
    | inl none => exact Or.inl none
    | inr none =>
      right
      rw [none]
      exact ⟨by omega, Nat.dvd_zero _⟩

/-- The frame time metrics of an arm, as `compare_benchmark_runs` computes them. -/
def armMetrics (floats : Floats F) (runs : Runs F) : Option (FrametimeMetrics F) :=
  computeFrametimeMetrics floats (collectFrametimes runs) (UInt32.ofNat runs.length)

theorem armMetrics_runCount {floats : Floats F} {runs : Runs F} {metrics : FrametimeMetrics F}
    (computed : armMetrics floats runs = some metrics) :
    metrics.runCount.toNat = runs.length % 2 ^ 32 ∧ contributing runs ≠ 0 := by
  unfold armMetrics computeFrametimeMetrics at computed
  split at computed
  next => cases computed
  next some =>
    cases computed
    constructor
    · exact UInt32.toNat_ofNat'
    · intro none
      rw [(collectFrametimes_eq_nil runs).mpr none] at some
      exact some rfl

theorem armMetrics_some (floats : Floats F) {runs : Runs F} (some : contributing runs ≠ 0) :
    ∃ metrics, armMetrics floats runs = Option.some metrics := by
  unfold armMetrics computeFrametimeMetrics
  rw [if_neg]
  · exact ⟨_, rfl⟩
  · intro empty
    exact some ((collectFrametimes_eq_nil runs).mp (List.isEmpty_iff.mp empty))

/-- The run count of an arm is right exactly if its runs are alike. -/
theorem runCount_iff (floats : Floats F) (runs : Runs F) :
    (∀ metrics, armMetrics floats runs = some metrics →
      metrics.runCount.toNat = contributing runs) ↔ Alike runs := by
  have total := contributing_add_silent runs
  unfold Alike
  constructor
  · intro counted
    by_cases none : contributing runs = 0
    · exact Or.inl none
    · right
      obtain ⟨metrics, computed⟩ := armMetrics_some floats none
      have count := (armMetrics_runCount computed).1
      rw [counted metrics computed] at count
      constructor
      · omega
      · omega
  · intro alike metrics computed
    obtain ⟨count, some⟩ := armMetrics_runCount computed
    rw [count]
    cases alike with
    | inl none => exact absurd none some
    | inr wrapped =>
      obtain ⟨small, k, times⟩ := wrapped
      omega

/-! ## The whole comparison -/

/-- What a comparison owes to whoever tunes by it. -/
structure RestsOnSamples (floats : Floats F) (left right : Runs F) : Prop where
  usable : (compareBenchmarkRuns floats left right).usableForAutotune = true →
    2 ≤ contributing left ∧ 2 ≤ contributing right
  passed : ∀ run ∈ left ++ right, contributes run = true → run.visualCheck = .passed
  countedLeft : ∀ metrics, (compareBenchmarkRuns floats left right).left.frametime = some metrics →
    metrics.runCount.toNat = contributing left
  countedRight : ∀ metrics,
    (compareBenchmarkRuns floats left right).right.frametime = some metrics →
      metrics.runCount.toNat = contributing right

/-- A usable comparison reports two runs or more for each arm. -/
theorem usable_reports {floats : Floats F} {left right : Runs F}
    (usable : (compareBenchmarkRuns floats left right).usableForAutotune = true) :
    (∃ metrics, armMetrics floats left = some metrics ∧ 2 ≤ metrics.runCount.toNat) ∧
      ∃ metrics, armMetrics floats right = some metrics ∧ 2 ≤ metrics.runCount.toNat := by
  simp only [compareBenchmarkRuns, Bool.and_eq_true, Option.any_eq_true,
    decide_eq_true_eq] at usable
  obtain ⟨⟨-, l, computed, two⟩, r, computed', two'⟩ := usable
  exact ⟨⟨l, computed, UInt32.le_iff_toNat_le.mp two⟩, r, computed',
    UInt32.le_iff_toNat_le.mp two'⟩

theorem restsOnSamples_iff (floats : Floats F) (left right : Runs F) :
    RestsOnSamples floats left right ↔ Alike left ∧ Alike right := by
  constructor
  · intro rests
    exact ⟨(runCount_iff floats left).mp rests.countedLeft,
      (runCount_iff floats right).mp rests.countedRight⟩
  · intro alike
    have counted := (runCount_iff floats left).mpr alike.1
    have counted' := (runCount_iff floats right).mpr alike.2
    refine ⟨?_, fun run _ h => contributes_passed h, counted, counted'⟩
    intro usable
    obtain ⟨⟨l, computed, two⟩, r, computed', two'⟩ := usable_reports usable
    rw [counted l computed] at two
    rw [counted' r computed'] at two'
    exact ⟨two, two'⟩

/-- A comparison rests on the samples it claims exactly if in each arm either all
runs contribute or none does. -/
theorem comparison_rests_on_samples (floats : Floats F) (left right : Runs F) :
    (RestsOnSamples floats left right ↔ Alike left ∧ Alike right) ∧
      ∀ runs ∈ [left, right], runs.length < 2 ^ 32 →
        (Alike runs ↔ contributing runs = 0 ∨ ∀ run ∈ runs, contributes run = true) :=
  ⟨restsOnSamples_iff floats left right, fun _ _ => alike_iff_of_small⟩

/-- A run of one frame time, with the visual verdict given. -/
def frameRun (arm : BenchmarkArm) (attachedAt : String) (visualCheck : BenchmarkVisualCheck) :
    RuntimeBenchmarkRunV1 Nat :=
  { cardRun "known" (some "amdgpu") with
    arm, attachedAt, visualCheck, samples := some ⟨[16]⟩ }

def sampleFloats : Floats Nat where
  stats _ := ⟨16, 16, 16, 62, 62⟩
  sub := (· - ·)

/-- One run of each arm was skipped when it was looked at. -/
def skippedA : Runs Nat := [frameRun .a "1" .passed, frameRun .a "3" .skipped]

def skippedB : Runs Nat := [frameRun .b "2" .passed, frameRun .b "4" .skipped]

def skippedRecords : Records Nat where
  isUuid _ := true
  read runId := ((skippedA ++ skippedB).find? (·.attachedAt = runId)).map .ok

theorem comparison_rests_on_samples_skipped :
    Alike skippedA ↔ contributing skippedA = 0 ∨ ∀ run ∈ skippedA, contributes run = true :=
  (comparison_rests_on_samples sampleFloats skippedA skippedB).2 skippedA List.mem_cons_self
    (by decide)

theorem skipped_runs_counted :
    compareBenchmarkRunsById sampleFloats skippedRecords ⟨["1", "3"], ["2", "4"]⟩
        = .ok (compareBenchmarkRuns sampleFloats skippedA skippedB) ∧
      (compareBenchmarkRuns sampleFloats skippedA skippedB).usableForAutotune = true ∧
      contributing skippedA = 1 ∧ contributing skippedB = 1 ∧
      ¬ RestsOnSamples sampleFloats skippedA skippedB := by
  have usable : (compareBenchmarkRuns sampleFloats skippedA skippedB).usableForAutotune = true := by
    decide
  refine ⟨rfl, usable, by decide, by decide, ?_⟩
  intro rests
  exact absurd (rests.usable usable).1 (by decide)

/-! ## Runs named by their ids -/

theorem validateRunIds_length {isUuid : String → Bool} {runIds : List String}
    (valid : validateRunIds isUuid runIds = .ok ()) : runIds.length ≤ MAX_RECORDS := by
  unfold validateRunIds at valid
  split at valid
  next => cases valid
  next small => exact Nat.not_lt.mp small

/-- A run that may be compared as one of the arm. -/
def ComparedAs (arm : BenchmarkArm) (run : RuntimeBenchmarkRunV1 F) : Prop :=
  run.arm = arm ∧ run.recordState ≠ .invalid ∧ run.visualCheck ≠ .pending

theorem readForCompare_ok {records : Records F} {arm : BenchmarkArm} {runId : String}
    {run : RuntimeBenchmarkRunV1 F} (read : readForCompare records arm runId = .ok run) :
    ComparedAs arm run := by
  unfold readForCompare at read
  split at read
  next => cases read
  next contents found =>
    obtain ⟨record, -, checked⟩ := ok_of_bind.mp read
    obtain ⟨_, valid, same⟩ := ok_of_bind.mp checked
    cases same
    unfold validateForCompare at valid
    split_ifs at valid with other invalid pending
    exact ⟨not_not.mp other, invalid, pending⟩

/-- An arm that was read: as many runs as there are ids, each of them compared. -/
theorem readArm_ok {records : Records F} {arm : BenchmarkArm} {runIds : List String}
    {runs : Runs F} (read : runIds.mapM (readForCompare records arm) = .ok runs) :
    runs.length = runIds.length ∧ ∀ run ∈ runs, ComparedAs arm run := by
  have each := mapM_ok.mp read
  clear read
  induction each with
  | nil => exact ⟨rfl, fun _ mem => by cases mem⟩
  | cons first _ ih =>
    constructor
    · rw [List.length_cons, List.length_cons, ih.1]
    · intro run mem
      obtain rfl | mem := List.mem_cons.mp mem
      · exact readForCompare_ok first
      · exact ih.2 run mem

/-- The arms a comparison by ids is made of. -/
theorem compareBenchmarkRunsById_ok {floats : Floats F} {records : Records F}
    {input : CompareRuntimeBenchmarksIpc} {comparison : BenchmarkComparisonIpc F}
    (done : compareBenchmarkRunsById floats records input = .ok comparison) :
    ∃ left right, comparison = compareBenchmarkRuns floats left right ∧
      (left.length ≤ MAX_RECORDS ∧ ∀ run ∈ left, ComparedAs .a run) ∧
      (right.length ≤ MAX_RECORDS ∧ ∀ run ∈ right, ComparedAs .b run) := by
  unfold compareBenchmarkRunsById at done
  split at done
  next => cases done
  next =>
    obtain ⟨_, valid, done⟩ := ok_of_bind.mp done
    obtain ⟨left, readLeft, done⟩ := ok_of_bind.mp done
    obtain ⟨right, readRight, done⟩ := ok_of_bind.mp done
    cases done
    obtain ⟨_, validLeft, valid⟩ := ok_of_bind.mp valid
    obtain ⟨_, validRight, -⟩ := ok_of_bind.mp valid
    obtain ⟨lengthLeft, comparedLeft⟩ := readArm_ok readLeft
    obtain ⟨lengthRight, comparedRight⟩ := readArm_ok readRight
    have smallLeft := validateRunIds_length validLeft
    have smallRight := validateRunIds_length validRight
    exact ⟨left, right, rfl, ⟨by omega, comparedLeft⟩, by omega, comparedRight⟩

/-- By ids an arm is too short for the count to wrap, and no verdict is pending:
the samples are what they are said to be exactly if in each arm all runs
contribute or none does. -/
theorem restsOnSamples_byId {floats : Floats F} {records : Records F}
    {input : CompareRuntimeBenchmarksIpc} {comparison : BenchmarkComparisonIpc F}
    (done : compareBenchmarkRunsById floats records input = .ok comparison) :
    ∃ left right, comparison = compareBenchmarkRuns floats left right ∧
      (∀ run ∈ left ++ right, run.visualCheck ≠ .pending) ∧
      (RestsOnSamples floats left right ↔
        (contributing left = 0 ∨ ∀ run ∈ left, contributes run = true) ∧
          (contributing right = 0 ∨ ∀ run ∈ right, contributes run = true)) := by
  obtain ⟨left, right, same, ⟨smallLeft, comparedLeft⟩, smallRight, comparedRight⟩ :=
    compareBenchmarkRunsById_ok done
  refine ⟨left, right, same, ?_, ?_⟩
  · intro run mem
    obtain mem | mem := List.mem_append.mp mem
    · exact (comparedLeft run mem).2.2
    · exact (comparedRight run mem).2.2
  · have few : MAX_RECORDS < 2 ^ 32 := by decide
    have small : left.length < 2 ^ 32 := by omega
    have small' : right.length < 2 ^ 32 := by omega
    rw [restsOnSamples_iff, alike_iff_of_small small, alike_iff_of_small small']

end RoLauncher.Benchmark
