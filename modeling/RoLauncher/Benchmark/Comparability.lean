import Mathlib.Data.List.Sort
import RoLauncher.Text.Fields
import RoLauncher.Benchmark.Store

/-!
# When two runs may be compared (`runtime/benchmark.rs`)

Two runs are compared when everything but what is measured is the same. The
control fields of a run are joined to one text, its key, and the keys are
compared. Fields are joined with `|`, those of a graphics card with `:`, and a
value that is absent is written as an empty one: the key is the fields
themselves for a run whose texts hold neither letter (`comparabilityKey_inj`).
-/

namespace RoLauncher.Benchmark

open Text

inductive CaptureAdapterKind where
  | importedCsvV1
  deriving DecidableEq, Repr

inductive ThermalDeclared where
  | unmeasured
  | cool
  | throttled
  deriving DecidableEq, Repr

@[ext]
structure BenchmarkResolutionV1 where
  width : UInt32
  height : UInt32
  fullscreen : Bool
  deriving DecidableEq

@[ext]
structure BenchmarkSpecV1 where
  protocolRevision : UInt64
  sceneId : String
  loadDescriptor : String
  resolution : BenchmarkResolutionV1
  warmupSeconds : UInt32
  captureSeconds : UInt32
  thermalDeclared : ThermalDeclared
  deriving DecidableEq

@[ext]
structure BenchmarkFlagsIpc where
  graphicsPlan : Bool
  supervisor : Bool
  deriving DecidableEq

inductive ObservationSubjectIpc where
  | absent
  | unreadable
  | gepard (sha256 fileName : String)
  deriving DecidableEq

@[ext]
structure HostGpuCardIpc where
  sysfsCard : String
  vendorId : Option String
  deviceId : Option String
  driver : Option String
  deriving DecidableEq

structure HostGpuObservationIpc where
  completeness : String
  cards : List HostGpuCardIpc
  deriving DecidableEq

structure FingerprintEnvelopeIpc where
  digest : String
  deriving DecidableEq

structure BenchmarkSamplesV1 (F : Type) where
  frametimeMs : List F
  deriving DecidableEq

/-- What a comparison reads of a run. `F` are the floating point numbers. -/
structure RuntimeBenchmarkRunV1 (F : Type) where
  recordState : BenchmarkRecordState
  invalidReason : Option BenchmarkInvalidReason
  attachedAt : String
  serverToken : String
  arm : BenchmarkArm
  spec : BenchmarkSpecV1
  planId : String
  prefixFingerprint : FingerprintEnvelopeIpc
  runnerKind : String
  subject : ObservationSubjectIpc
  hostGpu : HostGpuObservationIpc
  flags : BenchmarkFlagsIpc
  captureAdapter : CaptureAdapterKind
  samples : Option (BenchmarkSamplesV1 F)
  visualCheck : BenchmarkVisualCheck
  linkedOutcomeKind : Option String
  deriving DecidableEq

inductive ComparabilityIpc where
  | comparable
  | incomparable (reason : String)
  deriving DecidableEq, Repr

/-- `serde_json::to_string` of an adapter. -/
def CaptureAdapterKind.json : CaptureAdapterKind → String
  | .importedCsvV1 => "\"imported-csv-v1\""

def ThermalDeclared.json : ThermalDeclared → String
  | .unmeasured => "\"unmeasured\""
  | .cool => "\"cool\""
  | .throttled => "\"throttled\""

def subjectKey : ObservationSubjectIpc → Option String
  | .absent => some "absent"
  | .unreadable => some "unreadable"
  | .gepard sha256 _ => some ("gepard:" ++ sha256)

/-- `cards.sort_by`, on the name in `/sys`. -/
def sortCards (cards : List HostGpuCardIpc) : List HostGpuCardIpc :=
  cards.insertionSort fun left right => left.sysfsCard ≤ right.sysfsCard

def cardKey (card : HostGpuCardIpc) : String :=
  card.sysfsCard ++ ":" ++ card.vendorId.getD "" ++ ":" ++ card.deviceId.getD "" ++ ":" ++
    card.driver.getD ""

def gpuCardsKey (host : HostGpuObservationIpc) : String :=
  "|".intercalate ((sortCards host.cards).map cardKey)

variable {F : Type}

def comparabilityKey (run : RuntimeBenchmarkRunV1 F) : String :=
  "p" ++ toString run.spec.protocolRevision
    ++ "|" ++ run.spec.sceneId
    ++ "|" ++ run.spec.loadDescriptor
    ++ "|" ++ toString run.spec.resolution.width ++ "x" ++ toString run.spec.resolution.height
    ++ "|" ++ toString run.spec.resolution.fullscreen
    ++ "|" ++ toString run.spec.warmupSeconds
    ++ "|" ++ toString run.spec.captureSeconds
    ++ "|" ++ "srv" ++ run.serverToken
    ++ "|" ++ "sub" ++ (subjectKey run.subject).getD ""
    ++ "|" ++ "rk" ++ run.runnerKind
    ++ "|" ++ "pfx" ++ run.prefixFingerprint.digest
    ++ "|" ++ "gpu" ++ gpuCardsKey run.hostGpu
    ++ "|" ++ run.hostGpu.completeness
    ++ "|" ++ "gp" ++ toString run.flags.graphicsPlan
    ++ "|" ++ "sup" ++ toString run.flags.supervisor
    ++ "|" ++ "adp" ++ run.captureAdapter.json
    ++ "|" ++ "th" ++ run.spec.thermalDeclared.json

def armInternalHomogeneous : List (RuntimeBenchmarkRunV1 F) → Bool
  | [] => true
  | first :: rest => (first :: rest).all fun run => comparabilityKey run = comparabilityKey first

def assessPairComparability (left right : RuntimeBenchmarkRunV1 F) : ComparabilityIpc :=
  if left.hostGpu.completeness ≠ "known" ∨ right.hostGpu.completeness ≠ "known" then
    .incomparable "host-gpu-incomplete"
  else if comparabilityKey left ≠ comparabilityKey right then
    if left.spec.sceneId ≠ right.spec.sceneId then
      .incomparable "scene-mismatch"
    else if left.prefixFingerprint.digest ≠ right.prefixFingerprint.digest then
      .incomparable "prefix-fingerprint-mismatch"
    else if gpuCardsKey left.hostGpu ≠ gpuCardsKey right.hostGpu then
      .incomparable "host-gpu-mismatch"
    else if subjectKey left.subject ≠ subjectKey right.subject then
      .incomparable "subject-mismatch"
    else if left.spec.thermalDeclared ≠ right.spec.thermalDeclared then
      .incomparable "thermal-mismatch"
    else if left.flags.graphicsPlan ≠ right.flags.graphicsPlan then
      .incomparable "graphics-plan-flag-mismatch"
    else
      .incomparable "protocol-mismatch"
  else
    .comparable

def validateSceneToken (value : String) : Bool :=
  match value.toList with
  | [] => false
  | first :: rest =>
    value.utf8ByteSize ≤ 64 && (first.isLower || first.isDigit) &&
      rest.all fun ch => ch.isLower || ch.isDigit || ch = '-'

/-! ## The fields of a key -/

/-- What feeds the key: the cards in the order of their names, and of the subject
not the file it was read from. -/
@[ext]
structure Controls where
  spec : BenchmarkSpecV1
  serverToken : String
  subject : ObservationSubjectIpc
  runnerKind : String
  prefixDigest : String
  cards : List HostGpuCardIpc
  completeness : String
  flags : BenchmarkFlagsIpc
  captureAdapter : CaptureAdapterKind
  deriving DecidableEq

def ObservationSubjectIpc.unnamed : ObservationSubjectIpc → ObservationSubjectIpc
  | .gepard sha256 _ => .gepard sha256 ""
  | subject => subject

def RuntimeBenchmarkRunV1.controls (run : RuntimeBenchmarkRunV1 F) : Controls where
  spec := run.spec
  serverToken := run.serverToken
  subject := run.subject.unnamed
  runnerKind := run.runnerKind
  prefixDigest := run.prefixFingerprint.digest
  cards := sortCards run.hostGpu.cards
  completeness := run.hostGpu.completeness
  flags := run.flags
  captureAdapter := run.captureAdapter

/-- A value that is not read as another: it holds no separator, and an empty one
is not told from an absent one. -/
def PlainValue (value : Option String) : Prop :=
  ∀ text, value = some text → text ≠ "" ∧ Without '|' text ∧ Without ':' text

structure HostGpuCardIpc.Plain (card : HostGpuCardIpc) : Prop where
  sysfsCard : Without '|' card.sysfsCard ∧ Without ':' card.sysfsCard
  vendorId : PlainValue card.vendorId
  deviceId : PlainValue card.deviceId
  driver : PlainValue card.driver

def ObservationSubjectIpc.Plain : ObservationSubjectIpc → Prop
  | .gepard sha256 _ => Without '|' sha256
  | _ => True

structure RuntimeBenchmarkRunV1.Plain (run : RuntimeBenchmarkRunV1 F) : Prop where
  sceneId : Without '|' run.spec.sceneId
  loadDescriptor : Without '|' run.spec.loadDescriptor
  serverToken : Without '|' run.serverToken
  subject : run.subject.Plain
  runnerKind : Without '|' run.runnerKind
  prefixDigest : Without '|' run.prefixFingerprint.digest
  cards : ∀ card ∈ run.hostGpu.cards, card.Plain
  completeness : Without '|' run.hostGpu.completeness

/-- A run's scene and load are checked when it starts. -/
theorem validateSceneToken_without {value : String} (valid : validateSceneToken value = true) :
    Without '|' value := by
  intro occurs
  unfold validateSceneToken at valid
  cases letters : value.toList with
  | nil =>
    rw [letters] at occurs
    cases occurs
  | cons first rest =>
    rw [letters] at valid occurs
    simp only [Bool.and_eq_true, List.all_eq_true] at valid
    obtain ⟨⟨-, start⟩, behind⟩ := valid
    obtain rfl | mem := List.mem_cons.mp occurs
    · exact absurd start (by decide)
    · exact absurd (behind '|' mem) (by decide)

/-- The fields before those of the cards. -/
def heading (run : RuntimeBenchmarkRunV1 F) : List String :=
  ["p" ++ toString run.spec.protocolRevision, run.spec.sceneId, run.spec.loadDescriptor,
    toString run.spec.resolution.width ++ "x" ++ toString run.spec.resolution.height,
    toString run.spec.resolution.fullscreen, toString run.spec.warmupSeconds,
    toString run.spec.captureSeconds, "srv" ++ run.serverToken,
    "sub" ++ (subjectKey run.subject).getD "", "rk" ++ run.runnerKind,
    "pfx" ++ run.prefixFingerprint.digest]

def cardFields : List HostGpuCardIpc → List String
  | [] => ["gpu"]
  | card :: rest => ("gpu" ++ cardKey card) :: rest.map cardKey

/-- The fields behind those of the cards. -/
def trailing (run : RuntimeBenchmarkRunV1 F) : List String :=
  [run.hostGpu.completeness, "gp" ++ toString run.flags.graphicsPlan,
    "sup" ++ toString run.flags.supervisor, "adp" ++ run.captureAdapter.json,
    "th" ++ run.spec.thermalDeclared.json]

theorem cardFields_ne_nil (cards : List HostGpuCardIpc) : cardFields cards ≠ [] := by
  cases cards <;> simp [cardFields]

theorem intercalate_cardFields (cards : List HostGpuCardIpc) :
    "|".intercalate (cardFields cards) = "gpu" ++ "|".intercalate (cards.map cardKey) := by
  cases cards with
  | nil => simp [cardFields]
  | cons card rest => simp only [cardFields, List.map_cons, String.intercalate_cons_append]

theorem heading_ne_nil (run : RuntimeBenchmarkRunV1 F) : heading run ≠ [] :=
  List.cons_ne_nil _ _

theorem trailing_ne_nil (run : RuntimeBenchmarkRunV1 F) : trailing run ≠ [] :=
  List.cons_ne_nil _ _

theorem comparabilityKey_eq (run : RuntimeBenchmarkRunV1 F) :
    comparabilityKey run
      = "|".intercalate (heading run ++ (cardFields (sortCards run.hostGpu.cards)
        ++ trailing run)) := by
  have behind : cardFields (sortCards run.hostGpu.cards) ++ trailing run ≠ [] :=
    List.append_ne_nil_of_left_ne_nil (cardFields_ne_nil _) _
  rw [String.intercalate_append_of_ne_nil (heading_ne_nil run) behind,
    String.intercalate_append_of_ne_nil (cardFields_ne_nil _) (trailing_ne_nil run),
    intercalate_cardFields]
  simp only [heading, trailing, String.intercalate_cons_cons, String.intercalate_singleton]
  unfold comparabilityKey gpuCardsKey
  simp only [← String.append_assoc]

/-! ## Equal fields, equal keys -/

theorem subjectKey_unnamed (subject : ObservationSubjectIpc) :
    subjectKey subject.unnamed = subjectKey subject := by
  cases subject <;> rfl

theorem comparabilityKey_of_controls {left right : RuntimeBenchmarkRunV1 F}
    (same : left.controls = right.controls) : comparabilityKey left = comparabilityKey right := by
  have adapter : left.captureAdapter = right.captureAdapter :=
    congrArg Controls.captureAdapter same
  simp only [RuntimeBenchmarkRunV1.controls, Controls.mk.injEq] at same
  obtain ⟨spec, token, subject, kind, digest, cards, completeness, flags, -⟩ := same
  have subjects : subjectKey left.subject = subjectKey right.subject := by
    rw [← subjectKey_unnamed left.subject, subject, subjectKey_unnamed]
  unfold comparabilityKey gpuCardsKey
  rw [spec, token, subjects, kind, digest, cards, completeness, flags, adapter]

/-! ## Equal keys, equal fields -/

theorem subjectKey_inj {left right : ObservationSubjectIpc}
    (same : subjectKey left = subjectKey right) : left.unnamed = right.unnamed := by
  have absent (sha256 : String) : "absent" ≠ "gepard:" ++ sha256 := by
    intro same
    have heads := congrArg (fun text => text.toList.head?) same
    simp at heads
  have unreadable (sha256 : String) : "unreadable" ≠ "gepard:" ++ sha256 := by
    intro same
    have heads := congrArg (fun text => text.toList.head?) same
    simp at heads
  cases left <;> cases right <;> simp only [subjectKey, Option.some.injEq] at same
  case absent.absent | unreadable.unreadable => rfl
  case absent.unreadable | unreadable.absent => exact absurd same (by decide)
  case absent.gepard => exact absurd same (absent _)
  case unreadable.gepard => exact absurd same (unreadable _)
  case gepard.absent => exact absurd same.symm (absent _)
  case gepard.unreadable => exact absurd same.symm (unreadable _)
  case gepard.gepard =>
    rw [String.append_right_inj] at same
    simp only [ObservationSubjectIpc.unnamed, same]

theorem PlainValue.without {value : Option String} (plain : PlainValue value) :
    Without '|' (value.getD "") ∧ Without ':' (value.getD "") := by
  cases value with
  | none => exact ⟨Without.empty, Without.empty⟩
  | some text => exact (plain text rfl).2

theorem PlainValue.inj {left right : Option String} (plain : PlainValue left)
    (plain' : PlainValue right) (same : left.getD "" = right.getD "") : left = right := by
  cases left with
  | none =>
    cases right with
    | none => rfl
    | some text => exact absurd same.symm (plain' text rfl).1
  | some text =>
    cases right with
    | none => exact absurd same (plain text rfl).1
    | some other => exact congrArg some same

def HostGpuCardIpc.fields (card : HostGpuCardIpc) : List String :=
  [card.sysfsCard, card.vendorId.getD "", card.deviceId.getD "", card.driver.getD ""]

theorem cardKey_eq (card : HostGpuCardIpc) : cardKey card = ":".intercalate card.fields := by
  simp only [HostGpuCardIpc.fields, String.intercalate_cons_cons, String.intercalate_singleton]
  unfold cardKey
  simp only [← String.append_assoc]

namespace HostGpuCardIpc.Plain

variable {card : HostGpuCardIpc}

theorem fields (plain : card.Plain) : ∀ t ∈ card.fields, Without ':' t := by
  intro t mem
  simp only [HostGpuCardIpc.fields, List.mem_cons, List.not_mem_nil, or_false] at mem
  rcases mem with rfl | rfl | rfl | rfl
  · exact plain.sysfsCard.2
  · exact plain.vendorId.without.2
  · exact plain.deviceId.without.2
  · exact plain.driver.without.2

theorem key (plain : card.Plain) : Without '|' (cardKey card) := by
  have colon : Without '|' ":" := by decide
  have name := plain.sysfsCard.1.append colon
  have vendor := (name.append plain.vendorId.without.1).append colon
  have device := (vendor.append plain.deviceId.without.1).append colon
  exact device.append plain.driver.without.1

end HostGpuCardIpc.Plain

theorem cardKey_inj {left right : HostGpuCardIpc} (plain : left.Plain) (plain' : right.Plain)
    (same : cardKey left = cardKey right) : left = right := by
  rw [cardKey_eq, cardKey_eq] at same
  have fields := intercalate_inj plain.fields plain'.fields (List.cons_ne_nil _ _)
    (List.cons_ne_nil _ _) same
  simp only [HostGpuCardIpc.fields, List.cons.injEq, and_true] at fields
  obtain ⟨name, vendor, device, driver⟩ := fields
  have vendors := plain.vendorId.inj plain'.vendorId vendor
  have devices := plain.deviceId.inj plain'.deviceId device
  have drivers := plain.driver.inj plain'.driver driver
  exact HostGpuCardIpc.ext name vendors devices drivers

theorem map_cardKey_inj {left right : List HostGpuCardIpc} (plain : ∀ card ∈ left, card.Plain)
    (plain' : ∀ card ∈ right, card.Plain) (same : left.map cardKey = right.map cardKey) :
    left = right := by
  induction left generalizing right with
  | nil => exact (List.map_eq_nil_iff.mp same.symm).symm
  | cons card rest ih =>
    cases right with
    | nil => cases same
    | cons other others =>
      simp only [List.map_cons, List.cons.injEq] at same
      obtain ⟨first, behind⟩ := same
      rw [cardKey_inj (plain card List.mem_cons_self) (plain' other List.mem_cons_self) first,
        ih (fun c mem => plain c (List.mem_cons_of_mem _ mem))
          (fun c mem => plain' c (List.mem_cons_of_mem _ mem)) behind]

/-- A card's key is never empty. -/
theorem cardKey_ne_empty (card : HostGpuCardIpc) : cardKey card ≠ "" := by
  intro empty
  have colon : ':' ∈ (cardKey card).toList := by
    simp [cardKey]
  rw [empty] at colon
  cases colon

theorem cardFields_inj {left right : List HostGpuCardIpc} (plain : ∀ card ∈ left, card.Plain)
    (plain' : ∀ card ∈ right, card.Plain) (same : cardFields left = cardFields right) :
    left = right := by
  have some (card : HostGpuCardIpc) : "gpu" ≠ "gpu" ++ cardKey card := by
    intro same
    have empty : "gpu" ++ "" = "gpu" ++ cardKey card := same
    rw [String.append_right_inj] at empty
    exact cardKey_ne_empty card empty.symm
  cases left with
  | nil =>
    cases right with
    | nil => rfl
    | cons card rest =>
      simp only [cardFields, List.cons.injEq] at same
      exact absurd same.1 (some card)
  | cons card rest =>
    cases right with
    | nil =>
      simp only [cardFields, List.cons.injEq] at same
      exact absurd same.1.symm (some card)
    | cons other others =>
      simp only [cardFields, List.cons.injEq, String.append_right_inj] at same
      obtain ⟨first, behind⟩ := same
      have keys : (card :: rest).map cardKey = (other :: others).map cardKey := by
        rw [List.map_cons, List.map_cons, first, behind]
      exact map_cardKey_inj plain plain' keys

theorem json_inj {left right : ThermalDeclared} (same : left.json = right.json) :
    left = right := by
  cases left <;> cases right <;> first | rfl | exact absurd same (by decide)

theorem sortCards_plain {cards : List HostGpuCardIpc} (plain : ∀ card ∈ cards, card.Plain) :
    ∀ card ∈ sortCards cards, card.Plain := by
  intro card mem
  exact plain card ((List.mem_insertionSort _).mp mem)

namespace RuntimeBenchmarkRunV1.Plain

variable {run : RuntimeBenchmarkRunV1 F}

theorem heading (plain : run.Plain) : ∀ t ∈ heading run, Without '|' t := by
  have label (text : String) {value : String} (letters : Without '|' text)
      (rest : Without '|' value) : Without '|' (text ++ value) := letters.append rest
  have number (n : Nat) : Without '|' (toString n) := Without.nat n (by decide)
  have subject : Without '|' ((subjectKey run.subject).getD "") := by
    have named := plain.subject
    cases seen : run.subject with
    | absent => decide
    | unreadable => decide
    | gepard sha256 fileName =>
      rw [seen] at named
      exact label "gepard:" (by decide) named
  intro t mem
  simp only [Benchmark.heading, List.mem_cons, List.not_mem_nil, or_false] at mem
  rcases mem with rfl | rfl | rfl | rfl | rfl | rfl | rfl | rfl | rfl | rfl | rfl
  · exact label "p" (by decide) (number _)
  · exact plain.sceneId
  · exact plain.loadDescriptor
  · exact (label _ (number _) (by decide)).append (number _)
  · cases run.spec.resolution.fullscreen <;> decide
  · exact number _
  · exact number _
  · exact label "srv" (by decide) plain.serverToken
  · exact label "sub" (by decide) subject
  · exact label "rk" (by decide) plain.runnerKind
  · exact label "pfx" (by decide) plain.prefixDigest

theorem cardFields (plain : run.Plain) :
    ∀ t ∈ cardFields (sortCards run.hostGpu.cards), Without '|' t := by
  have cards := sortCards_plain plain.cards
  intro t mem
  cases sorted : sortCards run.hostGpu.cards with
  | nil =>
    rw [sorted] at mem
    obtain rfl := List.mem_singleton.mp mem
    decide
  | cons card rest =>
    rw [sorted] at mem cards
    obtain rfl | mem := List.mem_cons.mp mem
    · have label : Without '|' "gpu" := by decide
      exact label.append (cards card List.mem_cons_self).key
    · obtain ⟨other, listed, rfl⟩ := List.mem_map.mp mem
      exact (cards other (List.mem_cons_of_mem _ listed)).key

theorem trailing (plain : run.Plain) : ∀ t ∈ trailing run, Without '|' t := by
  intro t mem
  simp only [Benchmark.trailing, List.mem_cons, List.not_mem_nil, or_false] at mem
  rcases mem with rfl | rfl | rfl | rfl | rfl
  · exact plain.completeness
  · cases run.flags.graphicsPlan <;> decide
  · cases run.flags.supervisor <;> decide
  · cases run.captureAdapter
    decide
  · cases run.spec.thermalDeclared <;> decide

end RuntimeBenchmarkRunV1.Plain

variable {left right : RuntimeBenchmarkRunV1 F}

theorem subjectKey_getD_inj {first second : ObservationSubjectIpc}
    (same : (subjectKey first).getD "" = (subjectKey second).getD "") :
    first.unnamed = second.unnamed := by
  apply subjectKey_inj
  cases first <;> cases second <;> exact congrArg some same

theorem uint32_inj {m n : UInt32} (same : toString m = toString n) : m = n :=
  UInt32.toNat_inj.mp (toString_nat_inj same)

theorem uint64_inj {m n : UInt64} (same : toString m = toString n) : m = n :=
  UInt64.toNat_inj.mp (toString_nat_inj same)

theorem resolution_inj {w h w' h' : UInt32}
    (same : toString w ++ "x" ++ toString h = toString w' ++ "x" ++ toString h') :
    w = w' ∧ h = h' := by
  have number (n : UInt32) : Without 'x' (toString n) := Without.nat n.toNat (by decide)
  have plain (m n : UInt32) : ∀ t ∈ [toString m, toString n], Without 'x' t := by
    intro t mem
    simp only [List.mem_cons, List.not_mem_nil, or_false] at mem
    rcases mem with rfl | rfl
    · exact number m
    · exact number n
  have joined (m n : UInt32) :
      toString m ++ "x" ++ toString n = "x".intercalate [toString m, toString n] := by
    simp only [String.intercalate_cons_cons, String.intercalate_singleton]
  rw [joined, joined] at same
  have fields := intercalate_inj (plain w h) (plain w' h') (List.cons_ne_nil _ _)
    (List.cons_ne_nil _ _) same
  simp only [List.cons.injEq, and_true] at fields
  exact ⟨uint32_inj fields.1, uint32_inj fields.2⟩

theorem heading_inj (same : heading left = heading right) :
    { left.spec with thermalDeclared := right.spec.thermalDeclared } = right.spec ∧
      left.serverToken = right.serverToken ∧ left.subject.unnamed = right.subject.unnamed ∧
      left.runnerKind = right.runnerKind ∧
      left.prefixFingerprint.digest = right.prefixFingerprint.digest := by
  simp only [heading, List.cons.injEq, String.append_right_inj, and_true] at same
  obtain ⟨revision, scene, load, size, screen, warmup, capture, token, subject, kind,
    digest⟩ := same
  obtain ⟨width, height⟩ := resolution_inj size
  have resolution := BenchmarkResolutionV1.ext width height (toString_bool_inj screen)
  have spec := @BenchmarkSpecV1.ext
    { left.spec with thermalDeclared := right.spec.thermalDeclared } right.spec
    (uint64_inj revision) scene load resolution (uint32_inj warmup) (uint32_inj capture) rfl
  exact ⟨spec, token, subjectKey_getD_inj subject, kind, digest⟩

theorem trailing_inj (same : trailing left = trailing right) :
    left.hostGpu.completeness = right.hostGpu.completeness ∧ left.flags = right.flags ∧
      left.captureAdapter = right.captureAdapter ∧
      left.spec.thermalDeclared = right.spec.thermalDeclared := by
  simp only [trailing, List.cons.injEq, String.append_right_inj, and_true] at same
  obtain ⟨completeness, plans, supervisors, -, thermal⟩ := same
  refine ⟨completeness, ?_, ?_, json_inj thermal⟩
  · exact BenchmarkFlagsIpc.ext (toString_bool_inj plans) (toString_bool_inj supervisors)
  · cases left.captureAdapter
    cases right.captureAdapter
    rfl

/-- The fields of a run whose texts hold no separator are read back from its key. -/
theorem comparabilityKey_inj (plain : left.Plain) (plain' : right.Plain)
    (same : comparabilityKey left = comparabilityKey right) : left.controls = right.controls := by
  have fields {run : RuntimeBenchmarkRunV1 F} (plain : run.Plain) :
      ∀ t ∈ heading run ++ (cardFields (sortCards run.hostGpu.cards) ++ trailing run),
        Without '|' t := by
    intro t mem
    rw [List.mem_append, List.mem_append] at mem
    rcases mem with mem | mem | mem
    · exact plain.heading t mem
    · exact plain.cardFields t mem
    · exact plain.trailing t mem
  rw [comparabilityKey_eq, comparabilityKey_eq] at same
  have lists := intercalate_inj (fields plain) (fields plain') (List.cons_ne_nil _ _)
    (List.cons_ne_nil _ _) same
  obtain ⟨headings, rest⟩ := List.append_inj lists rfl
  obtain ⟨cards, trailings⟩ := List.append_inj' rest rfl
  obtain ⟨spec, token, subject, kind, digest⟩ := heading_inj headings
  obtain ⟨completeness, flags, adapter, thermal⟩ := trailing_inj trailings
  have sorted := cardFields_inj (sortCards_plain plain.cards) (sortCards_plain plain'.cards) cards
  rw [← thermal] at spec
  exact Controls.ext spec token subject kind digest sorted completeness flags adapter

/-! ## The comparison of two runs -/

theorem ite_incomparable {p : Prop} [Decidable p] {reason : String} {other : ComparabilityIpc}
    (differs : other ≠ .comparable) : (if p then .incomparable reason else other) ≠ .comparable := by
  split
  · intro never
    cases never
  · exact differs

theorem assessPairComparability_eq_comparable :
    assessPairComparability left right = .comparable ↔
      left.hostGpu.completeness = "known" ∧ right.hostGpu.completeness = "known" ∧
        comparabilityKey left = comparabilityKey right := by
  unfold assessPairComparability
  constructor
  · intro comparable
    split at comparable
    next => cases comparable
    next known =>
      rw [not_or, not_not, not_not] at known
      by_cases same : comparabilityKey left = comparabilityKey right
      · exact ⟨known.1, known.2, same⟩
      · rw [if_pos same] at comparable
        apply absurd comparable
        iterate 6 apply ite_incomparable
        intro never
        cases never
  · rintro ⟨known, known', same⟩
    rw [if_neg (by simp [known, known']), if_neg (not_not.mpr same)]

/-- The reason given is the same both ways. -/
theorem assessPairComparability_comm :
    assessPairComparability left right = assessPairComparability right left := by
  unfold assessPairComparability
  apply if_congr or_comm rfl
  apply if_congr ne_comm ?_ rfl
  apply if_congr ne_comm rfl
  apply if_congr ne_comm rfl
  apply if_congr ne_comm rfl
  apply if_congr ne_comm rfl
  apply if_congr ne_comm rfl
  exact if_congr ne_comm rfl rfl

/-- What the comparison of two runs depends on: both graphics hosts seen whole,
and the keys, which are the control fields where no text holds a separator. -/
theorem comparable_by_controls (left right : RuntimeBenchmarkRunV1 F) :
    (assessPairComparability left right = .comparable ↔
      left.hostGpu.completeness = "known" ∧ right.hostGpu.completeness = "known" ∧
        comparabilityKey left = comparabilityKey right) ∧
    assessPairComparability left right = assessPairComparability right left ∧
    (left.controls = right.controls → comparabilityKey left = comparabilityKey right) ∧
    (left.Plain → right.Plain →
      (comparabilityKey left = comparabilityKey right ↔ left.controls = right.controls)) := by
  refine ⟨assessPairComparability_eq_comparable, assessPairComparability_comm,
    comparabilityKey_of_controls, ?_⟩
  intro plain plain'
  exact ⟨comparabilityKey_inj plain plain', comparabilityKey_of_controls⟩

/-- A run on one card of the named completeness and driver. -/
def cardRun (completeness : String) (driver : Option String) : RuntimeBenchmarkRunV1 Nat where
  recordState := .samplesImported
  invalidReason := none
  attachedAt := "2026-01-01T00:00:00Z"
  serverToken := "s"
  arm := .a
  spec := ⟨1, "scene", "load", ⟨1920, 1080, true⟩, 10, 30, .cool⟩
  planId := "plan"
  prefixFingerprint := ⟨"d"⟩
  runnerKind := "wine"
  subject := .absent
  hostGpu := ⟨completeness, [⟨"card0", some "0x1", some "0x2", driver⟩]⟩
  flags := ⟨true, true⟩
  captureAdapter := .importedCsvV1
  samples := none
  visualCheck := .passed
  linkedOutcomeKind := none

theorem plainValue_driver {driver : String} (listed : driver ∈ ["amdgpu", "radeon"]) :
    PlainValue (some driver) := by
  simp only [List.mem_cons, List.not_mem_nil, or_false] at listed
  rcases listed with rfl | rfl
  all_goals
    rintro _ ⟨⟩
    decide

theorem cardRun_plain {driver : String} (plain : PlainValue (some driver)) :
    (cardRun "known" (some driver)).Plain where
  sceneId := (by decide : Without '|' "scene")
  loadDescriptor := (by decide : Without '|' "load")
  serverToken := (by decide : Without '|' "s")
  subject := trivial
  runnerKind := (by decide : Without '|' "wine")
  prefixDigest := (by decide : Without '|' "d")
  cards := by
    intro card mem
    obtain rfl := List.mem_singleton.mp mem
    refine ⟨(by decide : Without '|' "card0" ∧ Without ':' "card0"), ?_, ?_, plain⟩
    all_goals
      rintro _ ⟨⟩
      decide
  completeness := (by decide : Without '|' "known")

/-- A later run of the other arm is compared with the first one; a run with another driver
is not. -/
theorem comparable_by_controls_cardRun :
    let first := cardRun "known" (some "amdgpu")
    let later := { first with arm := .b, attachedAt := "2026-01-02T00:00:00Z" }
    let other := cardRun "known" (some "radeon")
    assessPairComparability first later = .comparable ∧
      assessPairComparability first other ≠ .comparable ∧
      comparabilityKey first ≠ comparabilityKey other := by
  intro first later other
  obtain ⟨comparable, -, same, -⟩ := comparable_by_controls first later
  obtain ⟨apart, -, -, exact⟩ := comparable_by_controls first other
  have keys := exact (cardRun_plain (plainValue_driver (by decide)))
    (cardRun_plain (plainValue_driver (by decide)))
  have differ : first.controls ≠ other.controls := by decide
  refine ⟨comparable.mpr ⟨rfl, rfl, same rfl⟩, fun together => ?_, mt keys.mp differ⟩
  exact differ (keys.mp (apart.mp together).2.2)

/-- A host that was not seen whole is not compared, not even with itself, and an
absent driver is written like an empty one. -/
theorem comparable_not_controls :
    (¬ ∀ left right : RuntimeBenchmarkRunV1 Nat,
      assessPairComparability left right = .comparable ↔ left.controls = right.controls) ∧
    ¬ ∀ left right : RuntimeBenchmarkRunV1 Nat,
      comparabilityKey left = comparabilityKey right ↔ left.controls = right.controls := by
  constructor
  · intro exact
    have comparable := (exact (cardRun "partial" none) (cardRun "partial" none)).mpr rfl
    rw [assessPairComparability_eq_comparable] at comparable
    exact absurd comparable.1 (by decide)
  · intro exact
    have same := (exact (cardRun "known" none) (cardRun "known" (some ""))).mp rfl
    exact absurd same (by decide)

end RoLauncher.Benchmark
