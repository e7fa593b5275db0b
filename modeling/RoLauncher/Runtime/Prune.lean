import Mathlib.Data.List.Basic
import Mathlib.Data.List.Nodup
import Mathlib.Data.List.TakeDrop
import RoLauncher.Text.Fields

/-!
# Records that are kept (`runtime/observation_store.rs`, `runtime/benchmark_store.rs`)

Both stores prune their directory after each write: records over an age go, and
then the oldest of those left over a number. The record just written is never
removed, but it counts: when it is itself among the oldest, one record too many
stays (`pruned_iff`).

A record is looked at for its identifier and its start, which is written as a
text; `instant` is what the text parses to. A file that is there can be removed.
-/

namespace RoLauncher.Runtime.Retention

structure Record where
  id : String
  startedAt : String
  deriving DecidableEq, Repr

/-- A file of the store's directory, and the record that it reads as. -/
structure File where
  name : String
  record : Option Record
  deriving DecidableEq, Repr

/-- A record and the name of its file. -/
abbrev Entry := String × Record

/-- What tells the stores apart: how the names of their files begin, and what
they keep. -/
structure Limits where
  start : String
  maxAge : Nat
  maxRecords : Nat

def observations : Limits := ⟨"obs-", 90 * 24 * 3600, 200⟩

def benchmarks : Limits := ⟨"run-", 90 * 24 * 3600, 100⟩

section Prune

variable (instant : String → Option Int) (limits : Limits) (now : Nat) (keepId : String)

def isRecordName (name : String) : Bool :=
  limits.start.toList.isPrefixOf name.toList && ".json".toList.isSuffixOf name.toList

def entryOf (file : File) : Option Entry :=
  if isRecordName limits file.name then file.record.map fun record => (file.name, record) else none

def records (files : List File) : List Entry := files.filterMap (entryOf limits)

/-- `quarantine_corrupt`, on the files that read as no record. -/
def quarantineCorrupt (millis : File → Nat) (file : File) : File :=
  if isRecordName limits file.name ∧ file.record = none then
    { file with name := file.name ++ ".corrupt-" ++ toString (millis file) }
  else file

/-- Whether a record is over the age; one whose start does not parse is not. -/
def isOld (record : Record) : Bool :=
  match instant record.startedAt with
  | some started => limits.maxAge < now - (max 0 (started / 1000000000)).toNat
  | none => false

/-- The order of the sort. -/
def inOrder (left right : Entry) : Bool :=
  left.2.startedAt < right.2.startedAt ∨
    left.2.startedAt = right.2.startedAt ∧ left.2.id ≤ right.2.id

def overAge (found : List Entry) : List Entry :=
  found.filter fun entry => entry.2.id ≠ keepId ∧ isOld instant limits now entry.2

/-- `records.retain(|(path, _)| path.exists())`. -/
def stillThere (found : List Entry) : List Entry :=
  found.filter fun entry => entry.1 ∉ (overAge instant limits now keepId found).map Prod.fst

/-- The first of the sorted records, as many as there are too many. -/
def oldest (left : List Entry) : List Entry :=
  (left.mergeSort inOrder).take (left.length - limits.maxRecords)

def overNumber (left : List Entry) : List Entry :=
  if left.length ≤ limits.maxRecords then []
  else (oldest limits left).filter fun entry => entry.2.id ≠ keepId

def prune (millis : File → Nat) (files : List File) : List File :=
  let found := records limits files
  let old := overAge instant limits now keepId found
  let excess := overNumber limits keepId (stillThere instant limits now keepId found)
  let removed := (old ++ excess).map Prod.fst
  (files.filter fun file => file.name ∉ removed).map (quarantineCorrupt limits millis)

end Prune

/-! ## What the stores hold -/

/-- A directory as the stores leave it: no two files of one name, and starts that
are written in one format, so that their texts order as their instants do. -/
structure Directory (instant : String → Option Int) (limits : Limits) where
  files : List File
  distinct : (files.map File.name).Nodup
  chronological : ∀ a ∈ records limits files, ∀ b ∈ records limits files, ∀ s t,
    instant a.2.startedAt = some s → instant b.2.startedAt = some t → s < t →
      a.2.startedAt < b.2.startedAt

section Order

variable {a b c : Entry}

theorem inOrder_iff : inOrder a b = true ↔
    a.2.startedAt < b.2.startedAt ∨ a.2.startedAt = b.2.startedAt ∧ a.2.id ≤ b.2.id := by
  simp [inOrder]

theorem inOrder_trans (first : inOrder a b = true) (second : inOrder b c = true) :
    inOrder a c = true := by
  rw [inOrder_iff] at first second ⊢
  rcases first with less | ⟨same, ids⟩
  · left
    rcases second with less' | ⟨same', -⟩
    · exact String.lt_trans less less'
    · rw [← same']
      exact less
  · rcases second with less' | ⟨same', ids'⟩
    · left
      rw [same]
      exact less'
    · right
      exact ⟨same.trans same', String.le_trans ids ids'⟩

theorem inOrder_total (a b : Entry) : (inOrder a b || inOrder b a) = true := by
  rw [Bool.or_eq_true, inOrder_iff, inOrder_iff]
  by_cases same : a.2.startedAt = b.2.startedAt
  · rcases String.le_total a.2.id b.2.id with le | le
    · exact Or.inl (Or.inr ⟨same, le⟩)
    · exact Or.inr (Or.inr ⟨same.symm, le⟩)
  · by_cases less : a.2.startedAt < b.2.startedAt
    · exact Or.inl (Or.inl less)
    · right
      left
      apply String.not_le.mp
      intro le
      exact same (String.le_antisymm le (String.not_lt.mp less))

theorem inOrder_refl (a : Entry) : inOrder a a = true :=
  inOrder_iff.mpr (Or.inr ⟨rfl, String.le_refl _⟩)

theorem sorted_oldest (left : List Entry) : (left.mergeSort inOrder).Pairwise (inOrder · ·) := by
  apply List.pairwise_mergeSort
  · intro a b c
    exact inOrder_trans
  · exact inOrder_total

/-- Of a sorted list, what is cut off before a place comes before what is left. -/
theorem take_before_drop {sorted : List Entry} (pairs : sorted.Pairwise (inOrder · ·)) {n : Nat}
    (cut : a ∈ sorted.take n) (left : b ∈ sorted.drop n) : inOrder a b = true := by
  rw [← List.take_append_drop n sorted, List.pairwise_append] at pairs
  exact pairs.2.2 a cut b left

/-- Two entries that are in order both ways have one start and one identifier. -/
theorem same_of_inOrder (first : inOrder a b = true) (second : inOrder b a = true) :
    a.2.id = b.2.id := by
  rw [inOrder_iff] at first second
  rcases first with less | ⟨same, ids⟩
  · rcases second with less' | ⟨same', -⟩
    · exact absurd (String.lt_trans less less') (String.lt_irrefl _)
    · rw [same'] at less
      exact absurd less (String.lt_irrefl _)
  · rcases second with less' | ⟨-, ids'⟩
    · rw [same] at less'
      exact absurd less' (String.lt_irrefl _)
    · exact String.le_antisymm ids ids'

end Order

/-! ## What pruning leaves -/

section Left

variable {limits : Limits} {files : List File} {found left : List Entry}

theorem entryOf_name {file : File} {entry : Entry} (same : entryOf limits file = some entry) :
    entry.1 = file.name := by
  unfold entryOf at same
  split at same
  next =>
    obtain ⟨record, -, rfl⟩ := Option.map_eq_some_iff.mp same
    rfl
  next => cases same

theorem records_filter (keep : String → Bool) :
    records limits (files.filter fun file => keep file.name) =
      (records limits files).filter fun entry => keep entry.1 := by
  unfold records
  induction files with
  | nil => rfl
  | cons file files ih =>
    cases same : entryOf limits file with
    | none =>
      rw [List.filterMap_cons_none same, ← ih, List.filter_cons]
      split
      next => rw [List.filterMap_cons_none same]
      next => rfl
    | some entry =>
      rw [List.filterMap_cons_some same, List.filter_cons, List.filter_cons, entryOf_name same]
      split
      next => rw [List.filterMap_cons_some same, ih]
      next => exact ih

/-- A file that is set aside reads as no record under either name. -/
theorem entryOf_quarantineCorrupt (millis : File → Nat) (file : File) :
    entryOf limits (quarantineCorrupt limits millis file) = entryOf limits file := by
  unfold quarantineCorrupt
  split
  next corrupt =>
    unfold entryOf
    rw [if_pos corrupt.1, corrupt.2]
    split
    next => rfl
    next => rfl
  next => rfl

theorem records_quarantineCorrupt (millis : File → Nat) :
    records limits (files.map (quarantineCorrupt limits millis)) = records limits files := by
  unfold records
  rw [List.filterMap_map]
  apply List.filterMap_congr
  intro file _
  exact entryOf_quarantineCorrupt millis file

theorem records_distinct (distinct : (files.map File.name).Nodup) :
    ((records limits files).map Prod.fst).Nodup := by
  have sub : ((records limits files).map Prod.fst).Sublist (files.map File.name) := by
    unfold records
    induction files with
    | nil => exact List.Sublist.refl _
    | cons file files ih =>
      have rest := ih (List.nodup_cons.mp distinct).2
      cases same : entryOf limits file with
      | none =>
        rw [List.filterMap_cons_none same]
        exact rest.cons _
      | some entry =>
        rw [List.filterMap_cons_some same, List.map_cons, List.map_cons, entryOf_name same]
        exact rest.cons_cons _
  exact distinct.sublist sub

/-- Among entries of different names, a name tells whether an entry is of a part. -/
theorem name_mem_iff (distinct : (found.map Prod.fst).Nodup) {part : List Entry}
    (sub : ∀ entry ∈ part, entry ∈ found) {entry : Entry} (mem : entry ∈ found) :
    entry.1 ∈ part.map Prod.fst ↔ entry ∈ part := by
  constructor
  · intro named
    obtain ⟨other, inPart, same⟩ := List.mem_map.mp named
    rw [← List.inj_on_of_nodup_map distinct (sub other inPart) mem same]
    exact inPart
  · intro inPart
    exact List.mem_map_of_mem inPart

/-- The records that are not removed for their age. -/
def remaining (instant : String → Option Int) (limits : Limits) (now : Nat) (keepId : String)
    (found : List Entry) : List Entry :=
  found.filter fun entry => entry.2.id = keepId ∨ isOld instant limits now entry.2 = false

variable {instant : String → Option Int} {now : Nat} {keepId : String}

theorem mem_overAge {entry : Entry} : entry ∈ overAge instant limits now keepId found ↔
    entry ∈ found ∧ ¬(entry.2.id = keepId ∨ isOld instant limits now entry.2 = false) := by
  simp [overAge]

theorem stillThere_eq (distinct : (found.map Prod.fst).Nodup) :
    stillThere instant limits now keepId found = remaining instant limits now keepId found := by
  unfold stillThere remaining
  apply List.filter_congr
  intro entry mem
  have sub : ∀ other ∈ overAge instant limits now keepId found, other ∈ found :=
    fun other old => (mem_overAge.mp old).1
  have named := name_mem_iff distinct sub mem
  rw [decide_eq_decide, named, mem_overAge]
  constructor
  · intro young
    by_contra old
    exact young ⟨mem, old⟩
  · intro young old
    exact old.2 young

theorem overNumber_eq : overNumber limits keepId left =
    (oldest limits left).filter fun entry => entry.2.id ≠ keepId := by
  unfold overNumber
  split
  next few =>
    have none : left.length - limits.maxRecords = 0 := by omega
    rw [oldest, none, List.take_zero, List.filter_nil]
  next => rfl

theorem mem_of_oldest {entry : Entry} (mem : entry ∈ oldest limits left) : entry ∈ left :=
  List.mem_mergeSort.mp (List.mem_of_mem_take mem)

theorem mem_overNumber {entry : Entry} : entry ∈ overNumber limits keepId left ↔
    entry ∈ oldest limits left ∧ entry.2.id ≠ keepId := by
  simp [overNumber_eq]

/-- What is left of the records after pruning. -/
theorem records_prune (distinct : (files.map File.name).Nodup) (millis : File → Nat) :
    records limits (prune instant limits now keepId millis files) =
      (remaining instant limits now keepId (records limits files)).filter fun entry =>
        entry ∉ overNumber limits keepId
          (remaining instant limits now keepId (records limits files)) := by
  have names := @records_distinct limits _ distinct
  unfold prune
  dsimp only
  rw [records_quarantineCorrupt, stillThere_eq names]
  rw [records_filter fun name => decide (name ∉ _)]
  generalize records limits files = found at names ⊢
  rw [remaining, List.filter_filter, ← remaining]
  apply List.filter_congr
  intro entry mem
  have inFound : ∀ other ∈ overAge instant limits now keepId found ++
      overNumber limits keepId (remaining instant limits now keepId found), other ∈ found := by
    intro other part
    rcases List.mem_append.mp part with old | excess
    · exact (mem_overAge.mp old).1
    · exact List.mem_of_mem_filter (mem_of_oldest (mem_overNumber.mp excess).1)
  rw [← Bool.decide_and, decide_eq_decide, name_mem_iff names inFound mem, List.mem_append,
    mem_overAge]
  constructor
  · intro stays
    refine ⟨fun excess => stays (Or.inr excess), ?_⟩
    by_contra old
    exact stays (Or.inl ⟨mem, old⟩)
  · rintro ⟨under, young⟩ (⟨-, old⟩ | excess)
    · exact old young
    · exact under excess

end Left

/-! ## How many are left -/

section Count

variable {limits : Limits} {left : List Entry} {keepId : String}

theorem length_oldest : (oldest limits left).length = left.length - limits.maxRecords := by
  rw [oldest, List.length_take, List.length_mergeSort]
  omega

/-- The kept records among the oldest are over the number. -/
theorem length_left (nodup : left.Nodup) :
    (left.filter fun entry => entry ∉ overNumber limits keepId left).length =
      min left.length limits.maxRecords +
        ((oldest limits left).filter fun entry => entry.2.id = keepId).length := by
  have nodupOldest : (oldest limits left).Nodup :=
    ((left.mergeSort_perm inOrder).nodup_iff.mpr nodup).sublist (List.take_sublist _ _)
  have same : (left.filter fun entry => entry ∈ overNumber limits keepId left).Perm
      (overNumber limits keepId left) := by
    rw [List.perm_ext_iff_of_nodup (nodup.filter _) (overNumber_eq ▸ nodupOldest.filter _)]
    intro entry
    simp only [List.mem_filter, decide_eq_true_eq, and_iff_right_iff_imp]
    intro excess
    exact mem_of_oldest (mem_overNumber.mp excess).1
  have split := left.length_eq_length_filter_add fun entry =>
    decide (entry ∈ overNumber limits keepId left)
  have cut := (oldest limits left).length_eq_length_filter_add fun entry =>
    decide (entry.2.id = keepId)
  have excess : (overNumber limits keepId left).length =
      ((oldest limits left).filter fun entry => !decide (entry.2.id = keepId)).length := by
    rw [overNumber_eq]
    simp only [ne_eq, decide_not]
  rw [same.length_eq, excess] at split
  rw [length_oldest] at cut
  simp only [decide_not]
  omega

/-- A kept record is among the oldest when enough records start with it or after. -/
theorem kept_among_oldest_iff : (∃ entry ∈ oldest limits left, entry.2.id = keepId) ↔
    ∃ kept ∈ left, kept.2.id = keepId ∧
      limits.maxRecords < (left.filter fun entry => inOrder kept entry).length := by
  have perm := left.mergeSort_perm inOrder
  have pairs : (left.mergeSort inOrder).Pairwise (inOrder · ·) := sorted_oldest left
  have parts (kept : Entry) : (left.filter fun entry => inOrder kept entry).length =
      ((oldest limits left).filter fun entry => inOrder kept entry).length +
        (((left.mergeSort inOrder).drop (left.length - limits.maxRecords)).filter
          fun entry => inOrder kept entry).length := by
    have same := (perm.filter fun entry => inOrder kept entry).length_eq
    rw [← same, oldest, ← List.length_append, ← List.filter_append, List.take_append_drop]
  have length : ((left.mergeSort inOrder).drop (left.length - limits.maxRecords)).length =
      min left.length limits.maxRecords := by
    rw [List.length_drop, List.length_mergeSort]
    omega
  constructor
  · rintro ⟨kept, old, named⟩
    refine ⟨kept, mem_of_oldest old, named, ?_⟩
    have later : ∀ entry ∈ (left.mergeSort inOrder).drop (left.length - limits.maxRecords),
        inOrder kept entry = true := fun entry mem => take_before_drop pairs old mem
    have itself : 0 < ((oldest limits left).filter fun entry => inOrder kept entry).length :=
      List.length_pos_of_mem (List.mem_filter.mpr ⟨old, inOrder_refl kept⟩)
    have excess : 0 < left.length - limits.maxRecords :=
      @length_oldest limits left ▸ List.length_pos_of_mem old
    rw [parts, List.filter_eq_self.mpr later, length]
    omega
  · rintro ⟨kept, mem, named, many⟩
    by_contra none
    have cut : (oldest limits left).filter (fun entry => inOrder kept entry) = [] := by
      rw [List.filter_eq_nil_iff]
      intro entry old after
      apply none
      refine ⟨entry, old, ?_⟩
      have inSorted : kept ∈ left.mergeSort inOrder := List.mem_mergeSort.mpr mem
      rw [← List.take_append_drop (left.length - limits.maxRecords) (left.mergeSort inOrder),
        List.mem_append] at inSorted
      rcases inSorted with old' | later
      · exact absurd ⟨kept, old', named⟩ none
      · rw [same_of_inOrder (take_before_drop pairs old later) after]
        exact named
    have few := List.length_filter_le (fun entry => inOrder kept entry)
      ((left.mergeSort inOrder).drop (left.length - limits.maxRecords))
    rw [parts, cut, List.length_nil] at many
    omega

end Count

/-! ## What pruning promises -/

/-- The kept record is there, no more than the number are; what went was over the age or
had the number of others that start with it or after, and what went for the number is
not newer than what stays. -/
structure Pruned (instant : String → Option Int) (limits : Limits) (now : Nat) (keepId : String)
    (before after : List File) : Prop where
  kept : ∀ entry ∈ records limits before, entry.2.id = keepId → entry ∈ records limits after
  few : (records limits after).length ≤ limits.maxRecords
  old : ∀ entry ∈ records limits before, entry ∉ records limits after →
    isOld instant limits now entry.2 ∨
      limits.maxRecords ≤ ((remaining instant limits now keepId (records limits before)).filter
        fun other => other ≠ entry ∧ inOrder entry other).length
  oldest : ∀ entry ∈ records limits before, entry ∉ records limits after →
    isOld instant limits now entry.2 = false →
      ∀ other ∈ records limits after, other.2.id ≠ keepId →
        ∀ s t, instant entry.2.startedAt = some s → instant other.2.startedAt = some t → s ≤ t

/-- Of the records not over the age, more than the number start with a kept one or after. -/
def Crowded (instant : String → Option Int) (limits : Limits) (now : Nat) (keepId : String)
    (files : List File) : Prop :=
  ∃ kept ∈ remaining instant limits now keepId (records limits files), kept.2.id = keepId ∧
    limits.maxRecords < ((remaining instant limits now keepId (records limits files)).filter
      fun entry => inOrder kept entry).length

section Promise

variable {instant : String → Option Int} {limits : Limits} (directory : Directory instant limits)
  (now : Nat) (keepId : String) (millis : File → Nat)

theorem Directory.nodup :
    (remaining instant limits now keepId (records limits directory.files)).Nodup :=
  ((records_distinct directory.distinct).of_map _).filter _

theorem Directory.crowded_iff : Crowded instant limits now keepId directory.files ↔
    ∃ entry ∈ oldest limits (remaining instant limits now keepId (records limits directory.files)),
      entry.2.id = keepId :=
  kept_among_oldest_iff.symm

/-- A record that goes is over the age or over the number. -/
theorem Directory.gone {entry : Entry} (mem : entry ∈ records limits directory.files)
    (gone : entry ∉ records limits (prune instant limits now keepId millis directory.files)) :
    isOld instant limits now entry.2 = true ∨ entry ∈ overNumber limits keepId
      (remaining instant limits now keepId (records limits directory.files)) := by
  rw [records_prune directory.distinct] at gone
  by_cases young : isOld instant limits now entry.2 = false
  · right
    by_contra under
    apply gone
    apply List.mem_filter.mpr
    exact ⟨List.mem_filter.mpr ⟨mem, decide_eq_true (Or.inr young)⟩, decide_eq_true under⟩
  · exact Or.inl (Bool.not_eq_false _ ▸ young)

theorem Directory.kept_stays {entry : Entry} (mem : entry ∈ records limits directory.files)
    (named : entry.2.id = keepId) :
    entry ∈ records limits (prune instant limits now keepId millis directory.files) := by
  rw [records_prune directory.distinct]
  apply List.mem_filter.mpr
  refine ⟨List.mem_filter.mpr ⟨mem, decide_eq_true (Or.inl named)⟩, decide_eq_true ?_⟩
  intro excess
  exact (mem_overNumber.mp excess).2 named

/-- More than the number stay exactly when a kept record is among the oldest. -/
theorem Directory.few_iff :
    (records limits (prune instant limits now keepId millis directory.files)).length ≤
      limits.maxRecords ↔ ¬ Crowded instant limits now keepId directory.files := by
  rw [records_prune directory.distinct, length_left (directory.nodup now keepId),
    directory.crowded_iff]
  generalize remaining instant limits now keepId (records limits directory.files) = left
  have length := @length_oldest limits left
  constructor
  · rintro few ⟨entry, old, named⟩
    have one := List.length_pos_of_mem
      (List.mem_filter.mpr ⟨old, decide_eq_true named⟩ :
        entry ∈ (oldest limits left).filter fun entry => entry.2.id = keepId)
    have some := List.length_pos_of_mem old
    omega
  · intro none
    have cut : (oldest limits left).filter (fun entry => entry.2.id = keepId) = [] := by
      rw [List.filter_eq_nil_iff]
      intro entry old named
      exact none ⟨entry, old, of_decide_eq_true named⟩
    rw [cut, List.length_nil]
    omega

/-- A record among the oldest has the number of others behind it. -/
theorem behind_oldest {left : List Entry} (nodup : left.Nodup) {entry : Entry}
    (old : entry ∈ oldest limits left) : limits.maxRecords ≤
      (left.filter fun other => other ≠ entry ∧ inOrder entry other).length := by
  have perm := left.mergeSort_perm inOrder
  have parts := List.take_append_drop (left.length - limits.maxRecords) (left.mergeSort inOrder)
  have disjoint : ((left.mergeSort inOrder).take (left.length - limits.maxRecords)).Disjoint
      ((left.mergeSort inOrder).drop (left.length - limits.maxRecords)) := by
    have whole := perm.nodup_iff.mpr nodup
    rw [← parts] at whole
    exact List.disjoint_of_nodup_append whole
  have later : ∀ other ∈ (left.mergeSort inOrder).drop (left.length - limits.maxRecords),
      decide (other ≠ entry ∧ inOrder entry other) = true := by
    intro other mem
    apply decide_eq_true
    refine ⟨?_, take_before_drop (sorted_oldest left) old mem⟩
    rintro rfl
    exact disjoint old mem
  have some := List.length_pos_of_mem old
  rw [length_oldest] at some
  have length : ((left.mergeSort inOrder).drop (left.length - limits.maxRecords)).length =
      (left.mergeSort inOrder).length - (left.length - limits.maxRecords) := List.length_drop
  rw [List.length_mergeSort] at length
  have sub := ((List.drop_sublist (left.length - limits.maxRecords)
    (left.mergeSort inOrder)).filter fun other => other ≠ entry ∧ inOrder entry other).length_le
  have same := (perm.filter fun other => other ≠ entry ∧ inOrder entry other).length_eq
  rw [List.filter_eq_self.mpr later] at sub
  omega

/-- What goes for the number starts no later than what stays. -/
theorem Directory.no_older {entry other : Entry} (mem : entry ∈ records limits directory.files)
    (excess : entry ∈ overNumber limits keepId
      (remaining instant limits now keepId (records limits directory.files)))
    (stays : other ∈ records limits (prune instant limits now keepId millis directory.files))
    (unkept : other.2.id ≠ keepId) (s t : Int) (first : instant entry.2.startedAt = some s)
    (second : instant other.2.startedAt = some t) : s ≤ t := by
  rw [records_prune directory.distinct] at stays
  obtain ⟨left, under⟩ := List.mem_filter.mp stays
  have there : other ∈ records limits directory.files := List.mem_of_mem_filter left
  generalize remaining instant limits now keepId (records limits directory.files) = found
    at excess left under
  have old := (mem_overNumber.mp excess).1
  have sorted : other ∈ found.mergeSort inOrder := List.mem_mergeSort.mpr left
  rw [← List.take_append_drop (found.length - limits.maxRecords) (found.mergeSort inOrder),
    List.mem_append] at sorted
  rcases sorted with cut | later
  · exact absurd (mem_overNumber.mpr ⟨cut, unkept⟩) (of_decide_eq_true under)
  · have after := take_before_drop (sorted_oldest found) old later
    by_contra newer
    have before := directory.chronological other there entry mem t s second first (by omega)
    rcases inOrder_iff.mp after with less | ⟨same, -⟩
    · exact absurd (String.lt_trans less before) (String.lt_irrefl _)
    · rw [same] at before
      exact absurd before (String.lt_irrefl _)

/-- **Pruning** does what it promises exactly when fewer than the number start after the kept
record. -/
theorem pruned_iff : Pruned instant limits now keepId directory.files
      (prune instant limits now keepId millis directory.files) ↔
    ¬ Crowded instant limits now keepId directory.files := by
  rw [← directory.few_iff now keepId millis]
  constructor
  · exact Pruned.few
  · intro few
    refine ⟨fun entry => directory.kept_stays now keepId millis, few, ?_, ?_⟩
    · intro entry mem gone
      rcases directory.gone now keepId millis mem gone with old | excess
      · exact Or.inl old
      · exact Or.inr (behind_oldest (directory.nodup now keepId) (mem_overNumber.mp excess).1)
    · intro entry mem gone young other stays unkept s t
      rcases directory.gone now keepId millis mem gone with old | excess
      · rw [young] at old
        cases old
      · exact directory.no_older now keepId millis mem excess stays unkept s t

end Promise

/-- Both stores keep their promise exactly when the kept record is not crowded. -/
theorem stores_pruned_iff (instant : String → Option Int) (now : Nat) (keepId : String)
    (millis : File → Nat) :
    (∀ directory : Directory instant observations,
      Pruned instant observations now keepId directory.files
          (prune instant observations now keepId millis directory.files) ↔
        ¬ Crowded instant observations now keepId directory.files) ∧
    (∀ directory : Directory instant benchmarks,
      Pruned instant benchmarks now keepId directory.files
          (prune instant benchmarks now keepId millis directory.files) ↔
        ¬ Crowded instant benchmarks now keepId directory.files) :=
  ⟨fun directory => pruned_iff directory now keepId millis,
    fun directory => pruned_iff directory now keepId millis⟩

/-! ### The first of 201 observations -/

def firstDay : String := "2026-01-01T00:00:00+00:00"

def secondDay : String := "2026-01-02T00:00:00+00:00"

def sampleInstant (text : String) : Option Int :=
  if text = firstDay then some 1767225600000000000
  else if text = secondDay then some 1767312000000000000
  else none

/-- The first was started a day before the others. -/
def sampleRecord (n : Nat) : Record := ⟨n.repr, if n = 0 then firstDay else secondDay⟩

def sampleFile (n : Nat) : File := ⟨"obs-" ++ n.repr ++ ".json", some (sampleRecord n)⟩

theorem entryOf_sampleFile (n : Nat) : entryOf observations (sampleFile n) =
    some ("obs-" ++ n.repr ++ ".json", sampleRecord n) := by
  have named : isRecordName observations ("obs-" ++ n.repr ++ ".json") = true := by
    unfold isRecordName
    rw [Bool.and_eq_true, List.isPrefixOf_iff_prefix, List.isSuffixOf_iff_suffix,
      String.toList_append, String.toList_append, List.append_assoc]
    exact ⟨List.prefix_append _ _, List.append_assoc _ _ _ ▸ List.suffix_append _ _⟩
  exact if_pos named

theorem records_sample (count : Nat) :
    records observations ((List.range count).map sampleFile) =
      (List.range count).map fun n => ("obs-" ++ n.repr ++ ".json", sampleRecord n) := by
  unfold records
  rw [List.filterMap_map, ← List.filterMap_eq_map]
  apply List.filterMap_congr
  intro n _
  exact entryOf_sampleFile n

def sampleDirectory (count : Nat) : Directory sampleInstant observations where
  files := (List.range count).map sampleFile
  distinct := by
    rw [List.map_map]
    apply List.Nodup.map _ List.nodup_range
    intro n m same
    have names : "obs-" ++ n.repr ++ ".json" = "obs-" ++ m.repr ++ ".json" := same
    rw [String.append_left_inj, String.append_right_inj] at names
    exact Text.toString_nat_inj names
  chronological := by
    rw [records_sample]
    intro a first b second s t
    obtain ⟨n, -, rfl⟩ := List.mem_map.mp first
    obtain ⟨m, -, rfl⟩ := List.mem_map.mp second
    dsimp only [sampleRecord]
    intro start start' less
    by_cases zero : n = 0
    · by_cases zero' : m = 0
      · rw [if_pos zero] at start
        rw [if_pos zero', start] at start'
        cases start'
        exact absurd less (Int.lt_irrefl _)
      · rw [if_pos zero, if_neg zero']
        decide
    · exfalso
      rw [if_neg zero] at start
      have late : sampleInstant secondDay = some 1767312000000000000 := by decide
      have early : sampleInstant firstDay = some 1767225600000000000 := by decide
      rw [late] at start
      cases start
      by_cases zero' : m = 0
      · rw [if_pos zero', early] at start'
        cases start'
        exact absurd less (by decide)
      · rw [if_neg zero', late] at start'
        cases start'
        exact absurd less (Int.lt_irrefl _)

theorem sample_crowded : Crowded sampleInstant observations 1767400000 (Nat.repr 0)
    (sampleDirectory 201).files := by
  have young (n : Nat) : isOld sampleInstant observations 1767400000 (sampleRecord n) = false := by
    have first : isOld sampleInstant observations 1767400000 ⟨"", firstDay⟩ = false := by decide
    have second : isOld sampleInstant observations 1767400000 ⟨"", secondDay⟩ = false := by decide
    unfold sampleRecord
    split
    · exact first
    · exact second
  have all : remaining sampleInstant observations 1767400000 (Nat.repr 0)
      (records observations (sampleDirectory 201).files) =
      (List.range 201).map fun n => ("obs-" ++ n.repr ++ ".json", sampleRecord n) := by
    rw [sampleDirectory, records_sample]
    apply List.filter_eq_self.mpr
    intro entry mem
    obtain ⟨n, -, rfl⟩ := List.mem_map.mp mem
    exact decide_eq_true (Or.inr (young n))
  refine ⟨("obs-" ++ Nat.repr 0 ++ ".json", sampleRecord 0), ?_, rfl, ?_⟩
  · rw [all]
    exact List.mem_map.mpr ⟨0, List.mem_range.mpr (by decide), rfl⟩
  · rw [all, List.filter_eq_self.mpr, List.length_map, List.length_range]
    · decide
    · intro entry mem
      obtain ⟨n, -, rfl⟩ := List.mem_map.mp mem
      rw [inOrder_iff]
      by_cases zero : n = 0
      · subst zero
        exact Or.inr ⟨rfl, String.le_refl _⟩
      · left
        dsimp only [sampleRecord]
        rw [if_pos rfl, if_neg zero]
        decide

/-- The observation that is written is the oldest of 201, and all of them stay. -/
theorem one_record_too_many : ¬ Pruned sampleInstant observations 1767400000 (Nat.repr 0)
    (sampleDirectory 201).files
    (prune sampleInstant observations 1767400000 (Nat.repr 0) (fun _ => 0)
      (sampleDirectory 201).files) := by
  intro pruned
  exact ((sampleDirectory 201).few_iff 1767400000 (Nat.repr 0) fun _ => 0).mp pruned.few
    sample_crowded

end RoLauncher.Runtime.Retention
