import Mathlib.Data.List.AList

/-!
# Tables

Association lists with one value a key: what a search through the values finds,
and a change of every value at once, in terms of the look-ups.
-/

namespace RoLauncher.Tables

variable {κ α : Type} [DecidableEq κ]

abbrev Table (κ α : Type) := AList fun _ : κ => α

namespace Table

/-- Some entry passes the test. -/
def any (table : Table κ α) (test : κ → α → Bool) : Bool :=
  table.entries.any fun entry => test entry.1 entry.2

theorem any_eq_true {table : Table κ α} {test : κ → α → Bool} :
    table.any test = true ↔ ∃ k v, table.lookup k = some v ∧ test k v = true := by
  rw [any, List.any_eq_true]
  constructor
  · rintro ⟨⟨k, v⟩, mem, passed⟩
    exact ⟨k, v, AList.mem_lookup_iff.mpr mem, passed⟩
  · rintro ⟨k, v, found, passed⟩
    exact ⟨⟨k, v⟩, AList.mem_lookup_iff.mp found, passed⟩

theorem any_eq_false {table : Table κ α} {test : κ → α → Bool} :
    table.any test = false ↔ ∀ k v, table.lookup k = some v → test k v = false := by
  rw [Bool.eq_false_iff, ne_eq, any_eq_true]
  push Not
  simp only [ne_eq, Bool.not_eq_true]

/-- An entry whose value passes the test. -/
def findEntry (table : Table κ α) (test : α → Bool) : Option (κ × α) :=
  (table.entries.find? fun entry => test entry.2).map fun entry => (entry.1, entry.2)

theorem findEntry_eq_some {table : Table κ α} {test : α → Bool} {k : κ} {v : α}
    (h : table.findEntry test = some (k, v)) : table.lookup k = some v ∧ test v = true := by
  obtain ⟨⟨k, v⟩, found, same⟩ := Option.map_eq_some_iff.mp h
  cases same
  exact ⟨AList.mem_lookup_iff.mpr (List.mem_of_find?_eq_some found),
    List.find?_some (p := fun entry : (_ : κ) × α => test entry.2) found⟩

/-- Change every value. -/
def mapValues (table : Table κ α) (f : α → α) : Table κ α :=
  ⟨table.entries.map (.map id fun _ => f), List.NodupKeys.map₂ _ _ table.nodupKeys⟩

@[simp] theorem lookup_mapValues (table : Table κ α) (f : α → α) (k : κ) :
    (table.mapValues f).lookup k = (table.lookup k).map f := List.dlookup_map₂ k

theorem entries_eq_nil_iff {table : Table κ α} :
    table.entries = [] ↔ ∀ k, table.lookup k = none := by
  constructor
  · intro empty k
    exact AList.lookup_eq_none.mpr (by rw [AList.mem_keys, AList.keys, empty]; exact nofun)
  · intro none
    refine List.eq_nil_iff_forall_not_mem.mpr fun entry mem => ?_
    have found := AList.mem_lookup_iff.mpr (show ⟨entry.1, entry.2⟩ ∈ table.entries from mem)
    rw [none] at found
    cases found

@[grind =] theorem lookup_insert_of (table : Table κ α) (k k' : κ) (v : α) :
    (table.insert k v).lookup k' = if k' = k then some v else table.lookup k' := by
  split
  next same => rw [same, AList.lookup_insert]
  next other => exact AList.lookup_insert_ne other

@[grind =] theorem lookup_erase_of (table : Table κ α) (k k' : κ) :
    (table.erase k).lookup k' = if k' = k then none else table.lookup k' := by
  split
  next same => rw [same, AList.lookup_erase]
  next other => exact AList.lookup_erase_ne other

/-! ## Counting -/

/-- How many values pass the test. -/
def count (test : α → Bool) (table : Table κ α) : Nat :=
  table.entries.countP fun entry => test entry.2

theorem count_insert {test : α → Bool} {table : Table κ α} {k : κ} (v : α)
    (new : table.lookup k = none) :
    count test (table.insert k v) = count test table + if test v then 1 else 0 := by
  rw [count, AList.entries_insert_of_notMem (AList.lookup_eq_none.mp new), List.countP_cons]
  rfl

theorem count_erase {test : α → Bool} {table : Table κ α} {k : κ} {v : α}
    (found : table.lookup k = some v) :
    count test table = count test (table.erase k) + if test v then 1 else 0 := by
  obtain ⟨entries, distinct⟩ := table
  have key : ∀ entries : List ((_ : κ) × α), entries.dlookup k = some v →
      (entries.countP fun entry => test entry.2) =
        ((entries.kerase k).countP fun entry => test entry.2) + if test v then 1 else 0 := by
    intro entries found
    induction entries with
    | nil => cases found
    | cons entry entries ih =>
      obtain ⟨k', v'⟩ := entry
      by_cases same : k = k'
      · subst same
        rw [List.dlookup_cons_eq] at found
        cases found
        rw [List.kerase_cons_eq (show k = (⟨k, v⟩ : (_ : κ) × α).1 from rfl), List.countP_cons]
      · rw [List.dlookup_cons_ne _ _ same] at found
        rw [List.kerase_cons_ne same, List.countP_cons, List.countP_cons, ih found]
        omega
  exact key entries found

/-! ## Values that do not clash -/

/-- No two entries of the table clash. -/
def Apart (clash : α → α → Prop) (table : Table κ α) : Prop :=
  ∀ k k' v v', table.lookup k = some v → table.lookup k' = some v' → clash v v' → k = k'

variable {clash : α → α → Prop} {table : Table κ α}

theorem apart_empty : Apart clash (∅ : Table κ α) := by
  intro k k' v v' found
  rw [AList.lookup_empty] at found
  cases found

theorem Apart.insert (symm : ∀ a b, clash a b → clash b a) (h : Apart clash table) {k : κ} {v : α}
    (new : ∀ k' v', table.lookup k' = some v' → k' ≠ k → ¬ clash v' v) :
    Apart clash (table.insert k v) := by
  intro k₁ k₂ v₁ v₂ found₁ found₂ both
  rw [lookup_insert_of] at found₁ found₂
  split at found₁ <;> split at found₂
  next same₁ same₂ => rw [same₁, same₂]
  next same₁ other₂ =>
    cases found₁
    exact absurd (symm _ _ both) (new k₂ v₂ found₂ other₂)
  next other₁ same₂ =>
    cases found₂
    exact absurd both (new k₁ v₁ found₁ other₁)
  next => exact h k₁ k₂ v₁ v₂ found₁ found₂ both

theorem Apart.erase (h : Apart clash table) (k : κ) : Apart clash (table.erase k) := by
  intro k₁ k₂ v₁ v₂ found₁ found₂
  rw [lookup_erase_of] at found₁ found₂
  split at found₁
  next => cases found₁
  split at found₂
  next => cases found₂
  exact h k₁ k₂ v₁ v₂ found₁ found₂

theorem Apart.mapValues (h : Apart clash table) {f : α → α}
    (kept : ∀ a b, clash (f a) (f b) → clash a b) : Apart clash (table.mapValues f) := by
  intro k₁ k₂ v₁ v₂ found₁ found₂ both
  rw [lookup_mapValues] at found₁ found₂
  obtain ⟨w₁, here₁, rfl⟩ := Option.map_eq_some_iff.mp found₁
  obtain ⟨w₂, here₂, rfl⟩ := Option.map_eq_some_iff.mp found₂
  exact h k₁ k₂ w₁ w₂ here₁ here₂ (kept _ _ both)

end Table

end RoLauncher.Tables
