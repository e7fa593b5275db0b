import Mathlib.Data.Set.Insert
import Mathlib.Tactic.Common
import RoLauncher.Results.Joins

/-!
# Entries that several contribute

An ordered map to which an entry is added if its key is free or has the same value
already; otherwise the key is contested. Two such maps are merged by contributing the
entries of one to the other, in the order of their keys. What they say is their
entries, and merging joins them (`Contributions.joins`).
-/

namespace RoLauncher.Tables

open Results

/-- A map in the order of its keys. -/
abbrev BTreeMap (κ α : Type) [Ord κ] := Std.ExtTreeMap κ α compare

variable {κ α : Type} [Ord κ] [Std.TransOrd κ] [Std.LawfulEqOrd κ]

/-- Entries that all fit. -/
structure Contributions (κ α : Type) [Ord κ] [Std.TransOrd κ] [Std.LawfulEqOrd κ]
    (fits : κ → α → Prop) where
  entries : BTreeMap κ α
  all : ∀ {key value}, entries[key]? = some value → fits key value

namespace Contributions

variable {fits : κ → α → Prop}

def empty : Contributions κ α fits where
  entries := ∅
  all never := by simp at never

/-- What the entries say. -/
def facts (c : Contributions κ α fits) : Set (κ × α) := {entry | c.entries[entry.1]? = some entry.2}

theorem eq_of_facts {c d : Contributions κ α fits} (same : c.facts = d.facts) : c = d := by
  have entries : c.entries = d.entries := by
    apply Std.ExtTreeMap.ext_getElem?
    intro key
    ext value
    exact Set.ext_iff.mp same (key, value)
  cases c
  cases d
  cases entries
  rfl

theorem mem_toList {c : Contributions κ α fits} {entry : κ × α} :
    entry ∈ c.entries.toList ↔ entry ∈ c.facts :=
  Std.ExtTreeMap.mem_toList_iff_getElem?_eq_some

variable [DecidableEq α] [∀ key value, Decidable (fits key value)]

/-- Adds an entry, or reports the key that is contested or does not fit. -/
def contribute (c : Contributions κ α fits) (key : κ) (value : α) : Except κ (Contributions κ α fits) :=
  if fit : fits key value then
    match c.entries[key]? with
    | none => .ok {
        entries := c.entries.insert key value
        all := by
          intro other found has
          rw [Std.ExtTreeMap.getElem?_insert] at has
          split at has
          next same =>
            cases has
            cases Std.LawfulEqOrd.eq_of_compare same
            exact fit
          next => exact c.all has }
    | some existing => if existing = value then .ok c else .error key
  else .error key

/-- The entries of the second are contributed to the first. -/
def merge (first second : Contributions κ α fits) : Except κ (Contributions κ α fits) :=
  second.entries.toList.foldlM (fun c entry => c.contribute entry.1 entry.2) first

theorem facts_of_contribute {c d : Contributions κ α fits} {key : κ} {value : α}
    (done : c.contribute key value = .ok d) : d.facts = c.facts ∪ {(key, value)} := by
  unfold contribute at done
  split at done
  next fit =>
    split at done
    next free =>
      cases done
      ext entry
      obtain ⟨other, found⟩ := entry
      simp only [facts, Set.mem_ofPred_eq, Set.mem_union, Set.mem_singleton_iff, Prod.mk.injEq,
        Std.ExtTreeMap.getElem?_insert, Std.compare_eq_iff_eq]
      grind
    next existing taken =>
      split at done
      next same =>
        cases done
        cases same
        symm
        apply Set.union_eq_self_of_subset_right
        rw [Set.singleton_subset_iff]
        exact taken
      next => cases done
  next => cases done

theorem contribute_of_facts {c d : Contributions κ α fits} {key : κ} {value : α}
    (fewer : c.facts ⊆ d.facts) (mem : (key, value) ∈ d.facts) : ∃ e, c.contribute key value = .ok e := by
  unfold contribute
  rw [dif_pos (d.all mem)]
  cases taken : c.entries[key]? with
  | none => exact ⟨_, rfl⟩
  | some existing =>
    have same : (key, existing) ∈ d.facts := fewer taken
    have eq : existing = value := Option.some.inj (same.symm.trans mem)
    exact ⟨c, if_pos eq⟩

theorem facts_of_foldlM {entries : List (κ × α)} {c d : Contributions κ α fits}
    (done : entries.foldlM (fun c entry => c.contribute entry.1 entry.2) c = .ok d) :
    d.facts = c.facts ∪ {entry | entry ∈ entries} := by
  induction entries generalizing c with
  | nil =>
    cases done
    ext entry
    simp
  | cons entry entries ih =>
    rw [List.foldlM_cons] at done
    obtain ⟨next, first, rest⟩ := ok_of_bind.mp done
    rw [ih rest, facts_of_contribute first]
    ext other
    simp only [Set.mem_union, Set.mem_singleton_iff, Set.mem_ofPred_eq, List.mem_cons]
    tauto

theorem foldlM_of_facts {entries : List (κ × α)} {c d : Contributions κ α fits}
    (fewer : c.facts ⊆ d.facts) (all : ∀ entry ∈ entries, entry ∈ d.facts) :
    ∃ e, entries.foldlM (fun c entry => c.contribute entry.1 entry.2) c = .ok e := by
  induction entries generalizing c with
  | nil => exact ⟨c, rfl⟩
  | cons entry entries ih =>
    obtain ⟨next, first⟩ := contribute_of_facts fewer (all entry List.mem_cons_self)
    have fewer' : next.facts ⊆ d.facts := by
      rw [facts_of_contribute first]
      apply Set.union_subset fewer
      rw [Set.singleton_subset_iff]
      exact all entry List.mem_cons_self
    obtain ⟨e, rest⟩ := ih fewer' fun other mem => all other (List.mem_cons_of_mem _ mem)
    refine ⟨e, ?_⟩
    rw [List.foldlM_cons, first]
    exact rest

/-- **Merging joins** the entries. -/
theorem joins : Joins (fun c : Contributions κ α fits => c.facts) merge where
  eq_of_facts := eq_of_facts
  tells := by
    intro a b c merged
    rw [facts_of_foldlM merged]
    congr
    ext entry
    exact mem_toList
  exists_of_tells := by
    intro a b c first second
    exact foldlM_of_facts first fun entry mem => second (mem_toList.mp mem)

end Contributions

end RoLauncher.Tables
