import Mathlib.Data.Set.Basic
import RoLauncher.Results.Except

/-!
# Joining what may disagree

What a value says is a set of facts. Two values are joined to one that says what
either says, and that fails where no value could. Then values can be joined in any
order and grouping, and the same one twice: the result depends on which were
joined (`Joins.eval_congr`).
-/

namespace RoLauncher.Results

/-- How values are brought together. -/
inductive Grouping (β : Type)
  | leaf (value : β)
  | both (first second : Grouping β)

namespace Grouping

variable {β ε : Type}

def leaves : Grouping β → List β
  | .leaf value => [value]
  | .both first second => first.leaves ++ second.leaves

def eval (merge : β → β → Except ε β) : Grouping β → Except ε β
  | .leaf value => .ok value
  | .both first second => do
    let a ← first.eval merge
    let b ← second.eval merge
    merge a b

end Grouping

section Joins

variable {β ε ι : Type}

/-- `merge` finds the value that says what two values say, where there is one. -/
structure Joins (facts : β → Set ι) (merge : β → β → Except ε β) : Prop where
  eq_of_facts : ∀ {a b}, facts a = facts b → a = b
  tells : ∀ {a b c}, merge a b = .ok c → facts c = facts a ∪ facts b
  exists_of_tells : ∀ {a b c}, facts a ⊆ facts c → facts b ⊆ facts c → ∃ d, merge a b = .ok d

variable {facts : β → Set ι} {merge : β → β → Except ε β}

/-- What any of the values says. -/
def Tells (facts : β → Set ι) (values : List β) : Set ι := {fact | ∃ value ∈ values, fact ∈ facts value}

theorem tells_singleton (value : β) : Tells facts [value] = facts value := by
  ext fact
  simp [Tells]

theorem tells_append (first second : List β) :
    Tells facts (first ++ second) = Tells facts first ∪ Tells facts second := by
  ext fact
  simp only [Tells, List.mem_append, Set.mem_ofPred_eq, Set.mem_union]
  constructor
  · rintro ⟨value, mem | mem, tells⟩
    · exact .inl ⟨value, mem, tells⟩
    · exact .inr ⟨value, mem, tells⟩
  · rintro (⟨value, mem, tells⟩ | ⟨value, mem, tells⟩)
    · exact ⟨value, .inl mem, tells⟩
    · exact ⟨value, .inr mem, tells⟩

theorem Joins.eval_tells (joins : Joins facts merge) {t : Grouping β} {r : β}
    (eval : t.eval merge = .ok r) : facts r = Tells facts t.leaves := by
  induction t generalizing r with
  | leaf value =>
    cases eval
    exact (tells_singleton value).symm
  | both first second ih ih' =>
    obtain ⟨a, left, rest⟩ := ok_of_bind.mp eval
    obtain ⟨b, right, merged⟩ := ok_of_bind.mp rest
    rw [joins.tells merged, ih left, ih' right, Grouping.leaves, tells_append]

theorem Joins.exists_eval (joins : Joins facts merge) {t : Grouping β} {c : β}
    (tells : Tells facts t.leaves ⊆ facts c) : ∃ r, t.eval merge = .ok r := by
  induction t with
  | leaf value => exact ⟨value, rfl⟩
  | both first second ih ih' =>
    rw [Grouping.leaves, tells_append] at tells
    have left := Set.Subset.trans Set.subset_union_left tells
    have right := Set.Subset.trans Set.subset_union_right tells
    obtain ⟨a, first⟩ := ih left
    obtain ⟨b, second⟩ := ih' right
    rw [← joins.eval_tells first] at left
    rw [← joins.eval_tells second] at right
    obtain ⟨d, merged⟩ := joins.exists_of_tells left right
    refine ⟨d, ?_⟩
    rw [Grouping.eval, first, second]
    exact merged

/-- **The result** is the value that says what the leaves say, however they are grouped. -/
theorem Joins.eval_iff (joins : Joins facts merge) {t : Grouping β} {r : β} :
    t.eval merge = .ok r ↔ facts r = Tells facts t.leaves := by
  constructor
  · exact joins.eval_tells
  · intro tells
    obtain ⟨d, eval⟩ := joins.exists_eval tells.symm.subset
    rw [eval, joins.eq_of_facts (tells.trans (joins.eval_tells eval).symm)]

/-- Other orders, other groupings and more copies of the same values change nothing. -/
theorem Joins.eval_congr (joins : Joins facts merge) {t t' : Grouping β}
    (same : ∀ value, value ∈ t.leaves ↔ value ∈ t'.leaves) {r : β} :
    t.eval merge = .ok r ↔ t'.eval merge = .ok r := by
  have tells : Tells facts t.leaves = Tells facts t'.leaves := by
    ext fact
    simp only [Tells, same]
  rw [joins.eval_iff, joins.eval_iff, tells]

/-- A value that has been joined is joined again without a change. -/
theorem Joins.absorb (joins : Joins facts merge) {t : Grouping β} {r value : β}
    (eval : t.eval merge = .ok r) (mem : value ∈ t.leaves) : merge r value = .ok r := by
  have again : (Grouping.both t (.leaf value)).eval merge = .ok r := by
    rw [@Joins.eval_congr _ _ _ _ _ joins _ t]
    · exact eval
    · intro other
      simp only [Grouping.leaves, List.mem_append, List.mem_singleton, or_iff_left_iff_imp]
      rintro rfl
      exact mem
  rw [Grouping.eval, eval] at again
  exact again

/-- Reporting a failure otherwise changes nothing. -/
theorem Joins.mapError {ε' : Type} (joins : Joins facts merge) (report : ε → ε') :
    Joins facts fun a b => (merge a b).mapError report where
  eq_of_facts := joins.eq_of_facts
  tells := by
    intro a b c merged
    cases result : merge a b with
    | error e =>
      rw [result] at merged
      cases merged
    | ok d =>
      rw [result] at merged
      cases merged
      exact joins.tells result
  exists_of_tells := by
    intro a b c first second
    obtain ⟨d, merged⟩ := joins.exists_of_tells first second
    exact ⟨d, by rw [merged]; rfl⟩

/-- A list that is merged into a value, one after the other. -/
theorem Joins.foldlM_iff (joins : Joins facts merge) {values : List β} {a r : β} :
    values.foldlM merge a = .ok r ↔ facts r = Tells facts (a :: values) := by
  have grouped : ∀ (t : Grouping β) (a : β), t.eval merge = .ok a →
      (values.foldlM merge a = .ok r ↔ facts r = Tells facts (t.leaves ++ values)) := by
    induction values with
    | nil =>
      intro t a eval
      rw [List.append_nil, ← joins.eval_iff, eval]
      rfl
    | cons value values ih =>
      intro t a eval
      have next : (Grouping.both t (.leaf value)).eval merge = merge a value := by
        rw [Grouping.eval, eval]
        rfl
      rw [List.foldlM_cons]
      cases merged : merge a value with
      | ok b =>
        have step := ih (.both t (.leaf value)) b (next.trans merged)
        rw [Grouping.leaves, List.append_assoc] at step
        exact step
      | error e =>
        constructor
        · intro never
          cases never
        · intro tells
          have fewer : Tells facts (Grouping.both t (.leaf value)).leaves ⊆ facts r := by
            rw [tells, Grouping.leaves]
            rintro fact ⟨other, mem, has⟩
            refine ⟨other, ?_, has⟩
            simp only [Grouping.leaves, List.mem_append, List.mem_singleton] at mem
            rcases mem with mem | rfl
            · exact List.mem_append_left _ mem
            · exact List.mem_append_right _ List.mem_cons_self
          obtain ⟨d, eval'⟩ := joins.exists_eval fewer
          rw [next, merged] at eval'
          cases eval'
  exact grouped (.leaf a) a rfl

end Joins

end RoLauncher.Results
