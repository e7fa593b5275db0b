import Mathlib.Data.List.Destutter
import Mathlib.Data.List.Sort
import Mathlib.Order.Basic

/-!
# Canonical forms of lists

A list is put in order by the place of its elements, and repetitions side by side go.
What is left is the one strictly ordered list of the same elements
(`canonical_eq`), so it does not depend on their order or number.
-/

namespace RoLauncher.Lists

variable {α β : Type} {xs ys : List α}

/-! ## Repetitions side by side -/

section Repetitions

variable [DecidableEq α]

private theorem mem_destutter_tail {a b : α} (elsewhere : b ≠ a) (xs : List α) :
    b ∈ xs.destutter' (· ≠ ·) a ↔ b ∈ xs := by
  induction xs generalizing a with
  | nil => simp [elsewhere]
  | cons c xs ih =>
    by_cases same : a = c
    · subst same
      rw [List.destutter'_cons_neg _ (not_not.mpr rfl), ih elsewhere, List.mem_cons]
      exact (or_iff_right elsewhere).symm
    · rw [List.destutter'_cons_pos _ same, List.mem_cons, List.mem_cons, or_iff_right elsewhere]
      by_cases here : b = c
      · subst here
        exact iff_of_true (List.mem_destutter' _ _ _) (.inl rfl)
      · rw [ih here, or_iff_right here]

/-- Removing repetitions keeps the elements. -/
theorem mem_destutter {b : α} : b ∈ xs.destutter (· ≠ ·) ↔ b ∈ xs := by
  cases xs with
  | nil => rfl
  | cons a xs =>
    rw [List.destutter_cons', List.mem_cons]
    by_cases same : b = a
    · subst same
      exact iff_of_true (List.mem_destutter' _ _ _) (.inl rfl)
    · rw [mem_destutter_tail same, or_iff_right same]

end Repetitions

/-! ## Strict order -/

variable [LinearOrder β] {place : α → β}

/-- An ordered list without repetitions side by side is strictly ordered, where places tell
elements apart. -/
theorem pairwise_lt (ordered : xs.Pairwise fun a b => place a ≤ place b)
    (chain : xs.IsChain (· ≠ ·)) (apart : ∀ a ∈ xs, ∀ b ∈ xs, place a = place b → a = b) :
    xs.Pairwise fun a b => place a < place b := by
  induction xs with
  | nil => exact .nil
  | cons a xs ih =>
    obtain ⟨first, rest⟩ := List.pairwise_cons.mp ordered
    have later := ih rest chain.tail fun b hb c hc =>
      apart b (List.mem_cons_of_mem a hb) c (List.mem_cons_of_mem a hc)
    refine List.pairwise_cons.mpr ⟨fun b hb => lt_of_le_of_ne (first b hb) fun same => ?_, later⟩
    have one := apart a List.mem_cons_self b (List.mem_cons_of_mem a hb) same
    subst one
    -- An element that comes again would have the next one between its two places.
    cases xs with
    | nil => cases hb
    | cons c xs =>
      have ne : a ≠ c := (List.isChain_cons_cons.mp chain).1
      rcases List.mem_cons.mp hb with here | there
      · exact ne here
      · have up := (List.pairwise_cons.mp later).1 a there
        exact absurd (first c List.mem_cons_self) (not_le.mpr up)

/-- Strictly ordered lists of the same elements are the same. -/
theorem eq_of_strict (hx : xs.Pairwise fun a b => place a < place b)
    (hy : ys.Pairwise fun a b => place a < place b) (same : ∀ a, a ∈ xs ↔ a ∈ ys) : xs = ys := by
  have irrefl : Std.Irrefl fun a b : α => place a < place b := ⟨fun a => lt_irrefl (place a)⟩
  have antisymm : Std.Antisymm fun a b : α => place a < place b :=
    ⟨fun a b ab ba => absurd ba (lt_asymm ab)⟩
  exact hx.eq_of_mem_iff hy same

theorem strict_apart (hy : ys.Pairwise fun a b => place a < place b) {a b : α} (ha : a ∈ ys)
    (hb : b ∈ ys) (same : place a = place b) : a = b := by
  have nodup : (ys.map place).Nodup := List.pairwise_map.mpr (hy.imp fun h => ne_of_lt h)
  exact List.inj_on_of_nodup_map nodup ha hb same

/-! ## The canonical form -/

section Canonical

variable [DecidableEq α]

/-- `sort_by_key` and `dedup`. -/
def canonical (place : α → β) (xs : List α) : List α :=
  (xs.mergeSort fun a b => place a ≤ place b).destutter (· ≠ ·)

@[simp] theorem mem_canonical {a : α} : a ∈ canonical place xs ↔ a ∈ xs := by
  rw [canonical, mem_destutter, List.mem_mergeSort]

theorem canonical_strict (apart : ∀ a ∈ xs, ∀ b ∈ xs, place a = place b → a = b) :
    (canonical place xs).Pairwise fun a b => place a < place b := by
  have trans : ∀ a b c : α, decide (place a ≤ place b) = true → decide (place b ≤ place c) = true →
      decide (place a ≤ place c) = true := fun a b c ab bc =>
    decide_eq_true (le_trans (of_decide_eq_true ab) (of_decide_eq_true bc))
  have total : ∀ a b : α, (decide (place a ≤ place b) || decide (place b ≤ place a)) = true := fun a b => by
    simpa using le_total (place a) (place b)
  have sorted : (xs.mergeSort fun a b => place a ≤ place b).Pairwise fun a b =>
      decide (place a ≤ place b) = true :=
    List.pairwise_mergeSort trans total xs
  have ordered : (xs.mergeSort fun a b => place a ≤ place b).Pairwise fun a b => place a ≤ place b :=
    sorted.imp fun h => of_decide_eq_true h
  refine pairwise_lt (ordered.sublist (List.destutter_sublist _ _)) (List.isChain_destutter _ _) ?_
  intro a ha b hb
  exact apart a (mem_canonical.mp ha) b (mem_canonical.mp hb)

/-- The canonical form is the strictly ordered list of the elements. -/
theorem canonical_eq (hy : ys.Pairwise fun a b => place a < place b) (same : ∀ a, a ∈ xs ↔ a ∈ ys) :
    canonical place xs = ys := by
  refine eq_of_strict (canonical_strict fun a ha b hb => ?_) hy fun a => mem_canonical.trans (same a)
  exact strict_apart hy ((same a).mp ha) ((same b).mp hb)

/-- It depends on the elements alone. -/
theorem canonical_congr (apart : ∀ a ∈ xs, ∀ b ∈ xs, place a = place b → a = b)
    (same : ∀ a, a ∈ ys ↔ a ∈ xs) : canonical place ys = canonical place xs :=
  canonical_eq (canonical_strict apart) fun a => (same a).trans mem_canonical.symm

/-- Without repetitions sorting is enough. -/
theorem mergeSort_eq (place : α → β) (distinct : xs.Nodup) (hy : ys.Pairwise fun a b => place a < place b)
    (same : ∀ a, a ∈ xs ↔ a ∈ ys) : (xs.mergeSort fun a b => place a ≤ place b) = ys := by
  have nodup : (xs.mergeSort fun a b => place a ≤ place b).Nodup :=
    (List.mergeSort_perm _ _).nodup_iff.mpr distinct
  have kept : canonical place xs = xs.mergeSort fun a b => place a ≤ place b :=
    List.destutter_of_isChain _ _ nodup.isChain
  rw [← kept]
  exact canonical_eq hy same

end Canonical

end RoLauncher.Lists
