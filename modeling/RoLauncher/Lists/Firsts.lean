import Mathlib.Data.List.Nodup

/-!
# The first of each key

A pass over a list that drops what has a key seen before. A look-up by the key finds
the same in what is left (`find_firsts`).
-/

namespace RoLauncher.Lists

variable {α β : Type} [DecidableEq β] (key : α → β)

/-- The elements whose key is new. -/
def firsts : List β → List α → List α
  | _, [] => []
  | seen, a :: as => if key a ∈ seen then firsts seen as else a :: firsts (key a :: seen) as

variable {key} {seen seen' : List β} {as : List α} {a : α}

theorem firsts_sublist (seen : List β) (as : List α) : (firsts key seen as).Sublist as := by
  induction as generalizing seen with
  | nil => exact .slnil
  | cons a as ih =>
    rw [firsts]
    split
    next => exact (ih seen).cons a
    next => exact (ih (key a :: seen)).cons_cons a

theorem key_firsts (mem : a ∈ firsts key seen as) : key a ∉ seen := by
  induction as generalizing seen with
  | nil => cases mem
  | cons b as ih =>
    rw [firsts] at mem
    split at mem
    next => exact ih mem
    next new =>
      rcases List.mem_cons.mp mem with rfl | later
      · exact new
      · exact fun old => ih later (List.mem_cons_of_mem _ old)

theorem nodup_firsts (key : α → β) (seen : List β) (as : List α) : ((firsts key seen as).map key).Nodup := by
  induction as generalizing seen with
  | nil => exact .nil
  | cons a as ih =>
    rw [firsts]
    split
    next => exact ih seen
    next =>
      refine List.nodup_cons.mpr ⟨fun again => ?_, ih (key a :: seen)⟩
      obtain ⟨b, mem, same⟩ := List.mem_map.mp again
      exact key_firsts mem (same ▸ List.mem_cons_self)

/-- No key is lost. -/
theorem mem_map_firsts (key : α → β) (as : List α) {k : β} (new : k ∉ seen) : k ∈ (firsts key seen as).map key ↔ k ∈ as.map key := by
  induction as generalizing seen with
  | nil => rfl
  | cons a as ih =>
    rw [firsts, List.map_cons, List.mem_cons]
    by_cases same : k = key a
    · subst same
      simp [new]
    · rw [or_iff_right same]
      split
      next => exact ih new
      next =>
        rw [List.map_cons, List.mem_cons, or_iff_right same]
        exact ih fun old => (List.mem_cons.mp old).elim same new

/-- What is kept only depends on which keys were seen. -/
theorem firsts_congr (same : ∀ k, k ∈ seen ↔ k ∈ seen') (as : List α) :
    firsts key seen as = firsts key seen' as := by
  induction as generalizing seen seen' with
  | nil => rfl
  | cons a as ih =>
    have next : ∀ k, k ∈ key a :: seen ↔ k ∈ key a :: seen' := fun k => by
      rw [List.mem_cons, List.mem_cons, same]
    rw [firsts, firsts, ih same, ih next]
    by_cases old : key a ∈ seen
    · rw [if_pos old, if_pos ((same _).mp old)]
    · rw [if_neg old, if_neg fun h => old ((same _).mpr h)]

/-- Keys that a filter drops need not be remembered. -/
theorem firsts_filter {p : β → Bool} {k : β} (dropped : p k = false) (seen : List β) (as : List α) :
    (firsts key (k :: seen) as).filter (fun a => p (key a)) =
      (firsts key seen as).filter fun a => p (key a) := by
  induction as generalizing seen with
  | nil => rfl
  | cons a as ih =>
    rw [firsts, firsts]
    by_cases old : key a ∈ seen
    · rw [if_pos old, if_pos (List.mem_cons_of_mem _ old), ih]
    by_cases same : key a = k
    · subst same
      rw [if_pos List.mem_cons_self, if_neg old, List.filter_cons_of_neg (by simp [dropped])]
    · have swap : firsts key (key a :: k :: seen) as = firsts key (k :: key a :: seen) as :=
        firsts_congr (fun j => by simp only [List.mem_cons]; tauto) as
      rw [if_neg (by simp [same, old]), if_neg old, List.filter_cons, List.filter_cons, swap, ih]

/-- Dropping keys comes to the same before and after. -/
theorem filter_firsts (key : α → β) (p : β → Bool) (seen : List β) (as : List α) :
    (firsts key seen as).filter (fun a => p (key a)) =
      firsts key seen (as.filter fun a => p (key a)) := by
  induction as generalizing seen with
  | nil => rfl
  | cons a as ih =>
    rw [firsts]
    cases keep : p (key a) with
    | true =>
      rw [List.filter_cons_of_pos (by exact keep), firsts]
      split
      next => exact ih seen
      next => rw [List.filter_cons_of_pos (by exact keep), ih]
    | false =>
      rw [List.filter_cons_of_neg (by simp [keep]), ← ih]
      split
      next => rfl
      next => rw [List.filter_cons_of_neg (by simp [keep]), firsts_filter keep]

/-- Nothing is dropped where all keys are new and different. -/
theorem firsts_eq_self (different : (as.map key).Nodup) (new : ∀ a ∈ as, key a ∉ seen) :
    firsts key seen as = as := by
  induction as generalizing seen with
  | nil => rfl
  | cons a as ih =>
    obtain ⟨other, different⟩ := List.nodup_cons.mp different
    rw [firsts, if_neg (new a List.mem_cons_self)]
    refine congrArg (a :: ·) (ih different fun b mem old => ?_)
    rcases List.mem_cons.mp old with same | old
    · exact other (List.mem_map.mpr ⟨b, mem, same⟩)
    · exact new b (List.mem_cons_of_mem a mem) old

/-- Where keys are different, a look-up finds the element of the key. -/
theorem find_eq_some {k : β} (different : (as.map key).Nodup) :
    (as.find? fun a => key a = k) = some a ↔ a ∈ as ∧ key a = k := by
  constructor
  · intro found
    exact ⟨List.mem_of_find?_eq_some found, by simpa using List.find?_some found⟩
  · rintro ⟨mem, rfl⟩
    have some : (as.find? fun b => key b = key a).isSome = true :=
      List.find?_isSome.mpr ⟨a, mem, decide_eq_true rfl⟩
    obtain ⟨b, found⟩ := Option.isSome_iff_exists.mp some
    have same : key b = key a := by simpa using List.find?_some found
    rw [found, List.inj_on_of_nodup_map different (List.mem_of_find?_eq_some found) mem same]

theorem find_perm {bs : List α} (different : (as.map key).Nodup) (perm : as.Perm bs) (k : β) :
    (as.find? fun a => key a = k) = bs.find? fun a => key a = k := by
  have other : (bs.map key).Nodup := (perm.map key).nodup_iff.mp different
  refine Option.ext fun a => ?_
  rw [find_eq_some different, find_eq_some other, perm.mem_iff]

end RoLauncher.Lists
