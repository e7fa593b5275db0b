import Mathlib.Data.List.Forall2

/-!
# Computations that may fail

What a computation that succeeded has done, taken apart at its binds.
-/

namespace RoLauncher.Results

variable {ε α β : Type}

theorem ok_of_bind {x : Except ε α} {f : α → Except ε β} {b : β} :
    (x >>= f) = .ok b ↔ ∃ a, x = .ok a ∧ f a = .ok b := by
  cases x with
  | error error =>
    constructor
    · intro never
      cases never
    · rintro ⟨a, never, _⟩
      cases never
  | ok a =>
    constructor
    · exact fun done => ⟨a, rfl, done⟩
    · rintro ⟨_, same, done⟩
      cases same
      exact done

theorem ok_of_map {x : Except ε α} {f : α → β} {b : β} (h : x.map f = .ok b) :
    ∃ a, x = .ok a ∧ f a = b := by
  cases x with
  | error e => cases h
  | ok a => exact ⟨a, rfl, Except.ok.inj h⟩

theorem map_of_bind {γ : Type} (x : Except ε α) (f : α → Except ε β) (g : β → γ) :
    (x >>= f).map g = x >>= fun a => (f a).map g := by
  cases x with
  | error e => rfl
  | ok a => rfl

theorem error_ne_ok (error : ε) (a : α) : (Except.error error : Except ε α) ≠ .ok a := by
  intro never
  cases never

/-- A list is mapped by mapping each element of it. -/
theorem mapM_ok {f : α → Except ε β} {xs : List α} {ys : List β} :
    xs.mapM f = .ok ys ↔ List.Forall₂ (fun x y => f x = .ok y) xs ys := by
  induction xs generalizing ys with
  | nil =>
    rw [List.mapM_nil, List.forall₂_nil_left_iff]
    constructor
    · intro done
      cases done
      rfl
    · rintro rfl
      rfl
  | cons x xs ih =>
    rw [List.mapM_cons, ok_of_bind, List.forall₂_cons_left_iff]
    constructor
    · rintro ⟨y, here, done⟩
      obtain ⟨rest, all, done⟩ := ok_of_bind.mp done
      cases done
      exact ⟨y, rest, here, ih.mp all, rfl⟩
    · rintro ⟨y, rest, here, all, rfl⟩
      exact ⟨y, here, ok_of_bind.mpr ⟨rest, ih.mpr all, rfl⟩⟩

/-- A check of every element passes when each passes. -/
theorem forM_eq_ok {xs : List α} {f : α → Except ε Unit} :
    xs.forM f = .ok () ↔ ∀ x ∈ xs, f x = .ok () := by
  induction xs with
  | nil => exact iff_of_true rfl fun x never => absurd never List.not_mem_nil
  | cons x xs ih =>
    show (f x >>= fun _ => xs.forM f) = .ok () ↔ _
    rw [ok_of_bind, List.forall_mem_cons, ← ih]
    constructor
    · rintro ⟨⟨⟩, first, rest⟩
      exact ⟨first, rest⟩
    · rintro ⟨first, rest⟩
      exact ⟨(), first, rest⟩

/-! ## Failures that are reported otherwise -/

variable {ε' : Type}

theorem mapError_eq_ok {x : Except ε α} {report : ε → ε'} {a : α} :
    x.mapError report = .ok a ↔ x = .ok a := by
  cases x with
  | error e =>
    constructor
    · intro never
      cases never
    · intro never
      cases never
  | ok b =>
    constructor
    · intro same
      cases same
      rfl
    · intro same
      cases same
      rfl

theorem mapError_bind (x : Except ε α) (f : α → Except ε β) (report : ε → ε') :
    (x >>= f).mapError report = x.mapError report >>= fun a => (f a).mapError report := by
  cases x with
  | error e => rfl
  | ok a => rfl

theorem mapError_foldlM (step : β → α → Except ε β) (report : ε → ε') (xs : List α)
    (b : β) : (xs.foldlM step b).mapError report = xs.foldlM (fun b a => (step b a).mapError report) b := by
  induction xs generalizing b with
  | nil => rfl
  | cons x xs ih =>
    rw [List.foldlM_cons, List.foldlM_cons, mapError_bind]
    congr
    funext b
    exact ih b

theorem foldlM_congr {step step' : β → α → Except ε β} {xs : List α}
    (same : ∀ b, ∀ x ∈ xs, step b x = step' b x) (b : β) : xs.foldlM step b = xs.foldlM step' b := by
  induction xs generalizing b with
  | nil => rfl
  | cons x xs ih =>
    rw [List.foldlM_cons, List.foldlM_cons, same b x List.mem_cons_self]
    congr
    funext b
    exact ih (fun b x mem => same b x (List.mem_cons_of_mem _ mem)) b

end RoLauncher.Results
