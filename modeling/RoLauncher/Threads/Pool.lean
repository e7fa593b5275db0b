import RoLauncher.Threads.Task
import Mathlib.Logic.Function.Basic

/-!
# Any number of threads

A pool is a shared state and the tasks of its threads. A thread may start a
task that may be entered in the current state, take a step of its task, and
be done with it. Every interleaving of the threads' steps is a run of the
pool.

`Run.safe` is the parallel composition: when what each thread guarantees is
what the others rely on, the invariant holds in every state of every run.
-/

namespace RoLauncher.Threads

variable {Tid σ Err : Type} [DecidableEq Tid]

/-- The shared state, and what is left of each thread's task. -/
abbrev Pool (Tid σ Err : Type) := σ × (Tid → Option (Task σ Err Unit))

def Task.Finished {α : Type} : Task σ Err α → Prop
  | .ret _ | .fail _ => True
  | .step .. => False

/-- One step of one thread. -/
inductive PoolStep (entry : Tid → σ → Task σ Err Unit → Prop) :
    Pool Tid σ Err → Pool Tid σ Err → Prop
  | start {c : Pool Tid σ Err} {t : Tid} {p : Task σ Err Unit} : c.2 t = none → entry t c.1 p →
      PoolStep entry c (c.1, Function.update c.2 t (some p))
  | step {c : Pool Tid σ Err} {t : Tid} {enabled : σ → Bool} {update : σ → σ}
      {k : σ → Task σ Err Unit} : c.2 t = some (.step enabled update k) → enabled c.1 = true →
      PoolStep entry c (update c.1, Function.update c.2 t (some (k c.1)))
  | finish {c : Pool Tid σ Err} {t : Tid} {p : Task σ Err Unit} : c.2 t = some p → p.Finished →
      PoolStep entry c (c.1, Function.update c.2 t none)

abbrev PoolRun (entry : Tid → σ → Task σ Err Unit → Prop) :
    Pool Tid σ Err → Pool Tid σ Err → Prop := Relation.ReflTransGen (PoolStep entry)

/-- A pool whose threads have not started anything. -/
abbrev Pool.idle (s : σ) : Pool Tid σ Err := (s, fun _ => none)

/-- How the threads of a pool get along: thread `t` keeps to `guar t`, and counts on `rely t`. -/
structure Discipline (Tid σ : Type) where
  inv : σ → Prop
  rely : Tid → σ → σ → Prop
  guar : Tid → σ → σ → Prop
  refl : ∀ t s, rely t s s
  trans : ∀ t s s' s'', rely t s s' → rely t s' s'' → rely t s s''
  others : ∀ t u s s', t ≠ u → guar t s s' → rely u s s'

/-- Safe as a task of thread `t`. -/
abbrev Discipline.Safe {α : Type} (D : Discipline Tid σ) (t : Tid) (p : Task σ Err α)
    (Q : Except Err α → σ → Prop) (s : σ) : Prop := p.Safe D.inv (D.rely t) (D.guar t) Q s

/-- The invariant holds, and what is left of each task is safe. -/
def Discipline.Kept (D : Discipline Tid σ) (c : Pool Tid σ Err) : Prop :=
  D.inv c.1 ∧ ∀ t p, c.2 t = some p → D.Safe t p (fun _ _ => True) c.1

variable {D : Discipline Tid σ} {entry : Tid → σ → Task σ Err Unit → Prop}

omit [DecidableEq Tid] in
theorem Discipline.kept_idle {s : σ} (h : D.inv s) : D.Kept (Pool.idle s : Pool Tid σ Err) :=
  ⟨h, fun _ _ none => by cases none⟩

/-- **One step** is nothing to the state, or keeps to what its thread guarantees. -/
theorem PoolStep.kept (entries : ∀ t s p, D.inv s → entry t s p → D.Safe t p (fun _ _ => True) s)
    {c c' : Pool Tid σ Err} (step : PoolStep entry c c') (h : D.Kept c) :
    (c'.1 = c.1 ∨ ∃ t, D.guar t c.1 c'.1) ∧ D.Kept c' := by
  obtain ⟨inv, safe⟩ := h
  -- Replacing the task of a thread leaves the tasks of the others, in a state they rely on.
  have replace : ∀ (t : Tid) (s : σ) (q : Option (Task σ Err Unit)), D.inv s →
      (∀ p, q = some p → D.Safe t p (fun _ _ => True) s) →
      (∀ u, t ≠ u → D.rely u c.1 s) → D.Kept (s, Function.update c.2 t q) := by
    intro t s q inv' own rely
    refine ⟨inv', fun u p hp => ?_⟩
    dsimp only at hp
    by_cases hu : t = u
    · subst hu
      rw [Function.update_self] at hp
      exact own p hp
    · rw [Function.update_of_ne (Ne.symm hu)] at hp
      exact (safe u p hp).others (D.trans u) (rely u hu)
  cases step with
  | start none may =>
    refine ⟨.inl rfl, replace _ _ _ inv (fun p hp => ?_) fun u _ => D.refl u _⟩
    cases hp
    exact entries _ _ _ inv may
  | step here on =>
    obtain ⟨⟨guar, inv'⟩, rest⟩ := safe _ _ here _ (D.refl _ _) inv on
    refine ⟨.inr ⟨_, guar⟩, replace _ _ _ inv' (fun p hp => ?_) fun u hu => D.others _ _ _ _ hu guar⟩
    cases hp
    exact rest
  | finish here done =>
    exact ⟨.inl rfl, replace _ _ _ inv (fun p hp => by cases hp) fun u _ => D.refl u _⟩

/-- **Whole runs** keep the invariant. -/
theorem PoolRun.kept (entries : ∀ t s p, D.inv s → entry t s p → D.Safe t p (fun _ _ => True) s)
    {c c' : Pool Tid σ Err} (run : PoolRun entry c c') (h : D.Kept c) : D.Kept c' := by
  induction run with
  | refl => exact h
  | tail _ step ih => exact (step.kept entries ih).2

/-- What every thread guarantees of its steps holds of every step of a run. -/
theorem PoolRun.steps (entries : ∀ t s p, D.inv s → entry t s p → D.Safe t p (fun _ _ => True) s)
    {c c' c'' : Pool Tid σ Err} (run : PoolRun entry c c') (h : D.Kept c)
    (step : PoolStep entry c' c'') : c''.1 = c'.1 ∨ ∃ t, D.guar t c'.1 c''.1 :=
  (step.kept entries (run.kept entries h)).1

/-! ## A thread that runs alone -/

theorem PoolRun.steps_alone {tasks : Tid → Option (Task σ Err Unit)} {t : Tid}
    {p : Task σ Err Unit} {r : Except Err Unit} {s s' : σ} (h : p.alone s = some (r, s')) :
    PoolRun entry (s, Function.update tasks t (some p)) (s', Function.update tasks t none) := by
  have finish : ∀ {q : Task σ Err Unit}, q.Finished →
      PoolRun entry (s', Function.update tasks t (some q)) (s', Function.update tasks t none) := by
    intro q done
    have last : PoolStep entry (s', Function.update tasks t (some q)) _ :=
      .finish (Function.update_self t (some q) tasks) done
    rw [Function.update_idem] at last
    exact .single last
  induction p generalizing s with
  | ret a =>
    cases h
    exact finish trivial
  | fail e =>
    cases h
    exact finish trivial
  | step enabled update k ih =>
    rw [Task.alone] at h
    split at h
    next on =>
      have first : PoolStep entry
          (s, Function.update tasks t (some (.step enabled update k))) _ :=
        .step (Function.update_self t _ tasks) on
      rw [Function.update_idem] at first
      exact .head first (ih s h)
    next => cases h

/-- So many steps of a thread, with no other thread in between. -/
theorem PoolRun.ahead {tasks : Tid → Option (Task σ Err Unit)} {t : Tid} {p q : Task σ Err Unit} {s s' : σ}
    {n : Nat} (h : p.ahead n s = some (q, s')) :
    PoolRun entry (s, Function.update tasks t (some p)) (s', Function.update tasks t (some q)) := by
  induction n generalizing p s with
  | zero =>
    cases h
    exact .refl
  | succ n ih =>
    cases p with
    | ret a => cases h
    | fail e => cases h
    | step enabled update k =>
      rw [Task.ahead] at h
      split at h
      next on =>
        have first : PoolStep entry
            (s, Function.update tasks t (some (.step enabled update k))) _ :=
          .step (Function.update_self t _ tasks) on
        rw [Function.update_idem] at first
        exact .head first (ih h)
      next => cases h

theorem PoolRun.partway {tasks : Tid → Option (Task σ Err Unit)} {t : Tid} {p : Task σ Err Unit} {s : σ}
    (n : Nat) (goes : (p.ahead n s).isSome = true) :
    PoolRun entry (s, Function.update tasks t (some p))
      ((p.partway n s).2, Function.update tasks t (some (p.partway n s).1)) := by
  obtain ⟨⟨q, s'⟩, h⟩ := Option.isSome_iff_exists.mp goes
  rw [Task.partway, h]
  exact PoolRun.ahead h

/-- The next step of a thread. -/
theorem PoolStep.next {tasks : Tid → Option (Task σ Err Unit)} {t : Tid} {p : Task σ Err Unit} {s : σ}
    (goes : (p.ahead 1 s).isSome = true) :
    PoolStep entry (s, Function.update tasks t (some p))
      ((p.partway 1 s).2, Function.update tasks t (some (p.partway 1 s).1)) := by
  cases p with
  | ret a => cases goes
  | fail e => cases goes
  | step enabled update k =>
    have on : enabled s = true := by
      by_contra off
      rw [Task.ahead, if_neg off] at goes
      cases goes
    have first : PoolStep entry (s, Function.update tasks t (some (.step enabled update k))) _ :=
      .step (Function.update_self t _ tasks) on
    rw [Function.update_idem] at first
    rw [Task.partway, Task.ahead, if_pos on]
    exact first

/-- What a thread does alone is a run of the pool. -/
theorem PoolRun.alone {c : Pool Tid σ Err} {t : Tid} {p : Task σ Err Unit} {r : Except Err Unit}
    {s' : σ} (none : c.2 t = none) (may : entry t c.1 p) (h : p.alone c.1 = some (r, s')) :
    PoolRun entry c (s', c.2) := by
  have run : PoolRun entry (c.1, Function.update c.2 t (some p)) (s', Function.update c.2 t _) :=
    PoolRun.steps_alone h
  rw [← none, Function.update_eq_self] at run
  exact .head (.start none may) run

theorem PoolRun.left {c : Pool Tid σ Err} {t : Tid} {p : Task σ Err Unit} (none : c.2 t = none)
    (may : entry t c.1 p) (ends : (p.alone c.1).isSome = true) : PoolRun entry c (p.left c.1, c.2) := by
  obtain ⟨⟨r, s'⟩, h⟩ := Option.isSome_iff_exists.mp ends
  have run := PoolRun.alone none may h
  rwa [Task.left, h]

/-- A thread goes on alone to its end. -/
theorem PoolRun.rest {tasks : Tid → Option (Task σ Err Unit)} {t : Tid} {p : Task σ Err Unit} {s : σ}
    (ends : (p.alone s).isSome = true) :
    PoolRun entry (s, Function.update tasks t (some p)) (p.left s, Function.update tasks t none) := by
  obtain ⟨⟨r, s'⟩, h⟩ := Option.isSome_iff_exists.mp ends
  rw [Task.left, h]
  exact PoolRun.steps_alone h

end RoLauncher.Threads
