import Mathlib.Logic.Relation

/-!
# Programs that share a state

A task is the program of one thread. Its steps are atomic: each waits until
it is enabled, reads the shared state and updates it, all at once. Between two
steps of a task any number of steps of other threads can happen.

`Task.Safe` bounds every run of a task among other threads. The others are
known only through what they can do to the state, the relation `R` (the
rely); in return every step of the task lies in `G` (the guarantee) and keeps
the invariant `I` of the state. Its rules follow the task's own shape.
-/

namespace RoLauncher.Threads

/-- The program of a thread: it ends, fails, or takes an atomic step and goes
on with what it read, the state before the step. -/
inductive Task (σ Err : Type) (α : Type) : Type
  | ret (a : α)
  | fail (e : Err)
  | step (enabled : σ → Bool) (update : σ → σ) (k : σ → Task σ Err α)

variable {σ Err Err' α β : Type}

namespace Task

def bind : Task σ Err α → (α → Task σ Err β) → Task σ Err β
  | .ret a, f => f a
  | .fail e, _ => .fail e
  | .step enabled update k, f => .step enabled update fun s => (k s).bind f

instance : Monad (Task σ Err) where
  pure := ret
  bind := bind

@[simp] theorem ret_bind (a : α) (f : α → Task σ Err β) : (ret a >>= f) = f a := rfl

@[simp] theorem pure_bind (a : α) (f : α → Task σ Err β) :
    ((pure a : Task σ Err α) >>= f) = f a := rfl

@[simp] theorem fail_bind (e : Err) (f : α → Task σ Err β) :
    ((fail e : Task σ Err α) >>= f) = fail e := rfl

@[simp] theorem step_bind (enabled : σ → Bool) (update : σ → σ) (k : σ → Task σ Err α)
    (f : α → Task σ Err β) :
    (step enabled update k >>= f) = step enabled update fun s => k s >>= f := rfl

/-- Read the state. -/
def read (f : σ → α) : Task σ Err α := step (fun _ => true) id fun s => ret (f s)

/-- Update the state. -/
def modify (update : σ → σ) : Task σ Err Unit := step (fun _ => true) update fun _ => ret ()

/-- Read and update the state in one step. -/
def fetch (f : σ → α) (update : σ → σ) : Task σ Err α :=
  step (fun _ => true) update fun s => ret (f s)

/-- Update the state once it is enabled. -/
def await (enabled : σ → Bool) (update : σ → σ) : Task σ Err Unit :=
  step enabled update fun _ => ret ()

def ofExcept : Except Err α → Task σ Err α
  | .ok a => .ret a
  | .error e => .fail e

/-- Run a task and hand its failure over as a value. -/
def attempt : Task σ Err α → Task σ Err' (Except Err α)
  | .ret a => .ret (.ok a)
  | .fail e => .ret (.error e)
  | .step enabled update k => .step enabled update fun s => (k s).attempt

def onlyIf (condition : Bool) (p : Task σ Err Unit) : Task σ Err Unit :=
  if condition then p else ret ()

/-- Report a failure in another form. -/
def mapError (f : Err → Err') : Task σ Err α → Task σ Err' α
  | .ret a => .ret a
  | .fail e => .fail (f e)
  | .step enabled update k => .step enabled update fun s => (k s).mapError f

/-- Forget the answer. -/
def discard (p : Task σ Err α) : Task σ Err Unit := p >>= fun _ => ret ()

/-- The task alone, with no other thread in between; none when a step is not enabled. -/
def alone : Task σ Err α → σ → Option (Except Err α × σ)
  | .ret a, s => some (.ok a, s)
  | .fail e, s => some (.error e, s)
  | .step enabled update k, s => if enabled s then (k s).alone (update s) else none

/-- What is left of the task after so many steps alone; none when it ends before, or is not enabled. -/
def ahead : Nat → Task σ Err α → σ → Option (Task σ Err α × σ)
  | 0, p, s => some (p, s)
  | n + 1, .step enabled update k, s => if enabled s then (k s).ahead n (update s) else none
  | _ + 1, _, _ => none

/-- What is left of the task, and the state, after so many steps alone. -/
def partway (n : Nat) (p : Task σ Err α) (s : σ) : Task σ Err α × σ := (p.ahead n s).getD (p, s)

/-- The state that the task leaves when it is alone. -/
def left (p : Task σ Err α) (s : σ) : σ :=
  match p.alone s with
  | some (_, t) => t
  | none => s

@[simp] theorem alone_ret (a : α) (s : σ) :
    (ret a : Task σ Err α).alone s = some (.ok a, s) := rfl

@[simp] theorem alone_fail (e : Err) (s : σ) :
    (fail e : Task σ Err α).alone s = some (.error e, s) := rfl

/-- Every run of the task from `s`, among threads that keep to `R`: each step
from a state of `I` lies in `G` and ends in `I`, and the result, when there is
one, satisfies `Q`, however long the others go on. -/
def Safe (I : σ → Prop) (R G : σ → σ → Prop) :
    Task σ Err α → (Except Err α → σ → Prop) → σ → Prop
  | .ret a, Q, s => ∀ t, R s t → Q (.ok a) t
  | .fail e, Q, s => ∀ t, R s t → Q (.error e) t
  | .step enabled update k, Q, s => ∀ t, R s t → I t → enabled t = true →
      (G t (update t) ∧ I (update t)) ∧ (k t).Safe I R G Q (update t)

variable {I : σ → Prop} {R G : σ → σ → Prop}

/-- An assertion that no step of the others breaks. -/
def Stable (R : σ → σ → Prop) (P : σ → Prop) : Prop := ∀ s t, P s → R s t → P t

/-- A task stays safe while the others go on. -/
theorem Safe.others (trans : ∀ s t u, R s t → R t u → R s u) {p : Task σ Err α}
    {Q : Except Err α → σ → Prop} {s t : σ} (h : p.Safe I R G Q s) (moved : R s t) :
    p.Safe I R G Q t := by
  cases p with
  | ret a => exact fun u further => h u (trans _ _ _ moved further)
  | fail e => exact fun u further => h u (trans _ _ _ moved further)
  | step enabled update k => exact fun u further => h u (trans _ _ _ moved further)

theorem Safe.post {p : Task σ Err α} {Q Q' : Except Err α → σ → Prop} {s : σ}
    (h : p.Safe I R G Q s) (hQ : ∀ r t, Q r t → Q' r t) : p.Safe I R G Q' s := by
  induction p generalizing s with
  | ret a => exact fun t moved => hQ _ _ (h t moved)
  | fail e => exact fun t moved => hQ _ _ (h t moved)
  | step enabled update k ih =>
    intro t moved inv on
    obtain ⟨kept, rest⟩ := h t moved inv on
    exact ⟨kept, ih t rest⟩

/-- Sequencing: the rest must be safe from wherever the first part ends. -/
theorem Safe.bind (refl : ∀ s, R s s) {p : Task σ Err α} {f : α → Task σ Err β}
    {Q : Except Err β → σ → Prop} {s : σ}
    (h : p.Safe I R G (fun r t => match r with
      | .ok a => (f a).Safe I R G Q t
      | .error e => Q (.error e) t) s) : (p >>= f).Safe I R G Q s := by
  induction p generalizing s with
  | ret a => exact h s (refl s)
  | fail e => exact h
  | step enabled update k ih =>
    intro t moved inv on
    obtain ⟨kept, rest⟩ := h t moved inv on
    exact ⟨kept, ih t rest⟩

/-- Sequencing, with what the first part establishes in either case. -/
theorem Safe.seq (refl : ∀ s, R s s) {p : Task σ Err α} {f : α → Task σ Err β}
    {Q : Except Err α → σ → Prop} {Q' : Except Err β → σ → Prop} {s : σ}
    (first : p.Safe I R G Q s) (rest : ∀ a t, Q (.ok a) t → (f a).Safe I R G Q' t)
    (failed : ∀ e t, Q (.error e) t → Q' (.error e) t) : (p >>= f).Safe I R G Q' s := by
  refine Safe.bind refl (first.post ?_)
  intro r t h
  cases r with
  | ok a => exact rest a t h
  | error e => exact failed e t h

/-- A caught failure is an answer like any other. -/
theorem Safe.attempt {p : Task σ Err α} {Q : Except Err' (Except Err α) → σ → Prop} {s : σ}
    (h : p.Safe I R G (fun r t => Q (.ok r) t) s) :
    (p.attempt : Task σ Err' (Except Err α)).Safe I R G Q s := by
  induction p generalizing s with
  | ret a => exact h
  | fail e => exact h
  | step enabled update k ih =>
    intro t moved inv on
    obtain ⟨kept, rest⟩ := h t moved inv on
    exact ⟨kept, ih t rest⟩

theorem Safe.mapError {f : Err → Err'} {p : Task σ Err α} {Q : Except Err' α → σ → Prop} {s : σ}
    (h : p.Safe I R G (fun r t => Q (r.mapError f) t) s) : (p.mapError f).Safe I R G Q s := by
  induction p generalizing s with
  | ret a => exact h
  | fail e => exact h
  | step enabled update k ih =>
    intro t moved inv on
    obtain ⟨kept, rest⟩ := h t moved inv on
    exact ⟨kept, ih t rest⟩

theorem Safe.onlyIf {condition : Bool} {p : Task σ Err Unit} {Q : Except Err Unit → σ → Prop}
    {s : σ} (yes : condition = true → p.Safe I R G Q s)
    (no : condition = false → (ret () : Task σ Err Unit).Safe I R G Q s) :
    (Task.onlyIf condition p).Safe I R G Q s := by
  cases condition with
  | true => exact yes rfl
  | false => exact no rfl

theorem Safe.discard (refl : ∀ s, R s s) {p : Task σ Err α} {s : σ}
    (h : p.Safe I R G (fun _ _ => True) s) :
    p.discard.Safe I R G (fun _ _ => True) s := by
  refine Safe.bind refl (h.post ?_)
  intro r t _
  cases r with
  | ok a => exact fun _ _ => trivial
  | error e => trivial

section Rules

variable {P : σ → Prop} {s : σ}

theorem safe_ret {a : α} {Q : Except Err α → σ → Prop} (stable : Stable R P) (holds : P s)
    (post : ∀ t, P t → Q (.ok a) t) : (ret a : Task σ Err α).Safe I R G Q s :=
  fun t moved => post t (stable s t holds moved)

theorem safe_fail {e : Err} {Q : Except Err α → σ → Prop} (stable : Stable R P) (holds : P s)
    (post : ∀ t, P t → Q (.error e) t) : (fail e : Task σ Err α).Safe I R G Q s :=
  fun t moved => post t (stable s t holds moved)

/-- One step: its assertion is stable, so it still holds when the step is taken. -/
theorem safe_step {enabled : σ → Bool} {update : σ → σ} {k : σ → Task σ Err α}
    {Q : Except Err α → σ → Prop} (stable : Stable R P) (holds : P s)
    (body : ∀ t, P t → I t → enabled t = true →
      (G t (update t) ∧ I (update t)) ∧ (k t).Safe I R G Q (update t)) :
    (step enabled update k).Safe I R G Q s :=
  fun t moved inv on => body t (stable s t holds moved) inv on

/-- One step that answers: what it establishes must be stable. -/
theorem safe_fetch {enabled : σ → Bool} {update : σ → σ} {f : σ → α} {Q : α → σ → Prop}
    (stable : Stable R P) (stable' : ∀ a, Stable R (Q a)) (holds : P s)
    (body : ∀ t, P t → I t → enabled t = true →
      (G t (update t) ∧ I (update t)) ∧ Q (f t) (update t)) :
    (step enabled update fun s => (ret (f s) : Task σ Err α)).Safe I R G
      (fun r t => ∃ a, r = .ok a ∧ Q a t) s := by
  refine safe_step stable holds fun t here inv on => ?_
  obtain ⟨kept, established⟩ := body t here inv on
  exact ⟨kept, safe_ret (stable' _) established fun u h => ⟨_, rfl, h⟩⟩

/-- Go on with the answer of a task that does not fail. -/
theorem Safe.andThen (refl : ∀ s, R s s) {p : Task σ Err α} {f : α → Task σ Err β}
    {Q : α → σ → Prop} {Q' : Except Err β → σ → Prop}
    (first : p.Safe I R G (fun r t => ∃ a, r = .ok a ∧ Q a t) s)
    (rest : ∀ a t, Q a t → (f a).Safe I R G Q' t) : (p >>= f).Safe I R G Q' s := by
  refine Safe.bind refl (first.post ?_)
  rintro _ t ⟨a, rfl, h⟩
  exact rest a t h

end Rules

end Task

end RoLauncher.Threads
