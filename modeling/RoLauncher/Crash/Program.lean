import Mathlib.Logic.Relation

/-!
# Programs that can be killed

A program of this library is a sequence of operations on a state that
outlives it: the disk. Between two operations, and inside one, the process
that runs it can be killed; an operation can also fail and report the
failure. `Device` says what one operation does when nothing disturbs it
(`exec`) and what it can leave behind otherwise (`torn`).

Two readings of a program stand side by side:

- `Prog.exec`, the undisturbed run, is a function and computes;
- `Prog.Meets` bounds every disturbed run: each change of the state lies in
  a relation `R`, and a run that ends does so in `Q`.

`Meets` is defined by recursion on the program, so its rules are the
program's own shape: `Meets.bind` for sequencing, `Meets.attempt` for a
caught failure, `Meets.forM` for a loop. Nothing here names a file.
-/

namespace RoLauncher.Crash

/-- The state's side of an operation. -/
structure Device (Op σ ε : Type) where
  /-- The undisturbed effect and the reported result. -/
  exec : Op → σ → Except ε Unit × σ
  /-- The states that a kill, or a reported failure, inside the operation can leave. -/
  torn : Op → σ → σ → Prop

/-- A program over operations `Op`: it ends, fails, reads the state, or acts
and goes on with the result the operation reported. -/
inductive Prog (Op σ ε Err : Type) (α : Type) : Type
  | ret (a : α)
  | fail (e : Err)
  | look (k : σ → Prog Op σ ε Err α)
  | act (o : Op) (k : Except ε Unit → Prog Op σ ε Err α)

variable {Op σ ε Err Err' α β : Type}

namespace Prog

def bind : Prog Op σ ε Err α → (α → Prog Op σ ε Err β) → Prog Op σ ε Err β
  | .ret a, f => f a
  | .fail e, _ => .fail e
  | .look k, f => .look fun s => (k s).bind f
  | .act o k, f => .act o fun r => (k r).bind f

instance : Monad (Prog Op σ ε Err) where
  pure := ret
  bind := bind

@[simp] theorem ret_bind (a : α) (f : α → Prog Op σ ε Err β) : (ret a >>= f) = f a := rfl

@[simp] theorem pure_bind (a : α) (f : α → Prog Op σ ε Err β) :
    ((pure a : Prog Op σ ε Err α) >>= f) = f a := rfl

@[simp] theorem fail_bind (e : Err) (f : α → Prog Op σ ε Err β) :
    ((fail e : Prog Op σ ε Err α) >>= f) = fail e := rfl

@[simp] theorem look_bind (k : σ → Prog Op σ ε Err α) (f : α → Prog Op σ ε Err β) :
    (look k >>= f) = look fun s => k s >>= f := rfl

@[simp] theorem act_bind (o : Op) (k : Except ε Unit → Prog Op σ ε Err α)
    (f : α → Prog Op σ ε Err β) : (act o k >>= f) = act o fun r => k r >>= f := rfl

/-- One operation; a reported failure becomes the program's. -/
def perform (o : Op) (onError : ε → Err) : Prog Op σ ε Err Unit :=
  act o fun
    | .ok () => ret ()
    | .error e => fail (onError e)

/-- One operation whose reported failure is ignored. -/
def performIgnoring (o : Op) : Prog Op σ ε Err Unit := act o fun _ => ret ()

def onlyIf (condition : Bool) (p : Prog Op σ ε Err Unit) : Prog Op σ ε Err Unit :=
  if condition then p else ret ()

def ofExcept : Except Err α → Prog Op σ ε Err α
  | .ok a => ret a
  | .error e => fail e

/-- Run a program and hand its failure over as a value. -/
def attempt : Prog Op σ ε Err α → Prog Op σ ε Err' (Except Err α)
  | .ret a => .ret (.ok a)
  | .fail e => .ret (.error e)
  | .look k => .look fun s => (k s).attempt
  | .act o k => .act o fun r => (k r).attempt

/-- Report a failure in another form. -/
def mapError (f : Err → Err') : Prog Op σ ε Err α → Prog Op σ ε Err' α
  | .ret a => .ret a
  | .fail e => .fail (f e)
  | .look k => .look fun s => (k s).mapError f
  | .act o k => .act o fun r => (k r).mapError f

/-- Forget the answer: what one process run is to the disk. -/
def discard (p : Prog Op σ ε Err α) : Prog Op σ ε Err Unit := p >>= fun _ => ret ()

/-! ## The undisturbed run -/

def exec (dev : Device Op σ ε) : Prog Op σ ε Err α → σ → Except Err α × σ
  | .ret a, s => (.ok a, s)
  | .fail e, s => (.error e, s)
  | .look k, s => (k s).exec dev s
  | .act o k, s => (k (dev.exec o s).1).exec dev (dev.exec o s).2

variable {dev : Device Op σ ε}

@[simp] theorem exec_ret (a : α) (s : σ) :
    (ret a : Prog Op σ ε Err α).exec dev s = (.ok a, s) := rfl

@[simp] theorem exec_pure (a : α) (s : σ) :
    (pure a : Prog Op σ ε Err α).exec dev s = (.ok a, s) := rfl

@[simp] theorem exec_fail (e : Err) (s : σ) :
    (fail e : Prog Op σ ε Err α).exec dev s = (.error e, s) := rfl

@[simp] theorem exec_look (k : σ → Prog Op σ ε Err α) (s : σ) :
    (look k).exec dev s = (k s).exec dev s := rfl

theorem exec_act (o : Op) (k : Except ε Unit → Prog Op σ ε Err α) (s : σ) :
    (act o k).exec dev s = (k (dev.exec o s).1).exec dev (dev.exec o s).2 := rfl

/-- A sequence runs its first part, then the rest from where it stopped. -/
theorem exec_bind (p : Prog Op σ ε Err α) (f : α → Prog Op σ ε Err β) (s : σ) :
    (p >>= f).exec dev s =
      match p.exec dev s with
      | (.ok a, t) => (f a).exec dev t
      | (.error e, t) => (.error e, t) := by
  induction p generalizing s with
  | ret a => rfl
  | fail e => rfl
  | look k ih => exact ih s s
  | act o k ih => exact ih (dev.exec o s).1 (dev.exec o s).2

theorem exec_bind_ok {p : Prog Op σ ε Err α} {f : α → Prog Op σ ε Err β} {s t : σ} {a : α}
    (h : p.exec dev s = (.ok a, t)) : (p >>= f).exec dev s = (f a).exec dev t := by
  rw [exec_bind, h]

theorem exec_bind_error {p : Prog Op σ ε Err α} {f : α → Prog Op σ ε Err β} {s t : σ} {e : Err}
    (h : p.exec dev s = (.error e, t)) : (p >>= f).exec dev s = (.error e, t) := by
  rw [exec_bind, h]

theorem exec_attempt (p : Prog Op σ ε Err α) (s : σ) :
    (attempt p : Prog Op σ ε Err' (Except Err α)).exec dev s =
      (.ok (p.exec dev s).1, (p.exec dev s).2) := by
  induction p generalizing s with
  | ret a => rfl
  | fail e => rfl
  | look k ih => exact ih s s
  | act o k ih => exact ih (dev.exec o s).1 (dev.exec o s).2

theorem exec_mapError (f : Err → Err') (p : Prog Op σ ε Err α) (s : σ) :
    (p.mapError f).exec dev s = ((p.exec dev s).1.mapError f, (p.exec dev s).2) := by
  induction p generalizing s with
  | ret a => rfl
  | fail e => rfl
  | look k ih => exact ih s s
  | act o k ih => exact ih (dev.exec o s).1 (dev.exec o s).2

theorem exec_perform_ok {o : Op} {onError : ε → Err} {s t : σ}
    (h : dev.exec o s = (.ok (), t)) :
    (perform o onError : Prog Op σ ε Err Unit).exec dev s = (.ok (), t) := by
  rw [perform, exec_act, h]
  rfl

theorem exec_perform_error {o : Op} {onError : ε → Err} {s t : σ} {e : ε}
    (h : dev.exec o s = (.error e, t)) :
    (perform o onError : Prog Op σ ε Err Unit).exec dev s = (.error (onError e), t) := by
  rw [perform, exec_act, h]
  rfl

/-! ## Every disturbed run -/

/-- Every run of `p` from `s`, however its operations are disturbed, changes
the state only within `R` and, when it ends, ends in `Q`. -/
def Meets (dev : Device Op σ ε) (R : σ → σ → Prop) :
    Prog Op σ ε Err α → (Except Err α → σ → Prop) → σ → Prop
  | .ret a, Q, s => Q (.ok a) s
  | .fail e, Q, s => Q (.error e) s
  | .look k, Q, s => (k s).Meets dev R Q s
  | .act o k, Q, s =>
    (∀ t, dev.torn o s t → R s t ∧ ∀ e, (k (.error e)).Meets dev R Q t) ∧
      R s (dev.exec o s).2 ∧ (k (dev.exec o s).1).Meets dev R Q (dev.exec o s).2

variable {R R' : σ → σ → Prop}

/-- Weaken the relation and the postcondition together. -/
theorem Meets.mono {p : Prog Op σ ε Err α} {Q Q' : Except Err α → σ → Prop} {s : σ}
    (hR : ∀ s t, R s t → R' s t) (hQ : ∀ r t, Q r t → Q' r t)
    (h : p.Meets dev R Q s) : p.Meets dev R' Q' s := by
  induction p generalizing s with
  | ret a => exact hQ _ _ h
  | fail e => exact hQ _ _ h
  | look k ih => exact ih s h
  | act o k ih =>
    obtain ⟨torn, moved, rest⟩ := h
    exact ⟨fun t ht => ⟨hR _ _ (torn t ht).1, fun e => ih _ ((torn t ht).2 e)⟩,
      hR _ _ moved, ih _ rest⟩

theorem Meets.post {p : Prog Op σ ε Err α} {Q Q' : Except Err α → σ → Prop} {s : σ}
    (h : p.Meets dev R Q s) (hQ : ∀ r t, Q r t → Q' r t) : p.Meets dev R Q' s :=
  h.mono (fun _ _ r => r) hQ

/-- Where a run ends is linked to where it began, as each of its changes is. -/
theorem Meets.linked {p : Prog Op σ ε Err α} {Q : Except Err α → σ → Prop} {s : σ}
    (refl : ∀ s, R s s) (trans : ∀ s t u, R s t → R t u → R s u) (h : p.Meets dev R Q s) :
    p.Meets dev R (fun r t => R s t ∧ Q r t) s := by
  suffices ∀ s₀, R s₀ s → p.Meets dev R (fun r t => R s₀ t ∧ Q r t) s from this s (refl s)
  intro s₀ start
  induction p generalizing s with
  | ret a => exact ⟨start, h⟩
  | fail e => exact ⟨start, h⟩
  | look k ih => exact ih s h start
  | act o k ih =>
    obtain ⟨torn, moved, rest⟩ := h
    exact ⟨fun t ht => ⟨(torn t ht).1, fun e => ih _ ((torn t ht).2 e) (trans _ _ _ start (torn t ht).1)⟩,
      moved, ih _ rest (trans _ _ _ start moved)⟩

/-- Every state on the way is linked to the first one, as each change is to the next. -/
theorem Meets.reaches {p : Prog Op σ ε Err α} {Q : Except Err α → σ → Prop} {s : σ}
    (refl : ∀ s, R s s) (trans : ∀ s t u, R s t → R t u → R s u) (h : p.Meets dev R Q s) :
    p.Meets dev (fun _ t => R s t) Q s := by
  suffices ∀ s₀, R s₀ s → p.Meets dev (fun _ t => R s₀ t) Q s from this s (refl s)
  intro s₀ start
  induction p generalizing s with
  | ret a => exact h
  | fail e => exact h
  | look k ih => exact ih s h start
  | act o k ih =>
    obtain ⟨torn, moved, rest⟩ := h
    have further := fun t (change : R s t) => trans _ _ t start change
    exact ⟨fun t ht => ⟨further t (torn t ht).1, fun e => ih _ ((torn t ht).2 e)
      (further t (torn t ht).1)⟩, further _ moved, ih _ rest (further _ moved)⟩

/-- An assertion that every change keeps bounds the changes, and holds at the end. -/
theorem Meets.within {I : σ → Prop} {p : Prog Op σ ε Err α} {Q : Except Err α → σ → Prop} {s : σ}
    (h : p.Meets dev R Q s) (step : ∀ s t, I s → R s t → R' s t ∧ I t) (holds : I s) :
    p.Meets dev R' (fun r t => Q r t ∧ I t) s := by
  induction p generalizing s with
  | ret a => exact ⟨h, holds⟩
  | fail e => exact ⟨h, holds⟩
  | look k ih => exact ih s h holds
  | act o k ih =>
    obtain ⟨torn, moved, rest⟩ := h
    obtain ⟨bound, kept⟩ := step _ _ holds moved
    refine ⟨fun t ht => ?_, bound, ih _ rest kept⟩
    obtain ⟨bound', kept'⟩ := step _ _ holds (torn t ht).1
    exact ⟨bound', fun e => ih _ ((torn t ht).2 e) kept'⟩

/-- Two bounds hold together. -/
theorem Meets.both {p : Prog Op σ ε Err α} {Q Q' : Except Err α → σ → Prop} {s : σ}
    (h : p.Meets dev R Q s) (h' : p.Meets dev R' Q' s) :
    p.Meets dev (fun s t => R s t ∧ R' s t) (fun r t => Q r t ∧ Q' r t) s := by
  induction p generalizing s with
  | ret a => exact ⟨h, h'⟩
  | fail e => exact ⟨h, h'⟩
  | look k ih => exact ih s h h'
  | act o k ih =>
    obtain ⟨torn, moved, rest⟩ := h
    obtain ⟨torn', moved', rest'⟩ := h'
    exact ⟨fun t ht => ⟨⟨(torn t ht).1, (torn' t ht).1⟩,
      fun e => ih _ ((torn t ht).2 e) ((torn' t ht).2 e)⟩, ⟨moved, moved'⟩, ih _ rest rest'⟩

/-- A program that meets every bound of a family meets them together. -/
theorem Meets.all {ι : Type*} {R : ι → σ → σ → Prop} {p : Prog Op σ ε Err α} {s : σ}
    (h : ∀ i, p.Meets dev (R i) (fun _ _ => True) s) :
    p.Meets dev (fun s t => ∀ i, R i s t) (fun _ _ => True) s := by
  induction p generalizing s with
  | ret a => trivial
  | fail e => trivial
  | look k ih => exact ih s h
  | act o k ih =>
    exact ⟨fun t ht => ⟨fun i => ((h i).1 t ht).1, fun e => ih _ fun i => ((h i).1 t ht).2 e⟩,
      fun i => (h i).2.1, ih _ fun i => (h i).2.2⟩

theorem Meets.always (p : Prog Op σ ε Err α) (s : σ) :
    p.Meets dev (fun _ _ => True) (fun _ _ => True) s := by
  induction p generalizing s with
  | ret a => trivial
  | fail e => trivial
  | look k ih => exact ih s s
  | act o k ih => exact ⟨fun t _ => ⟨trivial, fun e => ih _ t⟩, trivial, ih _ _⟩

/-- Sequencing: the rest must meet its bound from wherever the first part ends. -/
theorem Meets.bind {p : Prog Op σ ε Err α} {f : α → Prog Op σ ε Err β}
    {Q : Except Err β → σ → Prop} {s : σ}
    (h : p.Meets dev R (fun r t => match r with
      | .ok a => (f a).Meets dev R Q t
      | .error e => Q (.error e) t) s) : (p >>= f).Meets dev R Q s := by
  induction p generalizing s with
  | ret a => exact h
  | fail e => exact h
  | look k ih => exact ih s h
  | act o k ih =>
    obtain ⟨torn, moved, rest⟩ := h
    exact ⟨fun t ht => ⟨(torn t ht).1, fun e => ih _ ((torn t ht).2 e)⟩, moved, ih _ rest⟩

/-- A caught failure is an answer like any other. -/
theorem Meets.attempt {p : Prog Op σ ε Err α} {Q : Except Err' (Except Err α) → σ → Prop} {s : σ}
    (h : p.Meets dev R (fun r t => Q (.ok r) t) s) :
    (p.attempt : Prog Op σ ε Err' (Except Err α)).Meets dev R Q s := by
  induction p generalizing s with
  | ret a => exact h
  | fail e => exact h
  | look k ih => exact ih s h
  | act o k ih =>
    obtain ⟨torn, moved, rest⟩ := h
    exact ⟨fun t ht => ⟨(torn t ht).1, fun e => ih _ ((torn t ht).2 e)⟩, moved, ih _ rest⟩

theorem Meets.mapError {f : Err → Err'} {p : Prog Op σ ε Err α} {Q : Except Err' α → σ → Prop}
    {s : σ} (h : p.Meets dev R (fun r t => Q (r.mapError f) t) s) :
    (p.mapError f).Meets dev R Q s := by
  induction p generalizing s with
  | ret a => exact h
  | fail e => exact h
  | look k ih => exact ih s h
  | act o k ih =>
    obtain ⟨torn, moved, rest⟩ := h
    exact ⟨fun t ht => ⟨(torn t ht).1, fun e => ih _ ((torn t ht).2 e)⟩, moved, ih _ rest⟩

theorem Meets.discard {p : Prog Op σ ε Err α} {s : σ}
    (h : p.Meets dev R (fun _ _ => True) s) : p.discard.Meets dev R (fun _ _ => True) s := by
  refine Meets.bind (h.post ?_)
  intro r t _
  cases r <;> trivial

theorem Meets.onlyIf {condition : Bool} {p : Prog Op σ ε Err Unit}
    {Q : Except Err Unit → σ → Prop} {s : σ} (yes : condition = true → p.Meets dev R Q s)
    (no : condition = false → Q (.ok ()) s) : (Prog.onlyIf condition p).Meets dev R Q s := by
  cases condition with
  | true => exact yes rfl
  | false => exact no rfl

theorem meets_ofExcept {r : Except Err α} {Q : Except Err α → σ → Prop} {s : σ} (h : Q r s) :
    (ofExcept r : Prog Op σ ε Err α).Meets dev R Q s := by
  cases r <;> exact h

theorem meets_look {k : σ → Prog Op σ ε Err α} {Q : Except Err α → σ → Prop} {s : σ}
    (h : (k s).Meets dev R Q s) : (look k).Meets dev R Q s := h

/-- An operation meets its bound when every state it can leave does: torn with
a failure, or the undisturbed one with the reported result. -/
theorem meets_perform {o : Op} {onError : ε → Err} {Q : Except Err Unit → σ → Prop} {s : σ}
    (torn : ∀ t, dev.torn o s t → R s t ∧ ∀ e, Q (.error (onError e)) t)
    (moved : R s (dev.exec o s).2)
    (ok : (dev.exec o s).1 = .ok () → Q (.ok ()) (dev.exec o s).2)
    (error : ∀ e, (dev.exec o s).1 = .error e → Q (.error (onError e)) (dev.exec o s).2) :
    (perform o onError : Prog Op σ ε Err Unit).Meets dev R Q s := by
  refine ⟨torn, moved, ?_⟩
  cases hr : (dev.exec o s).1 with
  | ok u => exact ok hr
  | error e => exact error e hr

/-- A loop keeps an assertion that every one of its rounds keeps. The
assertion speaks of the names still to come, which is what a deletion loop
needs; a failed round ends the loop. -/
theorem Meets.forM {body : β → Prog Op σ ε Err Unit} {I : List β → σ → Prop}
    {Q : Except Err Unit → σ → Prop} {items : List β} {s : σ}
    (start : I items s)
    (round : ∀ x rest t, I (x :: rest) t → (body x).Meets dev R (fun r u => match r with
      | .ok () => I rest u
      | .error e => Q (.error e) u) t)
    (finish : ∀ t, I [] t → Q (.ok ()) t) : (items.forM body).Meets dev R Q s := by
  induction items generalizing s with
  | nil => exact finish s start
  | cons x rest ih =>
    refine Meets.bind ((round x rest s start).post ?_)
    intro r t hr
    cases r with
    | ok u => exact ih hr
    | error e => exact hr

/-- A loop that nothing disturbs ends when every one of its rounds does. -/
theorem exec_forM {body : β → Prog Op σ ε Err Unit} {I : List β → σ → Prop} {items : List β} {s : σ}
    (start : I items s)
    (round : ∀ x rest t, I (x :: rest) t → ∃ u, (body x).exec dev t = (.ok (), u) ∧ I rest u) :
    ∃ u, (items.forM body).exec dev s = (.ok (), u) ∧ I [] u := by
  induction items generalizing s with
  | nil => exact ⟨s, rfl, start⟩
  | cons x rest ih =>
    obtain ⟨u, done, next⟩ := round x rest s start
    obtain ⟨v, loop, last⟩ := ih next
    exact ⟨v, (exec_bind_ok done).trans loop, last⟩

/-- What a process that is killed after so many operations leaves. -/
def killedAfter (dev : Device Op σ ε) : Nat → Prog Op σ ε Err α → σ → σ
  | _, .ret _, s | _, .fail _, s => s
  | n, .look k, s => (k s).killedAfter dev n s
  | 0, .act _ _, s => s
  | n + 1, .act o k, s => (k (dev.exec o s).1).killedAfter dev n (dev.exec o s).2

/-- A run that is disturbed but not killed: it ends with `r` in `t`. -/
inductive Ends (dev : Device Op σ ε) : Prog Op σ ε Err α → σ → Except Err α → σ → Prop
  | ret (a : α) (s : σ) : Ends dev (.ret a) s (.ok a) s
  | fail (e : Err) (s : σ) : Ends dev (.fail e) s (.error e) s
  | look {k : σ → Prog Op σ ε Err α} {s t : σ} {r : Except Err α} :
      Ends dev (k s) s r t → Ends dev (.look k) s r t
  | done {o : Op} {k : Except ε Unit → Prog Op σ ε Err α} {s t : σ} {r : Except Err α} :
      Ends dev (k (dev.exec o s).1) (dev.exec o s).2 r t → Ends dev (.act o k) s r t
  | fault {o : Op} {k : Except ε Unit → Prog Op σ ε Err α} {s u t : σ} {e : ε} {r : Except Err α} :
      dev.torn o s u → Ends dev (k (.error e)) u r t → Ends dev (.act o k) s r t

/-- The undisturbed run is one of them. -/
theorem Ends.exec {p : Prog Op σ ε Err α} {s t : σ} {r : Except Err α}
    (h : p.exec dev s = (r, t)) : Ends dev p s r t := by
  induction p generalizing s with
  | ret a =>
    cases h
    exact .ret a _
  | fail e =>
    cases h
    exact .fail e _
  | look k ih => exact .look (ih s h)
  | act o k ih => exact .done (ih _ h)

/-- One run after the other. -/
theorem Ends.bind {p : Prog Op σ ε Err α} {f : α → Prog Op σ ε Err β} {s t u : σ} {a : α}
    {r : Except Err β} (first : Ends dev p s (.ok a) t) (rest : Ends dev (f a) t r u) :
    Ends dev (p >>= f) s r u := by
  generalize result : Except.ok a = q at first
  induction first with
  | ret b s =>
    cases result
    exact rest
  | fail e s => cases result
  | look _ ih => exact .look (ih rest result)
  | done _ ih => exact .done (ih rest result)
  | fault torn _ ih => exact .fault torn (ih rest result)

theorem Ends.bind_error {p : Prog Op σ ε Err α} {f : α → Prog Op σ ε Err β} {s t : σ} {e : Err}
    (first : Ends dev p s (.error e) t) : Ends dev (p >>= f) s (.error e) t := by
  generalize result : Except.error e = q at first
  induction first with
  | ret b s => cases result
  | fail e' s =>
    cases result
    exact .fail e s
  | look _ ih => exact .look (ih result)
  | done _ ih => exact .done (ih result)
  | fault torn _ ih => exact .fault torn (ih result)

theorem Ends.attempt {p : Prog Op σ ε Err α} {s t : σ} {r : Except Err α} (h : Ends dev p s r t) :
    Ends dev (p.attempt : Prog Op σ ε Err' (Except Err α)) s (.ok r) t := by
  induction h with
  | ret a s => exact .ret _ s
  | fail e s => exact .ret _ s
  | look _ ih => exact .look ih
  | done _ ih => exact .done ih
  | fault torn _ ih => exact .fault torn ih

/-- A bound on every disturbed run bounds where such a run ends. -/
theorem Meets.ends {p : Prog Op σ ε Err α} {Q : Except Err α → σ → Prop} {s t : σ}
    {r : Except Err α} (h : p.Meets dev R Q s) (run : Ends dev p s r t) : Q r t := by
  induction run with
  | ret a s => exact h
  | fail e s => exact h
  | look _ ih => exact ih h
  | done _ ih => exact ih h.2.2
  | fault torn _ ih => exact ih ((h.1 _ torn).2 _)

/-- What every change keeps holds where the undisturbed run ends. -/
theorem Meets.keeps {p : Prog Op σ ε Err α} {Q : Except Err α → σ → Prop} {I : σ → Prop} {s : σ}
    (h : p.Meets dev R Q s) (keeps : ∀ s t, R s t → I s → I t) (holds : I s) :
    I (p.exec dev s).2 := by
  induction p generalizing s with
  | ret a => exact holds
  | fail e => exact holds
  | look k ih => exact ih s h holds
  | act o k ih => exact ih _ h.2.2 (keeps _ _ h.2.1 holds)

/-- The undisturbed run is one of the runs that `Meets` bounds. -/
theorem Meets.exec {p : Prog Op σ ε Err α} {Q : Except Err α → σ → Prop} {s : σ}
    (h : p.Meets dev R Q s) : Q (p.exec dev s).1 (p.exec dev s).2 := by
  induction p generalizing s with
  | ret a => exact h
  | fail e => exact h
  | look k ih => exact ih s h
  | act o k ih => exact ih _ h.2.2

end Prog

end RoLauncher.Crash
