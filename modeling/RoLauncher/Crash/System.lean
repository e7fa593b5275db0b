import RoLauncher.Crash.Program

/-!
# Runs of killable processes over one durable state

A system is a durable state and at most one process on it: processes that
share a state take turns under an exclusive guard. A process starts one of
the programs that may be entered in that state, takes its steps, and is stopped: because it ended, or
killed between two operations, or killed inside one. The next process starts
from whatever the last one left, so a crash of a recovery from a crash is
just a longer run.

`SysStep` is one such step. `Run` closes it, with an assertion `A` on every
state the run leaves from: "up to the first state where ..." is a run whose
`A` says "not yet". The one induction of this file is `Run.chain`: when every
entry program meets a relation `R`, the states of a run are linked by `R`.
`Run.invariant` is the form the safety proofs use.
-/

namespace RoLauncher.Crash

variable {Op σ ε Err : Type}

/-- The durable state and the process on it, if any. -/
abbrev Config (Op σ ε Err : Type) := σ × Option (Prog Op σ ε Err Unit)

/-- One step of the system. -/
inductive SysStep (dev : Device Op σ ε) (entry : σ → Prog Op σ ε Err Unit → Prop) :
    Config Op σ ε Err → Config Op σ ε Err → Prop
  | start {s : σ} {p : Prog Op σ ε Err Unit} : entry s p → SysStep dev entry (s, none) (s, some p)
  | look {s : σ} {k : σ → Prog Op σ ε Err Unit} :
      SysStep dev entry (s, some (.look k)) (s, some (k s))
  | done {s : σ} {o : Op} {k : Except ε Unit → Prog Op σ ε Err Unit} :
      SysStep dev entry (s, some (.act o k)) ((dev.exec o s).2, some (k (dev.exec o s).1))
  | fault {s t : σ} {o : Op} {k : Except ε Unit → Prog Op σ ε Err Unit} {e : ε} :
      dev.torn o s t → SysStep dev entry (s, some (.act o k)) (t, some (k (.error e)))
  | stop {s : σ} {p : Prog Op σ ε Err Unit} : SysStep dev entry (s, some p) (s, none)
  | killInside {s t : σ} {o : Op} {k : Except ε Unit → Prog Op σ ε Err Unit} :
      dev.torn o s t → SysStep dev entry (s, some (.act o k)) (t, none)

/-- A run all of whose steps leave a state that satisfies `A`. -/
abbrev Run (dev : Device Op σ ε) (entry : σ → Prog Op σ ε Err Unit → Prop) (A : σ → Prop) :
    Config Op σ ε Err → Config Op σ ε Err → Prop :=
  Relation.ReflTransGen fun c c' => A c.1 ∧ SysStep dev entry c c'

/-- What is left of the running process, if any, stays within `R`. -/
def Bounded (dev : Device Op σ ε) (R : σ → σ → Prop) (c : Config Op σ ε Err) : Prop :=
  ∀ p, c.2 = some p → p.Meets dev R (fun _ _ => True) c.1

variable {dev : Device Op σ ε} {entry : σ → Prog Op σ ε Err Unit → Prop} {R : σ → σ → Prop}
  {A I : σ → Prop}

theorem bounded_idle (s : σ) : Bounded dev R ((s, none) : Config Op σ ε Err) :=
  fun p h => by cases h

/-- **One step.** The state stays, or moves within `R`, and what is left of
the process stays bounded. -/
theorem SysStep.bounded {c c' : Config Op σ ε Err}
    (entries : ∀ p, entry c.1 p → p.Meets dev R (fun _ _ => True) c.1)
    (h : SysStep dev entry c c') (hc : Bounded dev R c) :
    (c.1 = c'.1 ∨ R c.1 c'.1) ∧ Bounded dev R c' := by
  cases h with
  | start hp =>
    refine ⟨.inl rfl, fun q hq => ?_⟩
    cases hq
    exact entries _ hp
  | look =>
    refine ⟨.inl rfl, fun q hq => ?_⟩
    cases hq
    exact hc (.look _) rfl
  | done =>
    obtain ⟨_, moved, rest⟩ := hc _ rfl
    refine ⟨.inr moved, fun q hq => ?_⟩
    cases hq
    exact rest
  | fault ht =>
    obtain ⟨torn, _, _⟩ := hc _ rfl
    refine ⟨.inr (torn _ ht).1, fun q hq => ?_⟩
    cases hq
    exact (torn _ ht).2 _
  | stop => exact ⟨.inl rfl, bounded_idle _⟩
  | killInside ht =>
    obtain ⟨torn, _, _⟩ := hc _ rfl
    exact ⟨.inr (torn _ ht).1, bounded_idle _⟩

/-- **A whole run.** Its states are linked by `R`. -/
theorem Run.chain (entries : ∀ s p, entry s p → p.Meets dev R (fun _ _ => True) s)
    {c c' : Config Op σ ε Err} (hc : Bounded dev R c) (run : Run dev entry A c c') :
    Relation.ReflTransGen (fun s t => A s ∧ R s t) c.1 c'.1 ∧ Bounded dev R c' := by
  induction run with
  | refl => exact ⟨.refl, hc⟩
  | tail _ step ih =>
    obtain ⟨chain, bounded⟩ := ih
    obtain ⟨holds, step⟩ := step
    obtain ⟨same | moved, bounded'⟩ := step.bounded (fun p hp => entries _ p hp) bounded
    · rw [← same]
      exact ⟨chain, bounded'⟩
    · exact ⟨chain.tail ⟨holds, moved⟩, bounded'⟩

/-- A process that is killed between two operations. -/
theorem Run.killedAfter {s : σ} {p : Prog Op σ ε Err Unit} (h : entry s p) (n : Nat) :
    Run dev entry (fun _ => True) (s, none) (p.killedAfter dev n s, none) := by
  refine .head ⟨trivial, .start h⟩ ?_
  clear h
  induction p generalizing n s with
  | ret a => exact .single ⟨trivial, .stop⟩
  | fail e => exact .single ⟨trivial, .stop⟩
  | look k ih => exact .head ⟨trivial, .look⟩ (ih s n)
  | act o k ih =>
    cases n with
    | zero => exact .single ⟨trivial, .stop⟩
    | succ n => exact .head ⟨trivial, .done⟩ (ih _ n)

/-- **The invariant rule.** An assertion that one move keeps, from a state
that satisfies `A`, holds along the whole run. -/
theorem Run.invariant (entries : ∀ s p, entry s p → p.Meets dev R (fun _ _ => True) s)
    (keeps : ∀ s t, A s → R s t → I s → I t)
    {c c' : Config Op σ ε Err} (hc : Bounded dev R c) (run : Run dev entry A c c')
    (holds : I c.1) : I c'.1 := by
  obtain ⟨chain, _⟩ := Run.chain entries hc run
  generalize c'.1 = t at chain
  induction chain with
  | refl => exact holds
  | tail _ step ih => exact keeps _ _ step.1 step.2 ih

/-- **The rule of the start.** Where every program, started on an assertion, keeps it at each of its
steps and makes only steps of `R`, a run whose process does so already stays on the assertion, and
its steps in `R`. -/
theorem Run.keptFrom
    (entries : ∀ s p, I s → entry s p → p.Meets dev (fun s t => R s t ∧ I t) (fun _ _ => True) s)
    {c c' : Config Op σ ε Err} (run : Run dev entry A c c') (holds : I c.1)
    (bounded : Bounded dev (fun s t => R s t ∧ I t) c) :
    I c'.1 ∧ Bounded dev (fun s t => R s t ∧ I t) c' := by
  induction run with
  | refl => exact ⟨holds, bounded⟩
  | tail _ step ih =>
    obtain ⟨here, bounded⟩ := ih
    obtain ⟨same | moved, bounded'⟩ := step.2.bounded (fun p => entries _ p here) bounded
    · exact ⟨same ▸ here, bounded'⟩
    · exact ⟨moved.2, bounded'⟩

/-- The same for a run that starts without a process. -/
theorem Run.kept {s : σ}
    (entries : ∀ s p, I s → entry s p → p.Meets dev (fun _ t => I t) (fun _ _ => True) s)
    {c' : Config Op σ ε Err} (run : Run dev entry A (s, none) c') (holds : I s) : I c'.1 :=
  (Run.keptFrom (R := fun _ _ => True)
    (fun s p here hp => (entries s p here hp).mono (fun _ _ kept => ⟨trivial, kept⟩) fun _ _ q => q)
    run holds (bounded_idle s)).1

/-- **The frozen rule.** A state that no entry program changes when it starts
there is never left. -/
theorem Run.frozen {s : σ}
    (entries : ∀ p, entry s p → p.Meets dev (fun _ t => t = s) (fun _ _ => True) s)
    {c' : Config Op σ ε Err} (run : Run dev entry A (s, none) c') : c'.1 = s :=
  Run.kept (I := (· = s)) (fun _ p here hp => by rw [here] at hp ⊢; exact entries p hp) run rfl

end RoLauncher.Crash
