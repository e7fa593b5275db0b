import RoLauncher.Crash.Component

/-!
# Programs that keep an assertion

`Prog.Keeps` says of a program, wherever it is started with `I`, that each of
its steps stays within `R` and keeps `I`, however it is disturbed. Where `Meets`
follows one run from one state, `Keeps` is a property of the program alone,
and so every construct of a program has a rule without a state in it.
-/

namespace RoLauncher.Crash

variable {Op Op' σ τ ε Err Err' α β : Type} {dev : Device Op σ ε} {R : σ → σ → Prop} {I : σ → Prop}

/-- Wherever `I` holds, every step keeps it, within `R`. -/
def Prog.Keeps (dev : Device Op σ ε) (R : σ → σ → Prop) (I : σ → Prop) (p : Prog Op σ ε Err α) :
    Prop :=
  ∀ s, I s → p.Meets dev (fun s t => R s t ∧ I t) (fun _ t => I t) s

namespace Prog.Keeps

/-- With nothing to keep, it is a bound that holds from everywhere. -/
theorem of_meets {p : Prog Op σ ε Err α} (h : ∀ s, p.Meets dev R (fun _ _ => True) s) :
    Keeps dev R (fun _ => True) p :=
  fun s _ => (h s).mono (fun _ _ step => ⟨step, trivial⟩) fun _ _ _ => trivial

theorem meets {p : Prog Op σ ε Err α} (h : Keeps dev R (fun _ => True) p) (s : σ) :
    p.Meets dev R (fun _ _ => True) s :=
  (h s trivial).mono (fun _ _ step => step.1) fun _ _ _ => trivial

theorem ret (a : α) : Keeps dev R I (.ret a : Prog Op σ ε Err α) := fun _ here => here

theorem fail (e : Err) : Keeps dev R I (.fail e : Prog Op σ ε Err α) := fun _ here => here

theorem ofExcept (r : Except Err α) : Keeps dev R I (.ofExcept r : Prog Op σ ε Err α) :=
  fun _ here => meets_ofExcept here

/-- The rest may rely on what holds of the state it looked at. -/
theorem look {k : σ → Prog Op σ ε Err α} (h : ∀ s, I s → Keeps dev R I (k s)) :
    Keeps dev R I (.look k) := fun s here => meets_look (h s here s here)

theorem bind {p : Prog Op σ ε Err α} {f : α → Prog Op σ ε Err β}
    (first : Keeps dev R I p) (rest : ∀ a, Keeps dev R I (f a)) : Keeps dev R I (p >>= f) :=
  fun s here => Meets.bind ((first s here).post fun r t there => by
    cases r with
    | ok a => exact rest a t there
    | error e => exact there)

theorem attempt {p : Prog Op σ ε Err α} (h : Keeps dev R I p) :
    Keeps dev R I (p.attempt : Prog Op σ ε Err' (Except Err α)) :=
  fun s here => Meets.attempt (h s here)

theorem mapError {f : Err → Err'} {p : Prog Op σ ε Err α} (h : Keeps dev R I p) :
    Keeps dev R I (p.mapError f) := fun s here => Meets.mapError (h s here)

theorem discard {p : Prog Op σ ε Err α} (h : Keeps dev R I p) : Keeps dev R I p.discard :=
  h.bind fun _ => .ret ()

theorem onlyIf {condition : Bool} {p : Prog Op σ ε Err Unit}
    (h : condition = true → Keeps dev R I p) : Keeps dev R I (.onlyIf condition p) :=
  fun s here => .onlyIf (fun yes => h yes s here) fun _ => here

/-- An operation, whatever follows its result. -/
theorem act {o : Op} {k : Except ε Unit → Prog Op σ ε Err α}
    (moved : ∀ s, I s → R s (dev.exec o s).2 ∧ I (dev.exec o s).2)
    (torn : ∀ s t, I s → dev.torn o s t → R s t ∧ I t) (rest : ∀ r, Keeps dev R I (k r)) :
    Keeps dev R I (.act o k) := by
  intro s here
  refine ⟨fun t left => ?_, moved s here, rest _ _ (moved s here).2⟩
  have kept := torn s t here left
  exact ⟨kept, fun e => rest _ t kept.2⟩

theorem perform {o : Op} {onError : ε → Err}
    (moved : ∀ s, I s → R s (dev.exec o s).2 ∧ I (dev.exec o s).2)
    (torn : ∀ s t, I s → dev.torn o s t → R s t ∧ I t) :
    Keeps dev R I (.perform o onError : Prog Op σ ε Err Unit) :=
  act moved torn fun r => by cases r <;> exact fun _ here => here

theorem performIgnoring {o : Op} (moved : ∀ s, I s → R s (dev.exec o s).2 ∧ I (dev.exec o s).2)
    (torn : ∀ s t, I s → dev.torn o s t → R s t ∧ I t) :
    Keeps dev R I (.performIgnoring o : Prog Op σ ε Err Unit) :=
  act moved torn fun _ => .ret ()

/-- What a component keeps, the whole keeps. -/
theorem on {whole : Device Op' τ ε} (part : Component dev whole) {p : Prog Op σ ε Err α}
    (h : Keeps dev R I p) :
    Keeps whole (fun w w' => R (part.get w) (part.get w')) (fun w => I (part.get w)) (p.on part) :=
  fun w here => ((h (part.get w) here).on part).mono (fun _ _ step => step.1) fun _ _ after => after

/-- An assertion on what the component leaves alone. -/
theorem on_frame {whole : Device Op' τ ε} (part : Component dev whole) {J : τ → Prop}
    (frame : ∀ w s, J w → J (part.set w s)) (p : Prog Op σ ε Err α) :
    Keeps whole (fun _ _ => True) J (p.on part) := fun w here =>
  (((Meets.always p (part.get w)).on part).within
    (fun w w' holds step => by
      obtain ⟨_, s, rfl⟩ := step
      exact ⟨⟨trivial, frame w s holds⟩, frame w s holds⟩) here).post fun _ _ after => after.2

end Prog.Keeps

/-- **A kept assertion**: it holds at the end of the run, and every step from there stays in `R`. -/
theorem Run.keptBy {entry : σ → Prog Op σ ε Err Unit → Prop} {A : σ → Prop}
    (entries : ∀ s p, I s → entry s p → p.Meets dev (fun s t => R s t ∧ I t) (fun _ t => I t) s)
    {c c' : Config Op σ ε Err} (run : Run dev entry A c c') (holds : I c.1)
    (process : ∀ p, c.2 = some p → p.Keeps dev R I) :
    I c'.1 ∧ ∀ c'', SysStep dev entry c' c'' → c'.1 = c''.1 ∨ R c'.1 c''.1 := by
  have started : ∀ s p, I s → entry s p → p.Meets dev (fun s t => R s t ∧ I t) (fun _ _ => True) s :=
    fun s p here hp => (entries s p here hp).post fun _ _ _ => trivial
  obtain ⟨here, bounded⟩ := Run.keptFrom started run holds
    fun p hp => (process p hp _ holds).post fun _ _ _ => trivial
  refine ⟨here, fun c'' step => ?_⟩
  obtain ⟨same | moved, _⟩ := step.bounded (fun p => started _ p here) bounded
  · exact .inl same
  · exact .inr moved.1

end RoLauncher.Crash
