import Mathlib.Data.List.Count

/-!
# Runs by acts

A system that does one act after the other: `step` says what an act leads to,
where it is possible, and `allowed` which acts a run may hold. What every
act keeps, a run keeps (`Run.invariant`). A distance that no act enlarges and
that some acts shorten is gone after enough of these (`Run.countdown`).
-/

namespace RoLauncher.Runs

variable {σ Act : Type} {step : Act → σ → Option σ} {allowed : Act → σ → Prop}

/-- The acts lead from the one state to the other. -/
inductive Run (step : Act → σ → Option σ) (allowed : Act → σ → Prop) : σ → List Act → σ → Prop
  | nil {s : σ} : Run step allowed s [] s
  | cons {s t u : σ} {act : Act} {acts : List Act} (ok : allowed act s) (done : step act s = some t)
      (rest : Run step allowed t acts u) : Run step allowed s (act :: acts) u

namespace Run

variable {s t : σ} {acts : List Act}

/-- An invariant of the acts. -/
theorem invariant {I : σ → Prop}
    (keeps : ∀ s act t, I s → allowed act s → step act s = some t → I t)
    (run : Run step allowed s acts t) (start : I s) : I t := by
  induction run with
  | nil => exact start
  | cons ok done _ ih => exact ih (keeps _ _ _ start ok done)

/-- The acts that count bring a distance down. -/
theorem countdown {I : σ → Prop} {distance : σ → Nat} {counts : Act → Bool}
    (keeps : ∀ s act t, I s → allowed act s → step act s = some t → I t)
    (nearer : ∀ s act t, I s → allowed act s → step act s = some t →
      distance t ≤ distance s - if counts act then 1 else 0)
    (run : Run step allowed s acts t) (start : I s) :
    distance t ≤ distance s - acts.countP counts := by
  induction run with
  | nil => exact Nat.le_refl _
  | cons ok done _ ih =>
    have rest := ih (keeps _ _ _ start ok done)
    have first := nearer _ _ _ start ok done
    rw [List.countP_cons]
    omega

end Run

end RoLauncher.Runs
