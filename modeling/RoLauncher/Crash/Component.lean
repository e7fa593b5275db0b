import RoLauncher.Crash.System

/-!
# A device inside another one

A program often works on one part of a larger durable state: the disk of a
state that also holds a database and a log. `Component` says how the smaller
device sits in the larger one, and `Prog.on` runs its programs there. What
bounds a program on its own device bounds it inside: it moves its part as it
did, and nothing else (`Meets.on`).
-/

namespace RoLauncher.Crash

variable {Op Op' σ τ ε Err α β : Type}

/-- A device that is a part of another one. -/
structure Component (dev : Device Op σ ε) (whole : Device Op' τ ε) where
  op : Op → Op'
  get : τ → σ
  set : τ → σ → τ
  get_set : ∀ w s, get (set w s) = s
  exec : ∀ o w, whole.exec (op o) w = ((dev.exec o (get w)).1, set w (dev.exec o (get w)).2)
  torn : ∀ o w w', whole.torn (op o) w w' → ∃ s, dev.torn o (get w) s ∧ w' = set w s

variable {dev : Device Op σ ε} {whole : Device Op' τ ε}

namespace Prog

/-- The program, on its part of the larger state. -/
def on (part : Component dev whole) : Prog Op σ ε Err α → Prog Op' τ ε Err α
  | .ret a => .ret a
  | .fail e => .fail e
  | .look k => .look fun w => (k (part.get w)).on part
  | .act o k => .act (part.op o) fun r => (k r).on part

/-- **A component moves only itself.** -/
theorem Meets.on (part : Component dev whole) {R : σ → σ → Prop} {p : Prog Op σ ε Err α}
    {Q : Except Err α → σ → Prop} {w : τ} (h : p.Meets dev R Q (part.get w)) :
    (p.on part).Meets whole (fun w w' => R (part.get w) (part.get w') ∧ ∃ s, w' = part.set w s)
      (fun r w' => Q r (part.get w')) w := by
  induction p generalizing w with
  | ret a => exact h
  | fail e => exact h
  | look k ih => exact ih (part.get w) h
  | act o k ih =>
    obtain ⟨torn, moved, rest⟩ := h
    refine ⟨fun w' left => ?_, ?_⟩
    · obtain ⟨s, cut, rfl⟩ := part.torn o w w' left
      refine ⟨⟨?_, s, rfl⟩, fun e => ih _ ?_⟩
      · rw [part.get_set]
        exact (torn s cut).1
      · rw [part.get_set]
        exact (torn s cut).2 e
    · rw [part.exec]
      refine ⟨⟨?_, _, rfl⟩, ih _ ?_⟩
      · rw [part.get_set]
        exact moved
      · rw [part.get_set]
        exact rest

end Prog

end RoLauncher.Crash
