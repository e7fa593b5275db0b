import RoLauncher.Crash.Program

/-!
# The operations of a program

`Prog.Only` bounds the operations that a program performs, whatever it reads and however its
operations end. It says nothing of the state, so every construct of a program has a rule
without one.
-/

namespace RoLauncher.Crash

variable {Op σ ε Err Err' α β : Type} {P : Op → Prop}

/-- The program performs no other operations than these. -/
def Prog.Only (P : Op → Prop) : Prog Op σ ε Err α → Prop
  | .ret _ | .fail _ => True
  | .look k => ∀ s, (k s).Only P
  | .act o k => P o ∧ ∀ r, (k r).Only P

namespace Prog.Only

theorem perform {o : Op} {onError : ε → Err} (allowed : P o) :
    Only P (.perform o onError : Prog Op σ ε Err Unit) := by
  refine ⟨allowed, fun r => ?_⟩
  cases r with
  | ok done => trivial
  | error e => trivial

theorem performIgnoring {o : Op} (allowed : P o) :
    Only P (.performIgnoring o : Prog Op σ ε Err Unit) := ⟨allowed, fun _ => trivial⟩

theorem ofExcept (r : Except Err α) : Only P (.ofExcept r : Prog Op σ ε Err α) := by
  cases r with
  | ok a => trivial
  | error e => trivial

theorem onlyIf {condition : Bool} {p : Prog Op σ ε Err Unit} (h : p.Only P) :
    Only P (.onlyIf condition p) := by
  cases condition with
  | true => exact h
  | false => trivial

theorem bind {p : Prog Op σ ε Err α} {f : α → Prog Op σ ε Err β} (first : p.Only P)
    (rest : ∀ a, (f a).Only P) : (p >>= f).Only P := by
  induction p with
  | ret a => exact rest a
  | fail e => trivial
  | look k ih => exact fun s => ih s (first s)
  | act o k ih => exact ⟨first.1, fun r => ih r (first.2 r)⟩

theorem attempt {p : Prog Op σ ε Err α} (h : p.Only P) :
    (p.attempt : Prog Op σ ε Err' (Except Err α)).Only P := by
  induction p with
  | ret a => trivial
  | fail e => trivial
  | look k ih => exact fun s => ih s (h s)
  | act o k ih => exact ⟨h.1, fun r => ih r (h.2 r)⟩

theorem discard {p : Prog Op σ ε Err α} (h : p.Only P) : p.discard.Only P :=
  h.bind fun _ => trivial

theorem forM {names : List α} {f : α → Prog Op σ ε Err Unit} (h : ∀ a, a ∈ names → (f a).Only P) :
    Only P (names.forM f) := by
  induction names with
  | nil => trivial
  | cons a rest ih =>
    show Only P (f a >>= fun _ => rest.forM f)
    exact (h a List.mem_cons_self).bind fun _ => ih fun b there => h b (List.mem_cons_of_mem a there)

end Prog.Only

end RoLauncher.Crash
