import RoLauncher.Results.Except

/-!
# Collecting up to a limit

A computation that collects things and fails when they become too many. What it
does is said once (`Collects`), and computations that follow each other collect
what they collect together (`Collects.bind`, `Collects.foldlM`). What a step of a fold
adds may depend on the steps before it (`gather`).
-/

namespace RoLauncher.Results

variable {ε σ τ α β : Type}

section Gather

variable {adds : List α → α → List β} {done xs ys : List α}

/-- What the elements add, each to those that are done before it. -/
def gather (adds : List α → α → List β) : List α → List α → List β
  | _, [] => []
  | done, x :: rest => adds done x ++ gather adds (done ++ [x]) rest

theorem gather_append :
    gather adds done (xs ++ ys) = gather adds done xs ++ gather adds (done ++ xs) ys := by
  induction xs generalizing done with
  | nil => rw [List.nil_append, List.append_nil, gather, List.nil_append]
  | cons x xs ih =>
    rw [List.cons_append, gather, ih, gather, List.append_assoc, List.append_assoc]
    rfl

theorem mem_gather {b : β} :
    b ∈ gather adds done xs ↔ ∃ before x rest, xs = before ++ x :: rest ∧ b ∈ adds (done ++ before) x := by
  induction xs generalizing done with
  | nil =>
    constructor
    · intro mem
      cases mem
    · rintro ⟨before, x, rest, never, _⟩
      exact absurd never (by simp)
  | cons x xs ih =>
    rw [gather, List.mem_append, ih]
    constructor
    · rintro (here | ⟨before, y, rest, rfl, mem⟩)
      · exact ⟨[], x, xs, rfl, by rwa [List.append_nil]⟩
      · rw [List.append_assoc] at mem
        exact ⟨x :: before, y, rest, rfl, mem⟩
    · rintro ⟨before, y, rest, split, mem⟩
      cases before with
      | nil =>
        cases split
        rw [List.append_nil] at mem
        exact .inl mem
      | cons _ before =>
        cases split
        exact .inr ⟨before, y, rest, rfl, by rwa [List.append_assoc]⟩

theorem gather_const {f : α → List β} : gather (fun _ => f) done xs = xs.flatMap f := by
  induction xs generalizing done with
  | nil => rfl
  | cons x xs ih => rw [gather, ih, List.flatMap_cons]

end Gather

/-- Collects new things after others, unless they are too many together. -/
def Collects (limit : Nat) (tooMany : ε) (old new : List β) (post : List β → σ → Prop) (x : Except ε σ) : Prop :=
  (limit < (old ++ new).length ∧ x = .error tooMany) ∨
    ((old ++ new).length ≤ limit ∧ ∃ next, x = .ok next ∧ post (old ++ new) next)

section Collecting

variable {limit : Nat} {tooMany : ε} {old new more : List β} {post post' : List β → σ → Prop}
  {x : Except ε σ}

theorem Collects.nothing {s : σ} (few : old.length ≤ limit) (h : post old s) :
    Collects limit tooMany old [] post (.ok s) := by
  right
  rw [List.append_nil]
  exact ⟨few, s, rfl, h⟩

theorem Collects.bind {post : List β → τ → Prop} {x : Except ε τ} {f : τ → Except ε σ}
    (h : Collects limit tooMany old new post x)
    (next : ∀ t, (old ++ new).length ≤ limit → post (old ++ new) t →
      Collects limit tooMany (old ++ new) more post' (f t)) :
    Collects limit tooMany old (new ++ more) post' (x >>= f) := by
  obtain ⟨many, rfl⟩ | ⟨few, t, rfl, after⟩ := h
  · left
    refine ⟨?_, rfl⟩
    rw [← List.append_assoc, List.length_append]
    exact Nat.lt_of_lt_of_le many (Nat.le_add_right _ _)
  · have whole := next t few after
    rw [Collects, List.append_assoc] at whole
    exact whole

theorem Collects.weaken (h : Collects limit tooMany old new post x)
    (weaker : ∀ all s, post all s → post' all s) : Collects limit tooMany old new post' x := by
  obtain failed | ⟨few, t, done, after⟩ := h
  · exact .inl failed
  · exact .inr ⟨few, t, done, weaker _ _ after⟩

/-- What a fold collects, with what is known after each step. -/
theorem Collects.foldlM {step : σ → α → Except ε σ} {adds : List α → α → List β}
    {post : List α → List β → σ → Prop} {done : List α} {s : σ} (xs : List α)
    (few : old.length ≤ limit) (start : post done old s)
    (next : ∀ done x old s, old.length ≤ limit → post done old s →
      Collects limit tooMany old (adds done x) (post (done ++ [x])) (step s x)) :
    Collects limit tooMany old (gather adds done xs) (post (done ++ xs)) (xs.foldlM step s) := by
  induction xs generalizing done old s with
  | nil =>
    rw [List.append_nil]
    exact .nothing few start
  | cons x xs ih =>
    rw [List.foldlM_cons, gather]
    apply (next done x old s few start).bind
    intro t few after
    have rest := ih few after
    rw [List.append_assoc] at rest
    exact rest

theorem Collects.ok {s : σ} (h : Collects limit tooMany old new post x) (done : x = .ok s) :
    (old ++ new).length ≤ limit ∧ post (old ++ new) s := by
  obtain ⟨-, rfl⟩ | ⟨few, t, rfl, after⟩ := h
  · cases done
  · cases done
    exact ⟨few, after⟩

end Collecting

end RoLauncher.Results
