import RoLauncher.Threads.Framed
import Mathlib.Data.List.Forall2
import Mathlib.Data.List.Nodup

/-!
# Tasks that run side by side

`both` runs two tasks in one thread, in the order that the state's `turn` says,
and `joinAll` any number of them, as an executor polls what it joins.
`Safe.both` is their parallel composition: each part counts on what the other
guarantees, and on what the thread as a whole counts on.
-/

namespace RoLauncher.Threads

variable {σ Err Err' α β γ : Type}

namespace Task

def map (f : α → β) : Task σ Err α → Task σ Err β
  | .ret a => .ret (f a)
  | .fail e => .fail e
  | .step enabled update k => .step enabled update fun s => (k s).map f

/-- The task with its result, an answer or a failure, made into an answer. -/
def collect (f : Except Err α → β) : Task σ Err α → Task σ Err' β
  | .ret a => .ret (f (.ok a))
  | .fail e => .ret (f (.error e))
  | .step enabled update k => .step enabled update fun s => (k s).collect f

/-- The left task's step is enabled, and it is its turn or the right one's is not. -/
def first (turn on on' : σ → Bool) (s : σ) : Bool := on s && (turn s || !on' s)

/-- A step of the left task, alongside the right one. -/
def alongside (turn on : σ → Bool) (update : σ → σ) (left : σ → Task σ Err β → Task σ Err γ)
    (alone : β → Task σ Err γ) : Task σ Err β → Task σ Err γ
  | .ret b => alone b
  | .fail e => .fail e
  | .step on' update' k' =>
    .step (fun s => on s || on' s) (fun s => if first turn on on' s then update s else update' s)
      fun s => if first turn on on' s then left s (.step on' update' k')
        else alongside turn on update left alone (k' s)

/-- Both tasks, step by step. The result of the left one is collected. -/
def both (turn : σ → Bool) (f : Except Err α → β → γ) :
    Task σ Err α → Task σ Err' β → Task σ Err' γ
  | .ret a, q => q.map (f (.ok a))
  | .fail e, q => q.map (f (.error e))
  | .step on update k, q =>
    alongside turn on update (fun s => both turn f (k s))
      (fun b => (Task.step on update k).collect fun r => f r b) q

/-- All tasks, with their results in the tasks' order. -/
def joinAll (turn : Nat → σ → Bool) : List (Task σ Err α) → Task σ Err' (List (Except Err α))
  | [] => .ret []
  | p :: ps => both (turn ps.length) List.cons p (joinAll turn ps)

variable {I : σ → Prop} {R R' R₁ R₂ G G' G₁ G₂ : σ → σ → Prop} {s : σ}

/-- Count on less, guarantee more. -/
theorem Safe.weaken {p : Task σ Err α} {Q : Except Err α → σ → Prop} (safe : p.Safe I R G Q s)
    (relied : ∀ s t, R' s t → R s t) (guaranteed : ∀ s t, G s t → G' s t) : p.Safe I R' G' Q s := by
  induction p generalizing s with
  | ret a => exact fun t moved => safe t (relied _ _ moved)
  | fail e => exact fun t moved => safe t (relied _ _ moved)
  | step enabled update k ih =>
    intro t moved inv on
    obtain ⟨⟨guar, inv'⟩, rest⟩ := safe t (relied _ _ moved) inv on
    exact ⟨⟨guaranteed _ _ guar, inv'⟩, ih t rest⟩

theorem Safe.map {f : α → β} {p : Task σ Err α} {Q : Except Err β → σ → Prop}
    (safe : p.Safe I R G (fun r t => Q (r.map f) t) s) : (p.map f).Safe I R G Q s := by
  induction p generalizing s with
  | ret a => exact safe
  | fail e => exact safe
  | step enabled update k ih =>
    intro t moved inv on
    obtain ⟨kept, rest⟩ := safe t moved inv on
    exact ⟨kept, ih t rest⟩

theorem Safe.collect {f : Except Err α → β} {p : Task σ Err α} {Q : Except Err' β → σ → Prop}
    (safe : p.Safe I R G (fun r t => Q (.ok (f r)) t) s) : (p.collect f).Safe I R G Q s := by
  induction p generalizing s with
  | ret a => exact safe
  | fail e => exact safe
  | step enabled update k ih =>
    intro t moved inv on
    obtain ⟨kept, rest⟩ := safe t moved inv on
    exact ⟨kept, ih t rest⟩

/-- Two parts of a thread that get along with one another, and with the other threads. -/
structure Beside (R G R₁ G₁ R₂ G₂ : σ → σ → Prop) : Prop where
  refl₁ : ∀ s, R₁ s s
  refl₂ : ∀ s, R₂ s s
  trans₁ : ∀ s t u, R₁ s t → R₁ t u → R₁ s u
  trans₂ : ∀ s t u, R₂ s t → R₂ t u → R₂ s u
  outer₁ : ∀ s t, R s t → R₁ s t
  outer₂ : ∀ s t, R s t → R₂ s t
  side₁ : ∀ s t, G₂ s t → R₁ s t
  side₂ : ∀ s t, G₁ s t → R₂ s t
  guar₁ : ∀ s t, G₁ s t → G s t
  guar₂ : ∀ s t, G₂ s t → G s t

/-- What is established once and for all is still there when a task is done. -/
theorem Safe.beside {p : Task σ Err α} {Q : Except Err α → σ → Prop} {E : σ → Prop}
    (safe : p.Safe I R₁ G₁ Q s) (refl : ∀ s, R₂ s s) (trans : ∀ s t u, R₂ s t → R₂ t u → R₂ s u)
    (outer₁ : ∀ s t, R s t → R₁ s t) (outer₂ : ∀ s t, R s t → R₂ s t) (side : ∀ s t, G₁ s t → R₂ s t)
    (guar : ∀ s t, G₁ s t → G s t) (established : ∀ t, R₂ s t → E t) :
    p.Safe I R G (fun r t => Q r t ∧ E t) s := by
  have lasts : ∀ t u, (∀ v, R₂ t v → E v) → R₂ t u → ∀ v, R₂ u v → E v :=
    fun t u here moved v further => here v (trans _ _ _ moved further)
  have own : p.Safe I R G₁ Q s := safe.weaken outer₁ fun _ _ => id
  have kept := own.keeps (P := fun t => ∀ v, R₂ t v → E v) (fun t u here moved => lasts t u here (outer₂ _ _ moved))
    (fun t u here moved => lasts t u here (side _ _ moved)) established
  refine (kept.weaken (fun _ _ => id) guar).post ?_
  rintro r t ⟨done, here⟩
  exact ⟨done, here t (refl t)⟩

/-- **Parallel composition** of two tasks of one thread. -/
theorem Safe.both {turn : σ → Bool} {f : Except Err α → β → γ} {p : Task σ Err α} {q : Task σ Err' β}
    {Q₁ : Except Err α → σ → Prop} {Q₂ : Except Err' β → σ → Prop} {Q : Except Err' γ → σ → Prop}
    (beside : Beside R G R₁ G₁ R₂ G₂) (left : p.Safe I R₁ G₁ Q₁ s) (right : q.Safe I R₂ G₂ Q₂ s)
    (done : ∀ r b t, Q₁ r t → Q₂ (.ok b) t → Q (.ok (f r b)) t)
    (failed : ∀ e t, Q₂ (.error e) t → Q (.error e) t) : (Task.both turn f p q).Safe I R G Q s := by
  have ended : ∀ {s : σ} {q : Task σ Err' β} (r : Except Err α), (∀ t, R₁ s t → Q₁ r t) →
      q.Safe I R₂ G₂ Q₂ s → (q.map (f r)).Safe I R G Q s := by
    intro s q r established right
    refine Safe.map ((right.beside beside.refl₁ beside.trans₁ beside.outer₂ beside.outer₁ beside.side₁
      beside.guar₂ established).post ?_)
    rintro r' t ⟨right, left⟩
    cases r' with
    | ok b => exact done r b t left right
    | error e => exact failed e t right
  induction p generalizing s q with
  | ret a => exact ended _ left right
  | fail e => exact ended _ left right
  | step on update k ih =>
    induction q generalizing s with
    | ret b =>
      refine Safe.collect ((left.beside beside.refl₂ beside.trans₂ beside.outer₁ beside.outer₂ beside.side₂
        beside.guar₁ right).post ?_)
      rintro r t ⟨left, right⟩
      exact done r b t left right
    | fail e => exact fun t moved => failed e t (right t (beside.outer₂ _ _ moved))
    | step on' update' k' ih' =>
      intro t moved inv enabled
      by_cases here : first turn on on' t = true
      · have mine : on t = true := (Bool.and_eq_true_iff.mp here).1
        obtain ⟨⟨guar, inv'⟩, rest⟩ := left t (beside.outer₁ _ _ moved) inv mine
        simp only [here, if_true]
        refine ⟨⟨beside.guar₁ _ _ guar, inv'⟩, ih t rest ?_⟩
        exact right.others beside.trans₂
          (beside.trans₂ _ _ _ (beside.outer₂ _ _ moved) (beside.side₂ _ _ guar))
      · have other : on' t = true := by
          cases yours : on' t with
          | true => rfl
          | false =>
            change (on t || on' t) = true at enabled
            rw [yours, Bool.or_false] at enabled
            rw [first, enabled, yours] at here
            simp at here
        obtain ⟨⟨guar, inv'⟩, rest⟩ := right t (beside.outer₂ _ _ moved) inv other
        simp only [here, if_false, Bool.false_eq_true]
        refine ⟨⟨beside.guar₂ _ _ guar, inv'⟩, ih' t ?_ rest⟩
        exact left.others beside.trans₁
          (beside.trans₁ _ _ _ (beside.outer₁ _ _ moved) (beside.side₁ _ _ guar))

/-- **Parallel composition** of the tasks of a list. -/
theorem Safe.joinAll {ι : Type} {turn : Nat → σ → Bool} {task : ι → Task σ Err α} {rely guar : ι → σ → σ → Prop}
    {Q : ι → Except Err α → σ → Prop} {l : List ι} (apart : l.Nodup) (refl : ∀ i s, rely i s s)
    (trans : ∀ i s t u, rely i s t → rely i t u → rely i s u)
    (sides : ∀ i j s t, i ≠ j → guar i s t → rely j s t)
    (outer : ∀ i ∈ l, ∀ s t, R s t → rely i s t) (inner : ∀ i ∈ l, ∀ s t, guar i s t → G s t)
    (safe : ∀ i ∈ l, (task i).Safe I (rely i) (guar i) (Q i) s) :
    (Task.joinAll turn (l.map task) : Task σ Err' (List (Except Err α))).Safe I R G
      (fun r t => ∃ results, r = .ok results ∧ List.Forall₂ (fun i r => Q i r t) l results) s := by
  induction l generalizing R G with
  | nil => exact fun t _ => ⟨[], rfl, .nil⟩
  | cons i rest ih =>
    obtain ⟨new, apart⟩ := List.nodup_cons.mp apart
    have tail := ih (R := fun s t => ∀ j ∈ rest, rely j s t) (G := fun s t => ∃ j ∈ rest, guar j s t) apart
      (fun j mem s t moved => moved j mem) (fun j mem s t step => ⟨j, mem, step⟩)
      (fun j mem => safe j (List.mem_cons_of_mem _ mem))
    have head := safe i List.mem_cons_self
    refine Safe.both ?_ head tail ?_ ?_
    · exact {
        refl₁ := refl i
        refl₂ := fun s j _ => refl j s
        trans₁ := trans i
        trans₂ := fun s t u moved further j mem => trans j s t u (moved j mem) (further j mem)
        outer₁ := outer i List.mem_cons_self
        outer₂ := fun s t moved j mem => outer j (List.mem_cons_of_mem _ mem) s t moved
        side₁ := fun s t step => by
          obtain ⟨j, mem, step⟩ := step
          exact sides j i s t (fun same => new (same ▸ mem)) step
        side₂ := fun s t step j mem => sides i j s t (fun same => new (same ▸ mem)) step
        guar₁ := inner i List.mem_cons_self
        guar₂ := fun s t step => by
          obtain ⟨j, mem, step⟩ := step
          exact inner j (List.mem_cons_of_mem _ mem) s t step }
    · rintro r others t here ⟨results, same, established⟩
      obtain rfl := Except.ok.inj same
      exact ⟨r :: others, rfl, .cons here established⟩
    · rintro e t ⟨results, same, _⟩
      cases same

end Task

end RoLauncher.Threads
