import RoLauncher.Threads.Task

/-!
# Tasks whose steps are nothing to the others

Most steps of a task leave alone what the threads rely on. `F` relates the
states around such a step: `Quiet` says that it breaks neither the
invariant nor anything another thread, or this one, counts on. A task that
takes only such steps is `Framed`, and keeps every assertion that lasts.
A task is `Harmless` when nothing has to be said of how it ends.
-/

namespace RoLauncher.Threads

variable {σ Err Err' α β : Type} {I P : σ → Prop} {R G F : σ → σ → Prop} {s : σ}

namespace Task

theorem stable_true : Stable R fun _ => True := fun _ _ _ _ => trivial

theorem Stable.and {P' : σ → Prop} (first : Stable R P) (second : Stable R P') : Stable R fun s => P s ∧ P' s :=
  fun s t both moved => ⟨first s t both.1 moved, second s t both.2 moved⟩

/-- An assertion under a condition that does not change. -/
theorem Stable.imp {C : Prop} (stable : C → Stable R P) : Stable R fun s => C → P s :=
  fun s t here moved c => stable c s t (here c) moved

theorem safe_ofExcept {result : Except Err α} {Q : Except Err α → σ → Prop} (stable : Stable R (Q result))
    (holds : Q result s) : (ofExcept result : Task σ Err α).Safe I R G Q s := by
  cases result with
  | ok a => exact safe_ret stable holds fun _ => id
  | error e => exact safe_fail stable holds fun _ => id

/-- Every step of the task is of this kind. -/
def Framed (F : σ → σ → Prop) : Task σ Err α → Prop
  | .ret _ | .fail _ => True
  | .step _ update k => (∀ s, F s (update s)) ∧ ∀ s, (k s).Framed F

namespace Framed

theorem bind {p : Task σ Err α} {f : α → Task σ Err β} (first : p.Framed F) (rest : ∀ a, (f a).Framed F) :
    (p >>= f).Framed F := by
  induction p with
  | ret a => exact rest a
  | fail e => trivial
  | step enabled update k ih => exact ⟨first.1, fun s => ih s (first.2 s)⟩

theorem attempt {p : Task σ Err α} (framed : p.Framed F) :
    (p.attempt : Task σ Err' (Except Err α)).Framed F := by
  induction p with
  | ret a => trivial
  | fail e => trivial
  | step enabled update k ih => exact ⟨framed.1, fun s => ih s (framed.2 s)⟩

theorem ofExcept (result : Except Err α) : (Task.ofExcept result : Task σ Err α).Framed F := by
  cases result with
  | ok a => trivial
  | error e => trivial

theorem read (refl : ∀ s, F s s) (f : σ → α) : (Task.read f : Task σ Err α).Framed F := ⟨refl, fun _ => trivial⟩

theorem modify {update : σ → σ} (frame : ∀ s, F s (update s)) : (Task.modify update : Task σ Err Unit).Framed F :=
  ⟨frame, fun _ => trivial⟩

theorem fetch {f : σ → α} {update : σ → σ} (frame : ∀ s, F s (update s)) :
    (Task.fetch f update : Task σ Err α).Framed F := ⟨frame, fun _ => trivial⟩

theorem await {enabled : σ → Bool} {update : σ → σ} (frame : ∀ s, F s (update s)) :
    (Task.await enabled update : Task σ Err Unit).Framed F := ⟨frame, fun _ => trivial⟩

end Framed

/-- Steps of this kind are nothing to anybody. -/
structure Quiet (I : σ → Prop) (R G F : σ → σ → Prop) : Prop where
  rely : ∀ {s t}, F s t → I s → R s t
  guar : ∀ {s t}, F s t → I s → G s t
  inv : ∀ {s t}, F s t → I s → I t

theorem Quiet.step {enabled : σ → Bool} {update : σ → σ} {k : σ → Task σ Err α} {Q : Except Err α → σ → Prop}
    (quiet : Quiet I R G F) (stable : Stable R P) (holds : P s) (frame : ∀ t, F t (update t))
    (rest : ∀ t, P t → I t → enabled t = true → P (update t) → (k t).Safe I R G Q (update t)) :
    (step enabled update k).Safe I R G Q s := by
  refine safe_step stable holds fun t here inv on => ?_
  have relied := quiet.rely (frame t) inv
  exact ⟨⟨quiet.guar (frame t) inv, quiet.inv (frame t) inv⟩, rest t here inv on (stable _ _ here relied)⟩

theorem Quiet.safe {p : Task σ Err α} (quiet : Quiet I R G F) (framed : p.Framed F) (stable : Stable R P)
    (holds : P s) : p.Safe I R G (fun _ t => P t) s := by
  induction p generalizing s with
  | ret a => exact safe_ret stable holds fun _ => id
  | fail e => exact safe_fail stable holds fun _ => id
  | step enabled update k ih =>
    exact quiet.step stable holds framed.1 fun t _ _ _ here => ih t (framed.2 t) here

/-- A framed task, and what comes after it. -/
theorem Quiet.andThen {p : Task σ Err α} {f : α → Task σ Err β} {Q : Except Err β → σ → Prop}
    (quiet : Quiet I R G F) (refl : ∀ s, R s s) (framed : p.Framed F) (stable : Stable R P) (holds : P s)
    (rest : ∀ a t, P t → (f a).Safe I R G Q t) (fails : ∀ e t, P t → Q (.error e) t) :
    (p >>= f).Safe I R G Q s :=
  (quiet.safe framed stable holds).seq refl rest fails

/-- What a read says of the state, as long as it lasts. -/
theorem Quiet.read {f : σ → α} {K : α → σ → Prop} (quiet : Quiet I R G F) (refl : ∀ s, F s s) (stable : Stable R P)
    (holds : P s) (kept : ∀ a, Stable R (K a)) (learn : ∀ t, P t → I t → K (f t) t) :
    (Task.read f : Task σ Err α).Safe I R G (fun r t => ∃ a, r = .ok a ∧ K a t) s :=
  quiet.step stable holds refl fun t here inv _ _ =>
    safe_ret (kept _) (learn t here inv) fun _ known => ⟨_, rfl, known⟩

/-- Nothing is said of how the task ends. -/
def Harmless (I : σ → Prop) (R G : σ → σ → Prop) (p : Task σ Err α) : Prop :=
  ∀ s, p.Safe I R G (fun _ _ => True) s

theorem Quiet.harmless {p : Task σ Err α} (quiet : Quiet I R G F) (framed : p.Framed F) : p.Harmless I R G :=
  fun _ => quiet.safe framed stable_true trivial

theorem Harmless.bind (refl : ∀ s, R s s) {p : Task σ Err α} {f : α → Task σ Err β} (first : p.Harmless I R G)
    (rest : ∀ a, (f a).Harmless I R G) : (p >>= f).Harmless I R G :=
  fun s => (first s).seq refl (fun a t _ => rest a t) fun _ _ _ => trivial

theorem Harmless.ret (a : α) : (Task.ret a : Task σ Err α).Harmless I R G := fun _ _ _ => trivial

theorem Harmless.fail (e : Err) : (Task.fail e : Task σ Err α).Harmless I R G := fun _ _ _ => trivial

theorem Harmless.discard (refl : ∀ s, R s s) {p : Task σ Err α} (harmless : p.Harmless I R G) :
    p.discard.Harmless I R G := harmless.bind refl fun _ => Harmless.ret ()

/-- What lasts whatever is guaranteed lasts through a task too. -/
theorem Safe.keeps {p : Task σ Err α} {Q : Except Err α → σ → Prop} (others : Stable R P) (own : Stable G P)
    (safe : p.Safe I R G Q s) (holds : P s) : p.Safe I R G (fun r t => Q r t ∧ P t) s := by
  induction p generalizing s with
  | ret a => exact fun t moved => ⟨safe t moved, others s t holds moved⟩
  | fail e => exact fun t moved => ⟨safe t moved, others s t holds moved⟩
  | step enabled update k ih =>
    intro t moved inv on
    obtain ⟨⟨guar, inv'⟩, rest⟩ := safe t moved inv on
    exact ⟨⟨guar, inv'⟩, ih t rest (own _ _ (others s t holds moved) guar)⟩

end Task

end RoLauncher.Threads
