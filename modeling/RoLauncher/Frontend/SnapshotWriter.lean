import RoLauncher.Runs.Labelled
import Mathlib.Data.List.Perm.Basic

/-!
# Writing the latest snapshot (`shared/store/latestSnapshotWriter.ts`)

`LatestSnapshotWriter` saves snapshots one after the other, and skips those that
are no longer the newest. The program is single-threaded, but `write` can be
called whenever something of it runs: while a save is pending, between the
end of a save and the drain that waits for it, and from within `save` itself.
A drain is therefore kept with the stage it has come to, and there may be more
than one.

What the writer promises (`Lawful`) is kept as long as every act is `Orderly`:
nothing is written from within the first `save` of a drain, and nothing between
a `save` that fails and its failure being handled. Either breaks it.
-/

namespace RoLauncher.Frontend.Writer

open Runs

/-! ## The writer -/

/-- The fields of a `LatestSnapshotWriter`. The waiters stand for their promises by their revisions. -/
structure LatestSnapshotWriter (α : Type) where
  revision : Nat
  persistedRevision : Nat
  latest : Option α
  running : Bool
  waiters : List Nat

/-- How far a drain has come: it calls `save`, waits for it, has been told how it ended, is through. -/
inductive Stage (ε : Type)
  | calling (target : Nat)
  | waiting (target : Nat)
  | settled (target : Nat) (outcome : Option ε)
  | returned
  deriving DecidableEq

/-- A drain whose `finally` has not run. It is assigned when `running` has been set to its promise. -/
structure Drain (ε : Type) where
  stage : Stage ε
  assigned : Bool
  deriving DecidableEq

def Drain.isCalling {ε : Type} (drain : Drain ε) : Bool :=
  match drain.stage with
  | .calling _ => true
  | _ => false

/-- Its save has begun and has not ended. -/
def Drain.inFlight {ε : Type} (drain : Drain ε) : Bool :=
  match drain.stage with
  | .calling _ | .waiting _ => true
  | _ => false

/-- The writer, its drains, and what has happened: the snapshots of the calls of `write`, the calls
of `save` with their revisions, how these ended, and how the promises of `write` settled. -/
structure World (α ε : Type) where
  writer : LatestSnapshotWriter α
  drains : List (Drain ε)
  written : List α
  saves : List (Nat × α)
  ended : List (Nat × Option ε)
  answers : List (Nat × Option ε)

namespace World

variable {α ε : Type}

def new : World α ε := ⟨⟨0, 0, none, false, []⟩, [], [], [], [], []⟩

def resolveWaiters (w : World α ε) (revision : Nat) : World α ε :=
  { w with
    writer := { w.writer with waiters := w.writer.waiters.filter fun waiter => !decide (waiter ≤ revision) }
    answers := w.answers ++
      (w.writer.waiters.filter fun waiter => decide (waiter ≤ revision)).map fun waiter => (waiter, none) }

def rejectWaiters (w : World α ε) (error : ε) : World α ε :=
  { w with
    writer := { w.writer with waiters := [] }
    answers := w.answers ++ w.writer.waiters.map fun waiter => (waiter, some error) }

/-- The head of the loop of `drain`: what is to be saved next. -/
def next (w : World α ε) : Option (Nat × α) :=
  if w.writer.persistedRevision < w.writer.revision then
    w.writer.latest.map fun snapshot => (w.writer.revision, snapshot)
  else none

def startDrain (w : World α ε) : World α ε :=
  if w.writer.running then w
  else
    match w.next with
    | none =>
      { w with
        writer := { w.writer with running := true }
        drains := w.drains ++ [⟨.returned, true⟩] }
    | some (target, snapshot) =>
      { w with
        saves := w.saves ++ [(target, snapshot)]
        drains := w.drains ++ [⟨.calling target, false⟩] }

def write (w : World α ε) (snapshot : α) : World α ε :=
  let revision := w.writer.revision + 1
  startDrain
    { w with
      writer := { w.writer with revision, latest := some snapshot, waiters := w.writer.waiters ++ [revision] }
      written := w.written ++ [snapshot] }

/-- The drain gives up control: where it was called by `startDrain`, that sets `running`. -/
def leave (w : World α ε) (i : Nat) (assigned : Bool) (stage : Stage ε) : World α ε :=
  { w with
    writer := { w.writer with running := w.writer.running || !assigned }
    drains := w.drains.set i ⟨stage, true⟩ }

/-- The `catch` of the loop. -/
def caught (w : World α ε) (error : ε) : World α ε :=
  rejectWaiters { w with writer := { w.writer with persistedRevision := w.writer.revision } } error

/-- What follows the `try`, up to the next `save`. -/
def saved (w : World α ε) (i target : Nat) (assigned : Bool) : World α ε :=
  let w := resolveWaiters { w with writer := { w.writer with persistedRevision := target } } target
  match w.next with
  | none => { w with drains := w.drains.set i ⟨.returned, assigned⟩ }
  | some (target, snapshot) =>
    { w with
      saves := w.saves ++ [(target, snapshot)]
      drains := w.drains.set i ⟨.calling target, assigned⟩ }

/-- The callback of `finally`. -/
def finally' (w : World α ε) (i : Nat) : World α ε :=
  let w := { w with writer := { w.writer with running := false }, drains := w.drains.eraseIdx i }
  if w.writer.latest.isSome ∧ w.writer.persistedRevision < w.writer.revision then w.startDrain else w

end World

/-! ## What can happen -/

/-- A call of `write`; or a `save` returns its promise, or throws, or its promise settles; or the
event loop goes on with a drain, or with what comes after it. -/
inductive Act (α ε : Type)
  | write (snapshot : α)
  | saveReturned (i : Nat)
  | saveThrew (i : Nat) (error : ε)
  | saveSettled (i : Nat) (outcome : Option ε)
  | drainResumed (i : Nat)
  | drainFinished (i : Nat)

/-- Everything but a call of `write`. -/
def Act.proceeds {α ε : Type} : Act α ε → Bool
  | .write _ => false
  | _ => true

namespace World

variable {α ε : Type}

/-- No `save` is being called: the event loop may go on. -/
def atRest (w : World α ε) : Bool := w.drains.all fun drain => !drain.isCalling

/-- No `save` has been called from within the one of this drain. -/
def innermost (w : World α ε) (i : Nat) : Bool := (w.drains.drop (i + 1)).all fun drain => !drain.isCalling

def step : Act α ε → World α ε → Option (World α ε)
  | .write snapshot, w => some (w.write snapshot)
  | .saveReturned i, w =>
    match w.drains[i]? with
    | some ⟨.calling target, assigned⟩ =>
      if w.innermost i then some (w.leave i assigned (.waiting target)) else none
    | _ => none
  | .saveThrew i error, w =>
    match w.drains[i]? with
    | some ⟨.calling target, assigned⟩ =>
      if w.innermost i then
        some (({ w with ended := w.ended ++ [(target, some error)] }.caught error).leave i assigned .returned)
      else none
    | _ => none
  | .saveSettled i outcome, w =>
    match w.drains[i]? with
    | some ⟨.waiting target, assigned⟩ =>
      some { w with
        ended := w.ended ++ [(target, outcome)]
        drains := w.drains.set i ⟨.settled target outcome, assigned⟩ }
    | _ => none
  | .drainResumed i, w =>
    match w.drains[i]? with
    | some ⟨.settled target none, assigned⟩ => if w.atRest then some (w.saved i target assigned) else none
    | some ⟨.settled _ (some error), assigned⟩ =>
      if w.atRest then some ((w.caught error).leave i assigned .returned) else none
    | _ => none
  | .drainFinished i, w =>
    match w.drains[i]? with
    | some ⟨.returned, _⟩ => if w.atRest then some (w.finally' i) else none
    | _ => none

end World

/-- Nothing is written from within the first `save` of a drain, and when a failure is handled nothing
has been written since its `save` was called. -/
def Orderly {α ε : Type} : Act α ε → World α ε → Prop
  | .write _, w => ∀ drain ∈ w.drains, drain.isCalling → drain.assigned
  | .saveThrew i _, w => ∀ target assigned, w.drains[i]? = some ⟨.calling target, assigned⟩ →
      w.writer.revision = target
  | .drainResumed i, w => ∀ target error assigned,
      w.drains[i]? = some ⟨.settled target (some error), assigned⟩ → w.writer.revision = target
  | _, _ => True

/-! ## The law -/

/-- What the writer promises. -/
structure Lawful {α ε : Type} (w : World α ε) : Prop where
  /-- At most one save is in flight. -/
  single : (w.drains.filter Drain.inFlight).length ≤ 1
  /-- The saved snapshots are in the order of their calls of `write`. -/
  ordered : w.saves.Pairwise fun earlier later => earlier.1 < later.1
  snapshots : ∀ target snapshot, (target, snapshot) ∈ w.saves →
    0 < target ∧ w.written[target - 1]? = some snapshot
  /-- The promise of each call is pending or has settled, once. -/
  once : (w.writer.waiters ++ w.answers.map Prod.fst).Perm (List.range' 1 w.written.length)
  /-- A promise settles as a save of its own snapshot or of a newer one has ended. -/
  answered : ∀ revision outcome, (revision, outcome) ∈ w.answers →
    ∃ target snapshot, revision ≤ target ∧ (target, snapshot) ∈ w.saves ∧ (target, outcome) ∈ w.ended
  /-- While a promise is pending, something is still to happen. -/
  pending : w.writer.waiters ≠ [] → ∃ act : Act α ε, act.proceeds ∧ (w.step act).isSome

/-! ## What an act does -/

section Acts

variable {α ε : Type} {w w' : World α ε} {i : Nat}

theorem of_saveReturned (done : w.step (.saveReturned i) = some w') : ∃ target assigned,
    w.drains[i]? = some ⟨.calling target, assigned⟩ ∧ w' = w.leave i assigned (.waiting target) := by
  unfold World.step at done
  dsimp only at done
  split at done
  next target assigned here =>
    split at done
    next => exact ⟨target, assigned, here, (Option.some.inj done).symm⟩
    next => cases done
  next => cases done

theorem of_saveThrew {error : ε} (done : w.step (.saveThrew i error) = some w') : ∃ target assigned,
    w.drains[i]? = some ⟨.calling target, assigned⟩ ∧
      w' = ({ w with ended := w.ended ++ [(target, some error)] }.caught error).leave i assigned
        .returned := by
  unfold World.step at done
  dsimp only at done
  split at done
  next target assigned here =>
    split at done
    next => exact ⟨target, assigned, here, (Option.some.inj done).symm⟩
    next => cases done
  next => cases done

theorem of_saveSettled {outcome : Option ε} (done : w.step (.saveSettled i outcome) = some w') :
    ∃ target assigned, w.drains[i]? = some ⟨.waiting target, assigned⟩ ∧
      w' = { w with
        ended := w.ended ++ [(target, outcome)]
        drains := w.drains.set i ⟨.settled target outcome, assigned⟩ } := by
  unfold World.step at done
  dsimp only at done
  split at done
  next target assigned here => exact ⟨target, assigned, here, (Option.some.inj done).symm⟩
  next => cases done

theorem of_drainResumed (done : w.step (.drainResumed i) = some w') :
    (∃ target assigned, w.drains[i]? = some ⟨.settled target none, assigned⟩ ∧
        w' = w.saved i target assigned) ∨
      ∃ target error assigned, w.drains[i]? = some ⟨.settled target (some error), assigned⟩ ∧
        w' = (w.caught error).leave i assigned .returned := by
  unfold World.step at done
  dsimp only at done
  split at done
  next target assigned here =>
    split at done
    next => exact .inl ⟨target, assigned, here, (Option.some.inj done).symm⟩
    next => cases done
  next target error assigned here =>
    split at done
    next => exact .inr ⟨target, error, assigned, here, (Option.some.inj done).symm⟩
    next => cases done
  next => cases done

theorem of_drainFinished (done : w.step (.drainFinished i) = some w') :
    ∃ assigned, w.drains[i]? = some ⟨.returned, assigned⟩ ∧ w' = w.finally' i := by
  unfold World.step at done
  dsimp only at done
  split at done
  next assigned here =>
    split at done
    next => exact ⟨assigned, here, (Option.some.inj done).symm⟩
    next => cases done
  next => cases done

theorem startDrain_revision : w.startDrain.writer.revision = w.writer.revision := by
  unfold World.startDrain
  split
  next => rfl
  next =>
    split
    next => rfl
    next => rfl

/-- Calls of `write` are counted, and nothing else changes their number. -/
theorem step_revision {act : Act α ε} (done : w.step act = some w') :
    w'.writer.revision = w.writer.revision + if act.proceeds then 0 else 1 := by
  cases act with
  | write snapshot =>
    cases done
    exact startDrain_revision
  | saveReturned i =>
    obtain ⟨target, assigned, -, rfl⟩ := of_saveReturned done
    rfl
  | saveThrew i error =>
    obtain ⟨target, assigned, -, rfl⟩ := of_saveThrew done
    rfl
  | saveSettled i outcome =>
    obtain ⟨target, assigned, -, rfl⟩ := of_saveSettled done
    rfl
  | drainResumed i =>
    rcases of_drainResumed done with ⟨target, assigned, -, rfl⟩ | ⟨target, error, assigned, -, rfl⟩
    · unfold World.saved
      dsimp only
      split
      next => rfl
      next => rfl
    · rfl
  | drainFinished i =>
    obtain ⟨assigned, -, rfl⟩ := of_drainFinished done
    unfold World.finally'
    dsimp only
    split
    next => exact startDrain_revision
    next => rfl

end Acts

/-! ## What an orderly run keeps -/

section Keeping

variable {α ε : Type} {w w' : World α ε}

/-- The writer and what has happened, while this revision is being saved. -/
structure Records (saving : Option Nat) (w : World α ε) : Prop where
  latest : w.writer.latest = w.written.getLast?
  revision : w.writer.revision = w.written.length
  persisted : w.writer.persistedRevision ≤ w.writer.revision
  waiting : ∀ revision ∈ w.writer.waiters, w.writer.persistedRevision < revision
  once : (w.writer.waiters ++ w.answers.map Prod.fst).Perm (List.range' 1 w.written.length)
  ordered : w.saves.Pairwise fun earlier later => earlier.1 < later.1
  snapshots : ∀ target snapshot, (target, snapshot) ∈ w.saves →
    0 < target ∧ w.written[target - 1]? = some snapshot
  last : ∀ save ∈ w.saves, save.1 ≤ w.writer.persistedRevision ∨ saving = some save.1
  current : ∀ target, saving = some target → w.writer.persistedRevision < target ∧
    target ≤ w.writer.revision ∧ ∃ snapshot, (target, snapshot) ∈ w.saves
  attempted : ∀ target outcome, (target, outcome) ∈ w.ended → ∃ snapshot, (target, snapshot) ∈ w.saves
  answered : ∀ revision outcome, (revision, outcome) ∈ w.answers →
    ∃ target, revision ≤ target ∧ (target, outcome) ∈ w.ended

namespace Records

variable {saving : Option Nat} {target : Nat}

theorem new : Records none (World.new : World α ε) where
  latest := rfl
  revision := rfl
  persisted := Nat.le_refl _
  waiting _ never := by cases never
  once := List.Perm.nil
  ordered := List.Pairwise.nil
  snapshots _ _ never := by cases never
  last _ never := by cases never
  current _ never := by cases never
  attempted _ _ never := by cases never
  answered _ _ never := by cases never

/-- Drains do not matter to the records. -/
theorem driven (h : Records saving w) (drains : List (Drain ε)) (running : Bool) :
    Records saving { w with drains, writer := { w.writer with running } } :=
  { h with }

theorem written_of_waiter (h : Records saving w) {revision : Nat}
    (mem : revision ∈ w.writer.waiters) : revision ≤ w.writer.revision := by
  have mem := h.once.mem_iff.mp (List.mem_append_left _ mem)
  rw [List.mem_range'_1] at mem
  rw [h.revision]
  omega

/-- A call of `write`, up to `startDrain`. -/
theorem push (h : Records saving w) (snapshot : α) :
    Records saving
      { w with
        writer := { w.writer with
          revision := w.writer.revision + 1
          latest := some snapshot
          waiters := w.writer.waiters ++ [w.writer.revision + 1] }
        written := w.written ++ [snapshot] } where
  latest := by rw [List.getLast?_append]; rfl
  revision := by rw [List.length_append, ← h.revision]; rfl
  persisted := Nat.le_succ_of_le h.persisted
  waiting revision mem := by
    rcases List.mem_append.mp mem with old | new
    · exact h.waiting revision old
    · rw [List.mem_singleton.mp new]
      exact Nat.lt_succ_of_le h.persisted
  once := by
    rw [List.length_append, List.length_singleton, List.range'_concat, ← h.revision, List.append_assoc]
    refine (List.Perm.append_left _ List.perm_append_comm).trans ?_
    rw [← List.append_assoc, h.revision, Nat.one_mul, Nat.add_comm 1]
    exact h.once.append_right _
  ordered := h.ordered
  snapshots target snapshot mem := by
    obtain ⟨pos, here⟩ := h.snapshots target snapshot mem
    exact ⟨pos, (List.getElem?_append_left (List.getElem?_eq_some_iff.mp here).1).trans here⟩
  last := h.last
  current target here := by
    obtain ⟨more, le, saved⟩ := h.current target here
    exact ⟨more, Nat.le_succ_of_le le, saved⟩
  attempted := h.attempted
  answered := h.answered

/-- The next save is of the newest snapshot. -/
theorem next_eq (h : Records saving w) :
    (w.next = none ∧ w.writer.persistedRevision = w.writer.revision) ∨
      ∃ snapshot, w.next = some (w.writer.revision, snapshot) ∧
        w.writer.persistedRevision < w.writer.revision ∧ w.written.getLast? = some snapshot := by
  unfold World.next
  by_cases more : w.writer.persistedRevision < w.writer.revision
  · have some : w.written ≠ [] := by
      intro never
      rw [h.revision, never] at more
      exact Nat.not_lt_zero _ more
    refine .inr ⟨w.written.getLast some, ?_, more, List.getLast?_eq_some_getLast some⟩
    rw [if_pos more, h.latest, List.getLast?_eq_some_getLast some]
    rfl
  · exact .inl ⟨if_neg more, Nat.le_antisymm h.persisted (Nat.not_lt.mp more)⟩

/-- A call of `save`. -/
theorem call (h : Records none w) {snapshot : α} (last : w.written.getLast? = some snapshot)
    (more : w.writer.persistedRevision < w.writer.revision) :
    Records (some w.writer.revision) { w with saves := w.saves ++ [(w.writer.revision, snapshot)] } where
  latest := h.latest
  revision := h.revision
  persisted := h.persisted
  waiting := h.waiting
  once := h.once
  ordered := by
    refine List.pairwise_append.mpr ⟨h.ordered, List.pairwise_singleton _ _, ?_⟩
    intro earlier mem later mem'
    rw [List.mem_singleton.mp mem']
    rcases h.last earlier mem with le | never
    · exact Nat.lt_of_le_of_lt le more
    · cases never
  snapshots target snapshot' mem := by
    rcases List.mem_append.mp mem with old | new
    · exact h.snapshots target snapshot' old
    · cases List.mem_singleton.mp new
      refine ⟨Nat.lt_of_le_of_lt (Nat.zero_le _) more, ?_⟩
      rw [h.revision, ← List.getLast?_eq_getElem?, last]
  last save mem := by
    rcases List.mem_append.mp mem with old | new
    · rcases h.last save old with le | never
      · exact .inl le
      · cases never
    · rw [List.mem_singleton.mp new]
      exact .inr rfl
  current target here := by
    cases here
    exact ⟨more, Nat.le_refl _, snapshot, List.mem_append_right _ (List.mem_singleton_self _)⟩
  attempted target outcome mem := by
    obtain ⟨snapshot', saved⟩ := h.attempted target outcome mem
    exact ⟨snapshot', List.mem_append_left _ saved⟩
  answered := h.answered

/-- The save that is going on has ended. -/
theorem ends (h : Records (some target) w) (outcome : Option ε) :
    Records (some target) { w with ended := w.ended ++ [(target, outcome)] } :=
  { h with
    attempted := fun target' outcome' mem => by
      rcases List.mem_append.mp mem with old | new
      · exact h.attempted target' outcome' old
      · cases List.mem_singleton.mp new
        exact (h.current target rfl).2.2
    answered := fun revision outcome' mem => by
      obtain ⟨target', le, ended⟩ := h.answered revision outcome' mem
      exact ⟨target', le, List.mem_append_left _ ended⟩ }

/-- The promises up to what has been saved settle as the save has. -/
theorem answer (h : Records (some target) w) {outcome : Option ε} (ended : (target, outcome) ∈ w.ended)
    {waiters : List Nat} {answers : List (Nat × Option ε)}
    (left : ∀ revision ∈ waiters, target < revision)
    (gone : ∀ answer ∈ answers, answer.2 = outcome ∧ answer.1 ≤ target)
    (parts : (waiters ++ answers.map Prod.fst).Perm w.writer.waiters) :
    Records none
      { w with
        writer := { w.writer with persistedRevision := target, waiters }
        answers := w.answers ++ answers } where
  latest := h.latest
  revision := h.revision
  persisted := (h.current target rfl).2.1
  waiting := left
  once := by
    rw [List.map_append]
    refine (List.Perm.append_left _ List.perm_append_comm).trans ?_
    rw [← List.append_assoc]
    exact (parts.append_right _).trans h.once
  ordered := h.ordered
  snapshots := h.snapshots
  last save mem := by
    rcases h.last save mem with le | same
    · exact .inl (Nat.le_of_lt (Nat.lt_of_le_of_lt le (h.current target rfl).1))
    · exact .inl (Nat.le_of_eq (Option.some.inj same).symm)
  current _ never := by cases never
  attempted := h.attempted
  answered revision outcome' mem := by
    rcases List.mem_append.mp mem with old | new
    · exact h.answered revision outcome' old
    · obtain ⟨rfl, le⟩ := gone _ new
      exact ⟨target, le, ended⟩

theorem resolve (h : Records (some target) w) (ended : (target, none) ∈ w.ended) :
    Records none (World.resolveWaiters
      { w with writer := { w.writer with persistedRevision := target } } target) := by
  apply h.answer ended
  · intro revision mem
    have := (List.mem_filter.mp mem).2
    simpa using this
  · intro answer mem
    obtain ⟨revision, here, rfl⟩ := List.mem_map.mp mem
    exact ⟨rfl, of_decide_eq_true (List.mem_filter.mp here).2⟩
  · rw [List.map_map]
    simp only [Function.comp_def, List.map_id']
    exact List.perm_append_comm.trans (List.filter_append_perm _ _)

/-- A failure, when nothing has been written since. -/
theorem caught (h : Records (some target) w) {error : ε} (ended : (target, some error) ∈ w.ended)
    (newest : w.writer.revision = target) : Records none (w.caught error) := by
  cases newest
  apply h.answer ended
  · intro revision never
    cases never
  · intro answer mem
    obtain ⟨revision, here, rfl⟩ := List.mem_map.mp mem
    exact ⟨rfl, h.written_of_waiter here⟩
  · rw [List.map_map]
    simp only [Function.comp_def, List.map_id', List.nil_append]
    exact List.Perm.refl _

end Records

/-- The one drain, and what it has to do with the writer. -/
inductive Drives (w : World α ε) : Drain ε → Prop
  | calling {target : Nat} {assigned : Bool} (held : w.writer.running = assigned)
      (records : Records (some target) w) : Drives w ⟨.calling target, assigned⟩
  | waiting {target : Nat} (held : w.writer.running = true) (records : Records (some target) w) :
      Drives w ⟨.waiting target, true⟩
  | settled {target : Nat} {outcome : Option ε} (held : w.writer.running = true)
      (records : Records (some target) w) (ended : (target, outcome) ∈ w.ended) :
      Drives w ⟨.settled target outcome, true⟩
  | returned (held : w.writer.running = true) (records : Records none w) : Drives w ⟨.returned, true⟩

/-- What an orderly run keeps. -/
inductive Inv (w : World α ε) : Prop
  | idle (empty : w.drains = []) (free : w.writer.running = false)
      (done : w.writer.persistedRevision = w.writer.revision) (records : Records none w)
  | busy (drain : Drain ε) (one : w.drains = [drain]) (drives : Drives w drain)

theorem Inv.new : Inv (World.new : World α ε) := .idle rfl rfl rfl Records.new

theorem Inv.records (inv : Inv w) : ∃ saving, Records saving w := by
  cases inv with
  | idle _ _ _ records => exact ⟨_, records⟩
  | busy _ _ drives =>
    cases drives with
    | calling _ records => exact ⟨_, records⟩
    | waiting _ records => exact ⟨_, records⟩
    | settled _ records _ => exact ⟨_, records⟩
    | returned _ records => exact ⟨_, records⟩

/-- A drain that is met is the one there is. -/
theorem Inv.met (inv : Inv w) {i : Nat} {drain : Drain ε} (here : w.drains[i]? = some drain) :
    i = 0 ∧ w.drains = [drain] ∧ Drives w drain := by
  cases inv with
  | idle empty _ _ _ =>
    rw [empty] at here
    cases here
  | busy drain' one drives =>
    rw [one] at here
    rw [List.getElem?_singleton] at here
    split at here
    next first =>
      cases here
      exact ⟨first, one, drives⟩
    next => cases here

/-- A drain begins when there is something to save. -/
theorem startDrain_inv (records : Records none w) (empty : w.drains = []) (free : w.writer.running = false)
    (more : w.writer.persistedRevision < w.writer.revision) :
    Inv w.startDrain ∧ w.startDrain.drains = [⟨.calling w.writer.revision, false⟩] ∧
      w.startDrain.writer = w.writer := by
  rcases records.next_eq with ⟨-, done⟩ | ⟨snapshot, next, -, last⟩
  · exact absurd more (by rw [done]; exact Nat.lt_irrefl _)
  · have starts : w.startDrain = { w with
        saves := w.saves ++ [(w.writer.revision, snapshot)]
        drains := [⟨.calling w.writer.revision, false⟩] } := by
      unfold World.startDrain
      rw [free, next, empty]
      rfl
    rw [starts]
    exact ⟨.busy _ rfl (.calling free ((records.call last more).driven _ _)), rfl, rfl⟩

/-- A call of `write` while there is a drain that does not call its first `save`, or none. -/
theorem Inv.write (inv : Inv w) (snapshot : α) (ok : Orderly (.write snapshot) w) :
    Inv (w.write snapshot) ∧ (w.drains ≠ [] → (w.write snapshot).drains = w.drains) ∧
      (w.write snapshot).writer.waiters = w.writer.waiters ++ [w.writer.revision + 1] ∧
      (w.write snapshot).writer.revision = w.writer.revision + 1 := by
  cases inv with
  | idle empty free done records =>
    obtain ⟨inv, -, same⟩ := startDrain_inv (records.push snapshot) empty free
      (Nat.lt_succ_of_le records.persisted)
    refine ⟨inv, fun never => absurd empty never, ?_, ?_⟩
    · rw [World.write, same]
    · rw [World.write, same]
  | busy drain one drives =>
    have held : w.writer.running = true := by
      cases drives with
      | calling held _ =>
        rw [held]
        exact ok _ (by rw [one]; exact List.mem_singleton_self _) rfl
      | waiting held _ => exact held
      | settled held _ _ => exact held
      | returned held _ => exact held
    have waits : w.write snapshot = { w with
        writer := { w.writer with
          revision := w.writer.revision + 1
          latest := some snapshot
          waiters := w.writer.waiters ++ [w.writer.revision + 1] }
        written := w.written ++ [snapshot] } := by
      unfold World.write World.startDrain
      dsimp only
      rw [if_pos held]
    rw [waits]
    refine ⟨.busy drain one ?_, fun _ => rfl, rfl, rfl⟩
    cases drives with
    | calling held records => exact .calling held (records.push snapshot)
    | waiting held records => exact .waiting held (records.push snapshot)
    | settled held records ended => exact .settled held (records.push snapshot) ended
    | returned held records => exact .returned held (records.push snapshot)

theorem Inv.keeps (inv : Inv w) {act : Act α ε} (ok : Orderly act w) (done : w.step act = some w') :
    Inv w' := by
  cases act with
  | write snapshot =>
    cases done
    exact (inv.write snapshot ok).1
  | saveReturned i =>
    obtain ⟨target, assigned, here, rfl⟩ := of_saveReturned done
    obtain ⟨rfl, one, drives⟩ := inv.met here
    cases drives with
    | calling held records =>
      refine .busy ⟨.waiting target, true⟩ (by rw [World.leave, one]; rfl) (.waiting ?_ ?_)
      · show (w.writer.running || !assigned) = true
        rw [held]
        cases assigned <;> rfl
      · exact records.driven _ _
  | saveThrew i error =>
    obtain ⟨target, assigned, here, rfl⟩ := of_saveThrew done
    have newest := ok target assigned here
    obtain ⟨rfl, one, drives⟩ := inv.met here
    cases drives with
    | calling held records =>
      refine .busy ⟨.returned, true⟩ ?_ (.returned ?_ ?_)
      · show w.drains.set 0 _ = _
        rw [one]
        rfl
      · show (w.writer.running || !assigned) = true
        rw [held]
        cases assigned <;> rfl
      · exact ((records.ends (some error)).caught (List.mem_append_right _ (List.mem_singleton_self _))
          newest).driven _ _
  | saveSettled i outcome =>
    obtain ⟨target, assigned, here, rfl⟩ := of_saveSettled done
    obtain ⟨rfl, one, drives⟩ := inv.met here
    cases drives with
    | waiting held records =>
      refine .busy ⟨.settled target outcome, true⟩ (by rw [one]; rfl) (.settled held ?_ ?_)
      · exact (records.ends outcome).driven _ _
      · exact List.mem_append_right _ (List.mem_singleton_self _)
  | drainResumed i =>
    rcases of_drainResumed done with ⟨target, assigned, here, rfl⟩ | ⟨target, error, assigned, here, rfl⟩
    · obtain ⟨rfl, one, drives⟩ := inv.met here
      cases drives with
      | settled held records ended =>
        have after := records.resolve ended
        unfold World.saved
        dsimp only
        rcases after.next_eq with ⟨next, -⟩ | ⟨snapshot, next, more, last⟩
        · rw [next]
          refine .busy ⟨.returned, true⟩ ?_ (.returned held (after.driven _ _))
          show w.drains.set 0 _ = _
          rw [one]
          rfl
        · rw [next]
          refine .busy ⟨.calling w.writer.revision, true⟩ ?_ (.calling held ?_)
          · show w.drains.set 0 _ = _
            rw [one]
            rfl
          · exact (after.call last more).driven _ _
    · have newest := ok target error assigned here
      obtain ⟨rfl, one, drives⟩ := inv.met here
      cases drives with
      | settled held records ended =>
        refine .busy ⟨.returned, true⟩ ?_ (.returned ?_ ((records.caught ended newest).driven _ _))
        · show w.drains.set 0 _ = _
          rw [one]
          rfl
        · show (w.writer.running || !true) = true
          rw [held]
          rfl
  | drainFinished i =>
    obtain ⟨assigned, here, rfl⟩ := of_drainFinished done
    obtain ⟨rfl, one, drives⟩ := inv.met here
    cases drives with
    | returned held records =>
      have empty : w.drains.eraseIdx 0 = [] := by
        rw [one]
        rfl
      have after := records.driven (w.drains.eraseIdx 0) false
      unfold World.finally'
      dsimp only
      split
      next some => exact (startDrain_inv after empty rfl some.2).1
      next other =>
        refine .idle empty rfl ?_ after
        rcases after.next_eq with ⟨-, same⟩ | ⟨snapshot, -, more, last⟩
        · exact same
        · refine absurd ⟨?_, more⟩ other
          rw [records.latest, last]
          rfl

/-- What is still to happen before the promise settles. -/
def Stage.left (revision : Nat) : Stage ε → Nat
  | .calling target => if revision ≤ target then 3 else 6
  | .waiting target => if revision ≤ target then 2 else 5
  | .settled target _ => if revision ≤ target then 1 else 4
  | .returned => 4

theorem Stage.left_bounds (revision : Nat) (stage : Stage ε) :
    0 < stage.left revision ∧ stage.left revision ≤ 6 := by
  have either (p : Prop) [Decidable p] (m n : Nat) (small : 0 < m ∧ m ≤ 6) (large : 0 < n ∧ n ≤ 6) :
      0 < (if p then m else n) ∧ (if p then m else n) ≤ 6 := by
    by_cases p
    · rwa [if_pos ‹p›]
    · rwa [if_neg ‹¬ p›]
  cases stage with
  | calling => exact either _ 3 6 (by decide) (by decide)
  | waiting => exact either _ 2 5 (by decide) (by decide)
  | settled => exact either _ 1 4 (by decide) (by decide)
  | returned => exact ⟨Nat.succ_pos 3, Nat.le_add_right 4 2⟩

def World.left (revision : Nat) (w : World α ε) : Nat :=
  if revision ∈ w.writer.waiters then
    match w.drains with
    | drain :: _ => drain.stage.left revision
    | [] => 0
  else 0

theorem left_eq_zero {revision : Nat} (gone : revision ∉ w.writer.waiters) : w.left revision = 0 :=
  if_neg gone

theorem left_eq {revision : Nat} {drain : Drain ε} (mem : revision ∈ w.writer.waiters)
    (one : w.drains = [drain]) : w.left revision = drain.stage.left revision := by
  rw [World.left, if_pos mem, one]

theorem Inv.waiters_of_idle (inv : Inv w) (empty : w.drains = []) : w.writer.waiters = [] := by
  cases inv with
  | idle _ _ done records =>
    apply List.eq_nil_iff_forall_not_mem.mpr
    intro revision mem
    have := records.waiting revision mem
    have := records.written_of_waiter mem
    omega
  | busy drain one _ =>
    rw [empty] at one
    cases one

/-- Every act that is not a call of `write` brings each pending promise nearer to its end. -/
theorem Inv.nearer (inv : Inv w) {act : Act α ε} (ok : Orderly act w) (done : w.step act = some w')
    {revision : Nat} (old : revision ≤ w.writer.revision) :
    w'.left revision ≤ w.left revision - if act.proceeds then 1 else 0 := by
  by_cases mem' : revision ∉ w'.writer.waiters
  · rw [left_eq_zero mem']
    exact Nat.zero_le _
  have mem' := Classical.not_not.mp mem'
  cases act with
  | write snapshot =>
    cases done
    obtain ⟨-, kept, waiters, -⟩ := inv.write snapshot ok
    have mem : revision ∈ w.writer.waiters := by
      rw [waiters] at mem'
      rcases List.mem_append.mp mem' with mem | new
      · exact mem
      · rw [List.mem_singleton.mp new] at old
        exact absurd old (Nat.not_succ_le_self _)
    have some : w.drains ≠ [] := by
      intro empty
      rw [inv.waiters_of_idle empty] at mem
      cases mem
    show (w.write snapshot).left revision ≤ w.left revision
    exact Nat.le_of_eq (by rw [World.left, World.left, if_pos mem, if_pos mem', kept some])
  | saveReturned i =>
    obtain ⟨target, assigned, here, rfl⟩ := of_saveReturned done
    obtain ⟨rfl, one, -⟩ := inv.met here
    rw [left_eq mem' (show _ = [⟨.waiting target, true⟩] by rw [World.leave, one]; rfl),
      left_eq (show revision ∈ w.writer.waiters from mem') one]
    show (if _ then 2 else 5) ≤ (if _ then 3 else 6) - 1
    split <;> omega
  | saveThrew i error =>
    obtain ⟨target, assigned, here, rfl⟩ := of_saveThrew done
    cases mem'
  | saveSettled i outcome =>
    obtain ⟨target, assigned, here, rfl⟩ := of_saveSettled done
    obtain ⟨rfl, one, -⟩ := inv.met here
    rw [left_eq mem' (show _ = [⟨.settled target outcome, assigned⟩] by rw [one]; rfl),
      left_eq (show revision ∈ w.writer.waiters from mem') one]
    show (if _ then 1 else 4) ≤ (if _ then 2 else 5) - 1
    split <;> omega
  | drainResumed i =>
    rcases of_drainResumed done with ⟨target, assigned, here, rfl⟩ | ⟨target, error, assigned, here, rfl⟩
    · obtain ⟨rfl, one, drives⟩ := inv.met here
      cases drives with
      | settled held records ended =>
        have after := records.resolve ended
        have later (waits : revision ∈ w.writer.waiters.filter fun waiter => !decide (waiter ≤ target)) :
            w.left revision = 4 ∧ target < revision := by
          obtain ⟨mem, more⟩ := List.mem_filter.mp waits
          have more : ¬ revision ≤ target := by simpa using more
          rw [left_eq mem one]
          exact ⟨if_neg more, Nat.not_le.mp more⟩
        unfold World.saved at mem' ⊢
        dsimp only at mem' ⊢
        rcases after.next_eq with ⟨next, same⟩ | ⟨snapshot, next, -, -⟩
        · rw [next] at mem'
          exact absurd (later mem').2 (Nat.not_lt.mpr (Nat.le_trans old (Nat.le_of_eq same.symm)))
        · rw [next] at mem' ⊢
          rw [(later mem').1, left_eq mem' (show w.drains.set 0 _ = [_] by rw [one]; rfl)]
          exact Nat.le_of_eq (if_pos old)
    · cases mem'
  | drainFinished i =>
    obtain ⟨assigned, here, rfl⟩ := of_drainFinished done
    obtain ⟨rfl, one, drives⟩ := inv.met here
    cases drives with
    | returned held records =>
      have empty : w.drains.eraseIdx 0 = [] := by
        rw [one]
        rfl
      have after := records.driven (w.drains.eraseIdx 0) false
      unfold World.finally' at mem' ⊢
      dsimp only at mem' ⊢
      split at mem'
      next some =>
        obtain ⟨-, drains, same⟩ := startDrain_inv after empty rfl some.2
        rw [if_pos some, left_eq mem' drains]
        rw [same] at mem'
        rw [left_eq (show revision ∈ w.writer.waiters from mem') one]
        exact Nat.le_of_eq (if_pos old)
      next other =>
        rcases after.next_eq with ⟨-, same⟩ | ⟨snapshot, -, more, last⟩
        · have := records.waiting revision mem'
          exact absurd same (Nat.ne_of_lt (Nat.lt_of_lt_of_le this old))
        · refine absurd ⟨?_, more⟩ other
          rw [records.latest, last]
          rfl

theorem Inv.lawful (inv : Inv w) : Lawful w := by
  obtain ⟨saving, records⟩ := inv.records
  refine ⟨?_, records.ordered, records.snapshots, records.once, ?_, ?_⟩
  · cases inv with
    | idle empty _ _ _ =>
      rw [empty]
      exact Nat.zero_le _
    | busy drain one _ =>
      rw [one]
      exact List.length_filter_le _ _
  · intro revision outcome mem
    obtain ⟨target, le, ended⟩ := records.answered revision outcome mem
    obtain ⟨snapshot, saved⟩ := records.attempted target outcome ended
    exact ⟨target, snapshot, le, saved, ended⟩
  · intro some
    cases drains : w.drains with
    | nil => exact absurd (inv.waiters_of_idle drains) some
    | cons drain rest =>
      obtain ⟨-, one, drives⟩ := inv.met (show w.drains[0]? = _ by rw [drains]; rfl)
      cases drives with
      | calling => exact ⟨.saveReturned 0, rfl, by simp [World.step, World.innermost, one]⟩
      | waiting => exact ⟨.saveSettled 0 none, rfl, by simp [World.step, one]⟩
      | @settled target outcome _ _ _ =>
        refine ⟨.drainResumed 0, rfl, ?_⟩
        cases outcome with
        | none => simp [World.step, World.atRest, Drain.isCalling, one]
        | some error => simp [World.step, World.atRest, Drain.isCalling, one]
      | returned => exact ⟨.drainFinished 0, rfl, by simp [World.step, World.atRest, Drain.isCalling, one]⟩

/-- A failure of a save rejects what has been written since, which nothing has tried to save. -/
theorem Records.not_lawful {target : Nat} (records : Records (some target) w) {error : ε}
    (newer : w.writer.revision ≠ target) (saves : w'.saves = w.saves)
    (answers : w'.answers = w.answers ++ w.writer.waiters.map fun waiter => (waiter, some error)) :
    ¬ Lawful w' := by
  intro lawful
  obtain ⟨more, le, -⟩ := records.current target rfl
  have unsaved (later : Nat) (snapshot : α) (save : (later, snapshot) ∈ w.saves) :
      later < w.writer.revision := by
    rcases records.last _ save with old | same
    · exact Nat.lt_of_le_of_lt old (Nat.lt_of_lt_of_le more le)
    · cases same
      exact Nat.lt_of_le_of_ne le (Ne.symm newer)
  have called : w.writer.revision ∈ w.writer.waiters ++ w.answers.map Prod.fst := by
    refine records.once.mem_iff.mpr (List.mem_range'_1.mpr ?_)
    have := records.revision
    omega
  rcases List.mem_append.mp called with waits | answered
  · obtain ⟨later, snapshot, le, save, -⟩ := lawful.answered w.writer.revision (some error) (by
      rw [answers]
      exact List.mem_append_right _ (List.mem_map_of_mem waits))
    rw [saves] at save
    exact absurd (unsaved later snapshot save) (Nat.not_lt.mpr le)
  · obtain ⟨⟨revision, outcome⟩, mem, same⟩ := List.mem_map.mp answered
    obtain ⟨later, le, ended⟩ := records.answered revision outcome mem
    obtain ⟨snapshot, save⟩ := records.attempted later outcome ended
    rw [show revision = w.writer.revision from same] at le
    exact absurd (unsaved later snapshot save) (Nat.not_lt.mpr le)

/-- An act that is not orderly breaks the law. -/
theorem Inv.disorderly (inv : Inv w) {act : Act α ε} (disorder : ¬ Orderly act w)
    (done : w.step act = some w') : ¬ Lawful w' := by
  cases act with
  | write snapshot =>
    cases done
    simp only [Orderly, not_forall] at disorder
    obtain ⟨drain, mem, calls, first⟩ := disorder
    obtain ⟨i, here⟩ := List.mem_iff_getElem?.mp mem
    obtain ⟨rfl, one, drives⟩ := inv.met here
    cases drives with
    | @calling target assigned held records =>
      have free : w.writer.running = false := held.trans (Bool.eq_false_iff.mpr first)
      have pushed := records.push snapshot
      intro lawful
      have single := lawful.single
      rcases pushed.next_eq with ⟨-, same⟩ | ⟨snapshot', next, -, -⟩
      · exact absurd same (Nat.ne_of_lt (Nat.lt_succ_of_le records.persisted))
      · unfold World.write World.startDrain at single
        dsimp only at single
        rw [if_neg (by rw [free]; exact Bool.false_ne_true), next, one] at single
        exact Nat.not_succ_le_self 1 single
    | waiting | settled | returned => cases calls
  | saveReturned i => exact absurd trivial disorder
  | saveThrew i error =>
    obtain ⟨target, assigned, here, rfl⟩ := of_saveThrew done
    obtain ⟨rfl, one, drives⟩ := inv.met here
    cases drives with
    | calling held records =>
      refine records.not_lawful (fun newest => disorder ?_) rfl rfl
      intro target' assigned' here'
      rw [here] at here'
      cases here'
      exact newest
  | saveSettled i outcome => exact absurd trivial disorder
  | drainResumed i =>
    simp only [Orderly, not_forall] at disorder
    obtain ⟨target, error, assigned, here, newer⟩ := disorder
    rcases of_drainResumed done with ⟨target, assigned, here', rfl⟩ | ⟨target, error, assigned, here', rfl⟩
    · rw [here] at here'
      cases here'
    · rw [here] at here'
      cases here'
      obtain ⟨rfl, one, drives⟩ := inv.met here
      cases drives with
      | settled held records ended => exact records.not_lawful newer rfl rfl
  | drainFinished i => exact absurd trivial disorder

end Keeping

/-- The acts of this run are all orderly. -/
abbrev OrderlyRun {α ε : Type} : World α ε → List (Act α ε) → World α ε → Prop :=
  Run World.step Orderly

/-- **Every call is answered**: when six acts of the saves and the drains have been done, its promise
has settled, and it or a newer one has been passed to `save`. -/
theorem settles {α ε : Type} {w w' : World α ε} {acts : List (Act α ε)} (inv : Inv w)
    (run : OrderlyRun w acts w') (enough : 6 ≤ acts.countP Act.proceeds) {revision : Nat}
    (positive : 0 < revision) (called : revision ≤ w.writer.revision) :
    (∃ outcome, (revision, outcome) ∈ w'.answers) ∧
      ∃ target snapshot, revision ≤ target ∧ (target, snapshot) ∈ w'.saves := by
  have keeps (s : World α ε) (act : Act α ε) (t : World α ε)
      (held : Inv s ∧ revision ≤ s.writer.revision) (ok : Orderly act s)
      (done : s.step act = some t) : Inv t ∧ revision ≤ t.writer.revision := by
    refine ⟨held.1.keeps ok done, Nat.le_trans held.2 ?_⟩
    rw [step_revision done]
    exact Nat.le_add_right _ _
  have near := run.countdown keeps (fun _ _ _ held ok done => held.1.nearer ok done held.2)
    ⟨inv, called⟩
  obtain ⟨inv', called'⟩ := run.invariant keeps ⟨inv, called⟩
  have far : w.left revision ≤ 6 := by
    unfold World.left
    split
    next =>
      split
      next drain _ _ => exact (Stage.left_bounds revision drain.stage).2
      next => exact Nat.zero_le _
    next => exact Nat.zero_le _
  have gone : revision ∉ w'.writer.waiters := by
    intro mem
    have none : w'.left revision = 0 := by omega
    have idle := inv'.waiters_of_idle
    cases inv' with
    | idle empty =>
      rw [idle empty] at mem
      cases mem
    | busy drain one =>
      rw [left_eq mem one] at none
      exact Nat.ne_of_gt (Stage.left_bounds revision drain.stage).1 none
  obtain ⟨saving, records⟩ := inv'.records
  have somewhere : revision ∈ w'.writer.waiters ++ w'.answers.map Prod.fst := by
    refine records.once.mem_iff.mpr (List.mem_range'_1.mpr ?_)
    have := records.revision
    omega
  rcases List.mem_append.mp somewhere with waits | answered
  · exact absurd waits gone
  · obtain ⟨⟨_, outcome⟩, mem, rfl⟩ := List.mem_map.mp answered
    obtain ⟨target, snapshot, le, save, -⟩ := inv'.lawful.answered _ outcome mem
    exact ⟨⟨outcome, mem⟩, target, snapshot, le, save⟩

/-- **The writer**, for every run whose acts are orderly; and with the first one that is not, the law
is broken. -/
theorem latest_snapshot_written {α ε : Type} {w : World α ε} {acts : List (Act α ε)}
    (run : OrderlyRun World.new acts w) :
    (∀ act w', w.step act = some w' → (Lawful w' ↔ Orderly act w)) ∧ Lawful w ∧
      ∀ acts' w', OrderlyRun w acts' w' → 6 ≤ acts'.countP Act.proceeds →
        ∀ revision, 0 < revision → revision ≤ w.writer.revision →
          (∃ outcome, (revision, outcome) ∈ w'.answers) ∧
            ∃ target snapshot, revision ≤ target ∧ (target, snapshot) ∈ w'.saves := by
  have inv := run.invariant (fun _ _ _ inv ok done => Inv.keeps inv ok done) Inv.new
  refine ⟨fun act w' done => ⟨fun lawful => ?_, fun ok => (inv.keeps ok done).lawful⟩, inv.lawful, ?_⟩
  · by_contra disorder
    exact inv.disorderly disorder done lawful
  · intro acts' w' run' enough revision some called
    exact settles inv run' enough some called

/-- While no `save` is called anything may be written. -/
theorem orderly_write {α ε : Type} {w : World α ε} (rest : w.atRest = true) (snapshot : α) :
    Orderly (.write snapshot) w := by
  intro drain mem calling
  have idle := List.all_eq_true.mp rest drain mem
  rw [calling] at idle
  cases idle

/-- A snapshot that is not the newest any more is skipped, and the save of the newest fails. -/
theorem latest_snapshot_written_once : ∃ w : World Nat Unit, Lawful w ∧
    w.answers = [(1, none), (2, some ()), (3, some ())] ∧ w.saves = [(1, 7), (3, 9)] := by
  have run : OrderlyRun (World.new : World Nat Unit)
      [.write 7, .saveReturned 0, .write 8, .write 9, .saveSettled 0 none, .drainResumed 0,
        .saveReturned 0, .saveSettled 0 (some ()), .drainResumed 0, .drainFinished 0] _ :=
    .cons (orderly_write rfl 7) rfl (.cons trivial rfl
      (.cons (orderly_write rfl 8) rfl (.cons (orderly_write rfl 9) rfl (.cons trivial rfl
        (.cons (fun _ _ _ never => by cases never) rfl (.cons trivial rfl (.cons trivial rfl
          (.cons (fun _ _ _ settled => by cases settled; rfl) rfl (.cons trivial rfl .nil)))))))))
  exact ⟨_, (latest_snapshot_written run).2.1, rfl, rfl⟩

/-- A snapshot is being saved, one more is written, and then the save fails: both calls are told so,
and nothing has tried to save the second. -/
theorem written_while_failing : ∃ (acts : List (Act Nat Unit)) (w : World Nat Unit),
    Run World.step (fun _ _ => True) World.new acts w ∧
      w.answers = [(1, some ()), (2, some ())] ∧ w.saves = [(1, 7)] ∧ ¬ Lawful w := by
  have run : Run World.step (fun _ _ => True) (World.new : World Nat Unit)
      [.write 7, .saveReturned 0, .write 8, .saveSettled 0 (some ()), .drainResumed 0] _ :=
    .cons trivial rfl (.cons trivial rfl (.cons trivial rfl (.cons trivial rfl (.cons trivial rfl .nil))))
  refine ⟨_, _, run, rfl, rfl, fun lawful => ?_⟩
  obtain ⟨target, snapshot, le, save, -⟩ := lawful.answered 2 (some ()) (by decide)
  cases List.mem_singleton.mp save
  exact absurd le (by decide)

end RoLauncher.Frontend.Writer
