import RoLauncher.Game.Sole
import RoLauncher.Threads.Join
import Mathlib.Logic.Function.Basic

/-!
# The sessions of the tools (`tools/session.rs`)

A session of a tool is a task of its own. The tool's controller holds the one
that runs, under a lock: a call that starts or stops a session takes it out,
tells it to stop, waits for it, and aborts it when that takes too long.

The state is what every thread of the launcher shares; who holds a lock is a
part of it. A session's own work is left out: its task ends at some time, by
itself, by a panic, or once it is aborted. What a tool's handle keeps beside
its session (status, channels to the loop) is left out too.
-/

namespace RoLauncher.Tools

open RoLauncher.Threads RoLauncher.Game

inductive Tool where
  | autopot
  | autobuff
  | spammer
  deriving DecidableEq, Repr

/-- `SessionController::name`. -/
def Tool.name : Tool → String
  | autopot => "AutoPot"
  | autobuff => "AutoBuff"
  | spammer => "Spammer"

/-- How a task ends; the error is the one that joining it answers. -/
inductive Outcome where
  | done
  | panicked (error : String)
  | cancelled (error : String)
  deriving DecidableEq, Repr

/-- A spawned session. The controller's `stop_tx` and the loop's `stop_rx` share `stop`. -/
structure SessionTask where
  tool : Tool
  /-- The server that the session was started for. -/
  server : Option String
  stop : Bool
  aborted : Bool
  outcome : Option Outcome
  deriving DecidableEq, Repr

/-- A thread of the launcher: a command, the task of a client that has ended, the shutdown, a
session's task, or the rest of the world. -/
inductive Thread where
  | start (n : Nat)
  | stop (n : Nat)
  | launch (n : Nat)
  | stopGame (n : Nat)
  | exit (n : Nat)
  | shutdown
  | session (id : Nat)
  | world (n : Nat)
  deriving DecidableEq, Repr

structure SessionController where
  /-- Who holds the lock of `task`. -/
  holder : Option Thread
  task : Option Nat
  /-- `stop_timeout` has run out for the call that waits. -/
  late : Bool
  deriving DecidableEq, Repr

def SessionController.new : SessionController := ⟨none, none, false⟩

/-- What the threads share. -/
structure State where
  game : GameProcessHandle
  /-- Who holds `tool_lifecycle`. -/
  toolLifecycle : Option Thread
  controllers : Tool → SessionController
  tasks : Nat → Option SessionTask
  /-- The number of the next task. -/
  spawned : Nat
  /-- Which of the calls that a thread has joined goes on. -/
  turn : Nat → Bool

namespace State

def initial (game : GameProcessHandle) : State where
  game
  toolLifecycle := none
  controllers _ := .new
  tasks _ := none
  spawned := 0
  turn _ := false

def setController (tool : Tool) (change : SessionController → SessionController) (s : State) : State :=
  { s with controllers := Function.update s.controllers tool (change (s.controllers tool)) }

def setTask (id : Nat) (change : SessionTask → SessionTask) (s : State) : State :=
  { s with tasks := Function.update s.tasks id ((s.tasks id).map change) }

def outcome (s : State) (id : Nat) : Option Outcome := (s.tasks id).bind (·.outcome)

def lock (me : Thread) (tool : Tool) : State → State := setController tool ({ · with holder := some me })

def unlock (tool : Tool) : State → State := setController tool ({ · with holder := none })

/-- `slot.take()`, and `stop_tx.send(true)` to what was there. -/
def take (tool : Tool) (s : State) : State :=
  match (s.controllers tool).task with
  | none => s
  | some id => (s.setTask id ({ · with stop := true })).setController tool ({ · with task := none })

def abort (id : Nat) : State → State := setTask id ({ · with aborted := true })

def spawn (tool : Tool) (server : Option String) (s : State) : State :=
  { s.setController tool ({ · with task := some s.spawned }) with
    tasks := Function.update s.tasks s.spawned (some ⟨tool, server, false, false, none⟩)
    spawned := s.spawned + 1 }

/-- A task ends: a cancelled one was aborted. -/
def mayEnd (id : Nat) (outcome : Outcome) (s : State) : Bool :=
  (s.tasks id).any fun task => task.outcome.isNone && match outcome with
    | .cancelled _ => task.aborted
    | .done | .panicked _ => true

def endTask (id : Nat) (outcome : Outcome) : State → State := setTask id ({ · with outcome := some outcome })

end State

section Calls

variable {Err : Type} (me : Thread) (tool : Tool)

abbrev ToolTask (Err α : Type) := Task State Err α

def lockTask : ToolTask Err Unit :=
  .await (fun s => (s.controllers tool).holder.isNone) (State.lock me tool)

def unlockTask : ToolTask Err Unit := .modify (State.unlock tool)

/-- `timeout(stop_timeout, &mut join)`: the task's outcome, or none when the time is up first. -/
def joinTimeout (id : Nat) : ToolTask Err (Option Outcome) :=
  .step (fun s => (s.outcome id).isSome || (s.controllers tool).late) (fun s => s) fun s => .ret (s.outcome id)

/-- `join.await`. -/
def join (id : Nat) : ToolTask Err Unit := .await (fun s => (s.outcome id).isSome) fun s => s

/-- The rest of `stop_locked`, once the session has been told to stop. -/
def awaitStopped (id : Nat) : ToolTask String Unit := do
  match ← joinTimeout tool id with
  | some .done => .ret ()
  | some (.panicked error) | some (.cancelled error) => .fail s!"{tool.name} terminó con error: {error}"
  | none =>
    Task.modify (State.abort id)
    join id
    .fail s!"{tool.name} no se detuvo en 3000 ms"

def stopLocked : ToolTask String Unit := do
  match ← Task.fetch (fun s => (s.controllers tool).task) (State.take tool) with
  | none => .ret ()
  | some id => awaitStopped tool id

/-- `SessionController::stop`. -/
def stop : ToolTask String Unit := do
  lockTask me tool
  let result ← (stopLocked tool).attempt
  unlockTask tool
  .ofExcept result

/-- `SessionController::replace`. -/
def replace (server : Option String) : ToolTask String Unit := do
  lockTask me tool
  match ← (stopLocked tool).attempt with
  | .error error =>
    unlockTask tool
    .fail error
  | .ok () =>
    Task.modify (State.spawn tool server)
    unlockTask tool

end Calls

/-! ## The sessions that are running -/

namespace State

variable {s s' : State} {tool : Tool}

/-- The session that runs as this task: its tool, and the server it was started for. -/
def live (s : State) (id : Nat) : Option (Tool × Option String) :=
  (s.tasks id).bind fun task => if task.outcome.isNone then some (task.tool, task.server) else none

/-- No session of the tool runs that did not run before. -/
def Fewer (tool : Tool) (s s' : State) : Prop :=
  ∀ id server, s'.live id = some (tool, server) → s.live id = some (tool, server)

/-- No session of the tool runs, but for this task. -/
def Only (tool : Tool) (task : Option Nat) (s : State) : Prop :=
  ∀ id server, s.live id = some (tool, server) → task = some id

theorem Fewer.of_live (same : s'.live = s.live) : Fewer tool s s' := fun id server here => by rwa [← same]

theorem Fewer.refl (tool : Tool) (s : State) : Fewer tool s s := fun _ _ => id

theorem Fewer.trans {s'' : State} (first : Fewer tool s s') (second : Fewer tool s' s'') : Fewer tool s s'' :=
  fun id server here => first id server (second id server here)

theorem Only.fewer {task : Option Nat} (only : Only tool task s) (fewer : Fewer tool s s') : Only tool task s' :=
  fun id server here => only id server (fewer id server here)

theorem Only.dead (only : Only tool none s) (id : Nat) (server : Option String) : s.live id ≠ some (tool, server) :=
  fun here => by cases only id server here

@[simp] theorem setController_self (change : SessionController → SessionController) :
    (s.setController tool change).controllers tool = change (s.controllers tool) :=
  Function.update_self ..

theorem setController_of_ne {other : Tool} (differs : other ≠ tool) (change : SessionController → SessionController) :
    (s.setController tool change).controllers other = s.controllers other :=
  Function.update_of_ne differs ..

@[simp] theorem live_setController (change : SessionController → SessionController) :
    (s.setController tool change).live = s.live := rfl

@[simp] theorem setTask_self (id : Nat) (change : SessionTask → SessionTask) :
    (s.setTask id change).tasks id = (s.tasks id).map change := Function.update_self ..

theorem setTask_of_ne {id other : Nat} (differs : other ≠ id) (change : SessionTask → SessionTask) :
    (s.setTask id change).tasks other = s.tasks other := Function.update_of_ne differs ..

@[simp] theorem setTask_controllers (id : Nat) (change : SessionTask → SessionTask) :
    (s.setTask id change).controllers = s.controllers := rfl

/-- A change that lets the task be what it is. -/
theorem live_setTask {id : Nat} {change : SessionTask → SessionTask}
    (same : ∀ task, (change task).tool = task.tool ∧ (change task).server = task.server ∧
      (change task).outcome = task.outcome) : (s.setTask id change).live = s.live := by
  funext other
  rw [live, live]
  by_cases here : other = id
  · subst here
    rw [setTask_self]
    cases s.tasks other with
    | none => rfl
    | some task =>
      obtain ⟨tool, server, outcome⟩ := same task
      simp only [Option.map_some, Option.bind_some, tool, server, outcome]
  · rw [setTask_of_ne here]

@[simp] theorem live_lock (me : Thread) : (s.lock me tool).live = s.live := rfl

@[simp] theorem live_unlock : (s.unlock tool).live = s.live := rfl

@[simp] theorem live_abort (id : Nat) : (s.abort id).live = s.live := live_setTask fun _ => ⟨rfl, rfl, rfl⟩

@[simp] theorem live_take : (s.take tool).live = s.live := by
  rw [take]
  split
  next => rfl
  next id _ =>
    rw [live_setController]
    exact live_setTask fun _ => ⟨rfl, rfl, rfl⟩

theorem live_endTask (id : Nat) (outcome : Outcome) (other : Nat) :
    (s.endTask id outcome).live other = if other = id then none else s.live other := by
  rw [live, endTask]
  by_cases here : other = id
  · subst here
    rw [if_pos rfl, setTask_self]
    cases s.tasks other <;> rfl
  · rw [if_neg here, setTask_of_ne here, live]

theorem spawn_self (server : Option String) :
    (s.spawn tool server).tasks s.spawned = some ⟨tool, server, false, false, none⟩ := Function.update_self ..

theorem spawn_of_ne {id : Nat} (differs : id ≠ s.spawned) (server : Option String) :
    (s.spawn tool server).tasks id = s.tasks id := Function.update_of_ne differs ..

theorem live_spawn (server : Option String) (id : Nat) :
    (s.spawn tool server).live id = if id = s.spawned then some (tool, server) else s.live id := by
  rw [live]
  by_cases here : id = s.spawned
  · rw [if_pos here, here, spawn_self]
    rfl
  · rw [if_neg here, spawn_of_ne here, live]

theorem not_live_of_outcome {id : Nat} (ended : (s.outcome id).isSome = true) : s.live id = none := by
  rw [live]
  rw [outcome] at ended
  cases found : s.tasks id with
  | none => rfl
  | some task =>
    rw [found, Option.bind_some] at ended
    rw [Option.bind_some, if_neg]
    rw [Option.isNone_iff_eq_none]
    exact Option.isSome_iff_ne_none.mp ended

/-! ## What the threads keep to -/

/-- The state between two steps: at most one session of each tool runs; it is the one that its
controller holds, unless a call has taken it out, and then it has been told to stop. -/
structure Kept (s : State) : Prop where
  one : ∀ tool id id' server server', s.live id = some (tool, server) → s.live id' = some (tool, server') → id = id'
  held : ∀ tool, (s.controllers tool).holder = none → Only tool (s.controllers tool).task s
  told : ∀ id task, s.tasks id = some task → task.outcome = none → (s.controllers task.tool).task ≠ some id →
    task.stop = true
  fresh : ∀ id, s.spawned ≤ id → s.tasks id = none

end State

/-! ## One step of a call -/

section Steps

variable {me : Thread} {tool : Tool} {s s' : State}

namespace State

/-- What a thread counts on of a tool's controller. -/
structure Others (me : Thread) (tool : Tool) (s s' : State) : Prop where
  lifecycle : s.toolLifecycle = some me ↔ s'.toolLifecycle = some me
  holder : (s.controllers tool).holder = some me ↔ (s'.controllers tool).holder = some me
  task : (s.controllers tool).holder = some me →
    (s'.controllers tool).task = (s.controllers tool).task ∧ Fewer tool s s'
  live : s.toolLifecycle = some me → Fewer tool s s'

/-- What a call that stops a tool's session does. -/
structure Stops (me : Thread) (tool : Tool) (s s' : State) : Prop where
  game : s'.game = s.game
  lifecycle : s'.toolLifecycle = s.toolLifecycle
  elsewhere : ∀ other, other ≠ tool → s'.controllers other = s.controllers other
  holder : ∀ u, me ≠ u → ((s.controllers tool).holder = some u ↔ (s'.controllers tool).holder = some u)
  task : (s.controllers tool).holder ≠ some me → (s'.controllers tool).task = (s.controllers tool).task
  live : ∀ other, Fewer other s s'

theorem Others.refl (me : Thread) (tool : Tool) (s : State) : Others me tool s s :=
  ⟨.rfl, .rfl, fun _ => ⟨rfl, .refl tool s⟩, fun _ => .refl tool s⟩

theorem Others.trans {s'' : State} (first : Others me tool s s') (second : Others me tool s' s'') :
    Others me tool s s'' where
  lifecycle := first.lifecycle.trans second.lifecycle
  holder := first.holder.trans second.holder
  task mine := by
    obtain ⟨same, fewer⟩ := first.task mine
    obtain ⟨same', fewer'⟩ := second.task (first.holder.mp mine)
    exact ⟨same'.trans same, fewer.trans fewer'⟩
  live mine := (first.live mine).trans (second.live (first.lifecycle.mp mine))

/-- Stopping the session of one tool is nothing to the controller of another. -/
theorem Stops.others {other : Tool} (stops : Stops me tool s s') (differs : tool ≠ other) : Others me other s s' where
  lifecycle := by rw [stops.lifecycle]
  holder := by rw [stops.elsewhere other differs.symm]
  task _ := ⟨by rw [stops.elsewhere other differs.symm], stops.live other⟩
  live _ := stops.live other

theorem Kept.one_of_live (kept : Kept s) (same : s'.live = s.live) (tool : Tool) (id id' : Nat)
    (server server' : Option String) (here : s'.live id = some (tool, server))
    (there : s'.live id' = some (tool, server')) : id = id' := by
  rw [same] at here there
  exact kept.one tool id id' server server' here there

theorem lock_stops (free : (s.controllers tool).holder = none) : Stops me tool s (s.lock me tool) where
  game := rfl
  lifecycle := rfl
  elsewhere other differs := setController_of_ne differs _
  holder u differs := by
    rw [lock, setController_self, free]
    exact ⟨fun here => (by cases here), fun same => absurd (Option.some.inj same) differs⟩
  task _ := by rw [lock, setController_self]
  live _ := .of_live rfl

theorem lock_kept (kept : Kept s) : Kept (s.lock me tool) where
  one := kept.one_of_live rfl
  held other free id server here := by
    by_cases same : other = tool
    · subst same
      rw [lock, setController_self] at free
      cases free
    · rw [lock, setController_of_ne same] at free ⊢
      exact kept.held other free id server here
  told id task here alive elsewhere := by
    refine kept.told id task here alive fun there => elsewhere ?_
    by_cases same : task.tool = tool
    · subst same
      rw [lock, setController_self, there]
    · rw [lock, setController_of_ne same, there]
  fresh := kept.fresh

theorem unlock_stops (mine : (s.controllers tool).holder = some me) : Stops me tool s (s.unlock tool) where
  game := rfl
  lifecycle := rfl
  elsewhere other differs := setController_of_ne differs _
  holder u differs := by
    rw [unlock, setController_self, mine]
    exact ⟨fun same => absurd (Option.some.inj same) differs, fun here => by cases here⟩
  task _ := by rw [unlock, setController_self]
  live _ := .of_live rfl

theorem unlock_kept (kept : Kept s)
    (only : Only tool (s.controllers tool).task s) : Kept (s.unlock tool) where
  one := kept.one_of_live rfl
  held other free id server here := by
    by_cases same : other = tool
    · subst same
      rw [unlock, setController_self]
      exact only id server here
    · rw [unlock, setController_of_ne same] at free ⊢
      exact kept.held other free id server here
  told id task here alive elsewhere := by
    refine kept.told id task here alive fun there => elsewhere ?_
    by_cases same : task.tool = tool
    · subst same
      rw [unlock, setController_self, there]
    · rw [unlock, setController_of_ne same, there]
  fresh := kept.fresh

theorem setTask_stops {id : Nat} {change : SessionTask → SessionTask} (same : (s.setTask id change).live = s.live) :
    Stops me tool s (s.setTask id change) where
  game := rfl
  lifecycle := rfl
  elsewhere _ _ := rfl
  holder _ _ := .rfl
  task _ := rfl
  live _ := .of_live same

theorem take_stops (mine : (s.controllers tool).holder = some me) : Stops me tool s (s.take tool) := by
  have live : (s.take tool).live = s.live := live_take
  rw [take] at live ⊢
  split at live
  next => exact ⟨rfl, rfl, fun _ _ => rfl, fun _ _ => .rfl, fun _ => rfl, fun other => .refl other s⟩
  next id _ => exact {
    game := rfl
    lifecycle := rfl
    elsewhere := fun other differs => setController_of_ne differs _
    holder := fun u _ => by rw [setController_self, setTask_controllers]
    task := fun other => absurd mine other
    live := fun _ => .of_live live }

theorem take_holder : ((s.take tool).controllers tool).holder = (s.controllers tool).holder := by
  rw [take]
  split
  next => rfl
  next => rw [setController_self, setTask_controllers]

theorem take_task : ((s.take tool).controllers tool).task = none := by
  rw [take]
  split
  next empty => exact empty
  next => rw [setController_self]

theorem setTask_kept (kept : Kept s) {id : Nat} {change : SessionTask → SessionTask}
    (same : ∀ task, (change task).tool = task.tool ∧ (change task).server = task.server ∧
      (change task).outcome = task.outcome)
    (told : ∀ task, task.stop = true → (change task).stop = true) : Kept (s.setTask id change) where
  one := kept.one_of_live (live_setTask same)
  held other free id' server here := by
    rw [live_setTask same] at here
    exact kept.held other free id' server here
  told id' task here alive elsewhere := by
    by_cases its : id' = id
    · rw [its, setTask_self] at here
      obtain ⟨before, there, rfl⟩ := Option.map_eq_some_iff.mp here
      obtain ⟨tool, _, outcome⟩ := same before
      rw [setTask_controllers, tool, its] at elsewhere
      exact told before (kept.told id before there (outcome ▸ alive) elsewhere)
    · rw [setTask_of_ne its] at here
      exact kept.told id' task here alive elsewhere
  fresh id' later := by
    by_cases its : id' = id
    · rw [its, setTask_self, kept.fresh id (its ▸ later)]
      rfl
    · rw [setTask_of_ne its]
      exact kept.fresh id' later

/-- The controller lets go of a session that has been told to stop. -/
theorem letGo_kept (kept : Kept s) (mine : (s.controllers tool).holder = some me)
    (told : ∀ id task, (s.controllers tool).task = some id → s.tasks id = some task → task.stop = true) :
    Kept (s.setController tool ({ · with task := none })) where
  one := kept.one_of_live rfl
  held other free id server here := by
    by_cases same : other = tool
    · rw [same, setController_self, mine] at free
      cases free
    · rw [setController_of_ne same] at free ⊢
      exact kept.held other free id server here
  told id task here alive elsewhere := by
    by_cases there : (s.controllers task.tool).task = some id
    · by_cases its : task.tool = tool
      · exact told id task (its ▸ there) here
      · rw [setController_of_ne its] at elsewhere
        exact absurd there elsewhere
    · exact kept.told id task here alive there
  fresh := kept.fresh

theorem take_kept (kept : Kept s) (mine : (s.controllers tool).holder = some me) : Kept (s.take tool) := by
  rw [take]
  split
  next => exact kept
  next id there =>
    refine letGo_kept (setTask_kept kept (fun _ => ⟨rfl, rfl, rfl⟩) fun _ _ => rfl) mine fun id' task held here => ?_
    rw [setTask_controllers, there] at held
    obtain rfl := Option.some.inj held
    rw [setTask_self] at here
    obtain ⟨before, _, rfl⟩ := Option.map_eq_some_iff.mp here
    rfl

theorem spawn_kept (kept : Kept s) (mine : (s.controllers tool).holder = some me) (only : Only tool none s)
    (server : Option String) : Kept (s.spawn tool server) where
  one other id id' server' server'' here there := by
    rw [live_spawn] at here there
    split at here <;> split at there
    next same same' => rw [same, same']
    next =>
      cases here
      exact absurd there (only.dead id' server'')
    next =>
      cases there
      exact absurd here (only.dead id server')
    next => exact kept.one other id id' server' server'' here there
  held other free id server' here := by
    by_cases same : other = tool
    · rw [same, spawn, setController_self, mine] at free
      cases free
    · rw [spawn, setController_of_ne same] at free ⊢
      rw [live_spawn] at here
      split at here
      next =>
        cases here
        exact absurd rfl same
      next => exact kept.held other free id server' here
  told id task here alive elsewhere := by
    by_cases its : id = s.spawned
    · rw [its, spawn_self] at here
      cases here
      rw [spawn, setController_self, its] at elsewhere
      exact absurd rfl elsewhere
    · rw [spawn_of_ne its] at here
      by_cases same : task.tool = tool
      · refine absurd ?_ (only.dead id task.server)
        rw [live, here, Option.bind_some, alive, same]
        rfl
      · rw [spawn, setController_of_ne same] at elsewhere
        exact kept.told id task here alive elsewhere
  fresh id later := by
    have after : s.spawned < id := later
    rw [spawn_of_ne (Nat.ne_of_gt after)]
    exact kept.fresh id (Nat.le_of_lt after)

theorem endTask_fewer (id : Nat) (outcome : Outcome) : Fewer tool s (s.endTask id outcome) := by
  intro other server here
  rw [live_endTask] at here
  split at here
  next => cases here
  next => exact here

theorem endTask_kept (kept : Kept s) (id : Nat) (outcome : Outcome) : Kept (s.endTask id outcome) where
  one other id' id'' server server' here there :=
    kept.one other id' id'' server server' (endTask_fewer id outcome id' server here)
      (endTask_fewer id outcome id'' server' there)
  held other free id' server here := kept.held other free id' server (endTask_fewer id outcome id' server here)
  told id' task here alive elsewhere := by
    rw [endTask] at here
    by_cases its : id' = id
    · rw [its, setTask_self] at here
      obtain ⟨before, _, rfl⟩ := Option.map_eq_some_iff.mp here
      cases alive
    · rw [setTask_of_ne its] at here
      exact kept.told id' task here alive elsewhere
  fresh id' later := by
    rw [endTask]
    by_cases its : id' = id
    · rw [its, setTask_self, kept.fresh id (its ▸ later)]
      rfl
    · rw [setTask_of_ne its]
      exact kept.fresh id' later

theorem initial_kept (game : GameProcessHandle) : Kept (initial game) where
  one _ _ _ _ _ here := by cases here
  held _ _ _ _ here := by cases here
  told _ _ here := by cases here
  fresh _ _ := rfl

end State

end Steps

/-! ## Whole calls -/

section Whole

variable {me : Thread} {tool : Tool} {I : State → Prop}

namespace State

/-- The thread has the controller's lock; what it holds, and which session may still run. -/
structure Holding (me : Thread) (tool : Tool) (task only : Option Nat) (s : State) : Prop where
  holder : (s.controllers tool).holder = some me
  task : (s.controllers tool).task = task
  only : Only tool only s

theorem holding_stable (task only : Option Nat) :
    Task.Stable (Others me tool) (Holding me tool task only) := by
  intro s s' holding moved
  obtain ⟨same, fewer⟩ := moved.task holding.holder
  exact ⟨moved.holder.mp holding.holder, same.trans holding.task,
    holding.only.fewer fewer⟩

theorem only_stable (task : Option Nat) :
    Task.Stable (Others me tool) fun s => s.toolLifecycle = some me → Only tool task s :=
  fun _ _ here moved mine =>
    (here (moved.lifecycle.mpr mine)).fewer (moved.live (moved.lifecycle.mpr mine))

/-- A step that only looks. -/
theorem idle_stops (s : State) : Stops me tool s s :=
  ⟨rfl, rfl, fun _ _ => rfl, fun _ _ => .rfl, fun _ => rfl, fun other => .refl other s⟩

theorem Holding.ended {s : State} {id : Nat} (holding : Holding me tool none (some id) s)
    (ended : (s.outcome id).isSome = true) : Holding me tool none none s where
  holder := holding.holder
  task := holding.task
  only other server here := by
    obtain rfl := Option.some.inj (holding.only other server here)
    rw [not_live_of_outcome ended] at here
    cases here

theorem Holding.of_live {s s' : State} {task only : Option Nat} (holding : Holding me tool task only s)
    (controllers : s'.controllers = s.controllers) (live : s'.live = s.live) : Holding me tool task only s' where
  holder := by rw [controllers, holding.holder]
  task := by rw [controllers, holding.task]
  only id server here := holding.only id server (by rwa [live] at here)

/-- An invariant that every call can keep while it stops a session. -/
structure Admits (me : Thread) (tool : Tool) (I : State → Prop) : Prop where
  kept : ∀ s, I s → Kept s
  stops : ∀ s s', Stops me tool s s' → Kept s' → I s → I s'

end State

open State

variable (admits : Admits me tool I)

/-- Nothing but this thread touches the controller, and its session is over. -/
theorem over_safe {s : State} (past : Holding me tool none none s) (result : Except String Unit) :
    (Task.ofExcept result : ToolTask String Unit).Safe I (Others me tool) (Stops me tool)
      (fun _ t => Holding me tool none none t) s :=
  Task.safe_ofExcept (holding_stable none none) past

include admits

theorem awaitStopped_safe {s : State} {id : Nat} (holding : Holding me tool none (some id) s) :
    (awaitStopped tool id).Safe I (Others me tool) (Stops me tool) (fun _ t => Holding me tool none none t) s := by
  refine Task.Safe.andThen (Others.refl me tool)
    (Q := fun outcome t => Holding me tool none (if outcome.isSome then none else some id) t)
    (Task.safe_fetch (holding_stable none (some id)) (fun _ => holding_stable none _) holding
      fun t here inv _ => ⟨⟨idle_stops t, inv⟩, ?_⟩) fun outcome t here => ?_
  · by_cases ended : (t.outcome id).isSome = true
    · rw [if_pos ended]
      exact here.ended ended
    · rw [if_neg ended]
      exact here
  · cases outcome with
    | some outcome =>
      cases outcome with
      | done => exact over_safe here (.ok ())
      | panicked error => exact over_safe here (.error _)
      | cancelled error => exact over_safe here (.error _)
    | none =>
      -- the time is up: the task is aborted, and waited for all the same
      refine Task.safe_step (holding_stable none (some id)) here fun u here inv _ => ?_
      have stops : Stops me tool u (u.abort id) := setTask_stops (live_abort id)
      have kept : Kept (u.abort id) :=
        setTask_kept (admits.kept u inv) (fun _ => ⟨rfl, rfl, rfl⟩) fun _ told => told
      refine ⟨⟨stops, admits.stops _ _ stops kept inv⟩, ?_⟩
      refine Task.safe_step (holding_stable none (some id)) (here.of_live rfl (live_abort id))
        fun v here inv ended => ⟨⟨idle_stops v, inv⟩, over_safe (here.ended ended) (.error _)⟩

/-- **The session is over** when `stop_locked` returns, however it returns. -/
theorem stopLocked_safe {s : State} {task : Option Nat} (holding : Holding me tool task task s) :
    (stopLocked tool).Safe I (Others me tool) (Stops me tool) (fun _ t => Holding me tool none none t) s := by
  refine Task.Safe.andThen (Others.refl me tool) (Q := fun taken t => Holding me tool none taken t)
    (Task.safe_fetch (holding_stable task task) (fun taken => holding_stable none taken) holding
      fun t here inv _ => ?_) fun taken t here => ?_
  · have kept := take_kept (admits.kept t inv) here.holder
    have stops : Stops me tool t (t.take tool) := take_stops here.holder
    refine ⟨⟨stops, admits.stops _ _ stops kept inv⟩, take_holder.trans here.holder, take_task,
      fun id server there => ?_⟩
    rw [live_take] at there
    rw [here.task]
    exact here.only id server there
  · cases taken with
    | none => exact over_safe here (.ok ())
    | some id => exact awaitStopped_safe admits here

/-- The lock is taken, and what runs is what the controller holds. -/
theorem lockTask_safe (s : State) :
    (lockTask me tool : ToolTask String Unit).Safe I (Others me tool) (Stops me tool)
      (fun r t => ∃ a, r = .ok a ∧ ∃ task, Holding me tool task task t) s := by
  refine Task.safe_step Task.stable_true trivial fun t _ inv free => ?_
  have unheld : (t.controllers tool).holder = none := Option.isNone_iff_eq_none.mp free
  have stops : Stops me tool t (t.lock me tool) := lock_stops unheld
  refine ⟨⟨stops, admits.stops _ _ stops (lock_kept (admits.kept t inv)) inv⟩, ?_⟩
  refine Task.safe_ret (holding_stable _ _) (P := Holding me tool (t.controllers tool).task (t.controllers tool).task)
    ⟨?_, ?_, fun id server here => (admits.kept t inv).held tool unheld id server here⟩
    fun u here => ⟨(), rfl, _, here⟩
  · rw [lock, setController_self]
  · rw [lock, setController_self]

theorem unlockTask_safe {s : State} {task : Option Nat} (holding : Holding me tool task task s) :
    (unlockTask tool : ToolTask String Unit).Safe I (Others me tool) (Stops me tool)
      (fun r t => ∃ a, r = .ok a ∧ (t.toolLifecycle = some me → Only tool task t)) s := by
  refine Task.safe_step (holding_stable task task) holding fun t here inv _ => ?_
  have stops := unlock_stops here.holder
  have kept := unlock_kept (admits.kept t inv) fun id server there => here.task.trans (here.only id server there)
  exact ⟨⟨stops, admits.stops _ _ stops kept inv⟩,
    Task.safe_ret (only_stable task) (fun _ => here.only) fun u here => ⟨(), rfl, here⟩⟩

/-- A call that stops: no session of the tool runs when it returns, and none starts as long as
its thread has the tools' lifecycle. -/
theorem stop_safe (s : State) :
    (stop me tool).Safe I (Others me tool) (Stops me tool)
      (fun _ t => t.toolLifecycle = some me → Only tool none t) s := by
  refine Task.Safe.andThen (Others.refl me tool) (lockTask_safe admits s) fun _ t locked => ?_
  obtain ⟨task, holding⟩ := locked
  refine Task.Safe.andThen (Others.refl me tool) (Q := fun _ t => Holding me tool none none t)
    (Task.Safe.attempt ((stopLocked_safe admits holding).post fun r t past => ⟨r, rfl, past⟩)) fun result t past => ?_
  refine Task.Safe.andThen (Others.refl me tool) (unlockTask_safe admits past) fun _ t dead => ?_
  exact Task.safe_ofExcept (only_stable none) dead

end Whole

end RoLauncher.Tools
