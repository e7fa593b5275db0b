import RoLauncher.Tools.SessionController
import RoLauncher.Threads.Pool

/-!
# The tools and the clients (`commands/`, `tools/launcher/session.rs`)

A combat tool works on the one client that runs. The commands that start and
stop tools and clients, and the task that cleans up after a client, hold
`tool_lifecycle` for that; what else a launch does to the registry, the
hand-past of a client to a new process, and the shutdown do not.

What a command finds out beside this state (the server's configuration, the
client's memory, the input devices) is an argument: it may refuse.
-/

namespace RoLauncher.Tools

open RoLauncher.Threads RoLauncher.Game

section Commands

variable (me : Thread)

/-- The body, with `tool_lifecycle` held. -/
def withLifecycle {α : Type} (body : ToolTask String α) : ToolTask String α := do
  Task.await (fun s => s.toolLifecycle.isNone) ({ · with toolLifecycle := some me })
  let result ← body.attempt
  Task.modify ({ · with toolLifecycle := none })
  .ofExcept result

def allTools : List Tool := [.autopot, .autobuff, .spammer]

def errors (results : List (Except String Unit)) : List String :=
  results.filterMap fun
    | .error e => some e
    | .ok () => none

def stopCombatTools : ToolTask String (List String) :=
  (Task.joinAll (fun n s => s.turn n) (allTools.map (stop me))).map errors

def combineStopErrors (processErrors toolErrors : List String) : Except String Unit :=
  if processErrors ≠ [] then .error ("; ".intercalate processErrors)
  else if toolErrors ≠ [] then .error ("; ".intercalate toolErrors)
  else .ok ()

/-- A request to start a tool, and what the command finds out about it, in order. -/
structure StartRequest where
  tool : Tool
  /-- The server; `update_spammer_config` takes whichever client runs. -/
  server : Option String
  valid : Except String Unit
  resolved : Except String Unit
  prepared : Except String Unit

/-- `start_session` of the tool. -/
def startSession (request : StartRequest) : ToolTask String Unit := do
  .ofExcept request.resolved
  Task.onlyIf (request.tool != .spammer) do
    let game ← Task.read (·.game)
    let _ ← Task.ofExcept game.soleRunningIdentity
    .ret ()
  .ofExcept request.prepared
  replace me request.tool request.server

/-- `start_autopot`, `start_autobuff`, `start_spammer` and `update_spammer_config`. -/
def startTool (request : StartRequest) : ToolTask String Unit := withLifecycle me do
  .ofExcept request.valid
  let game ← Task.read (·.game)
  let _ ← Task.ofExcept (game.soleRunningPidForServer request.server)
  startSession me request

/-- `stop_autopot`, `stop_autobuff` and `stop_spammer`. -/
def stopTool (tool : Tool) : ToolTask String Unit := withLifecycle me (stop me tool)

/-- An operation of the registry, under its own lock. -/
def onGame {α : Type} (operation : GameProcessHandle → α × GameProcessHandle) : ToolTask String α :=
  .fetch (fun s => (operation s.game).1) fun s => { s with game := (operation s.game).2 }

def stopToolsForAdditionalClient : ToolTask String Unit := do
  .ofExcept (combineStopErrors [] (← stopCombatTools me))

/-- What `launch_game` does when there are other clients. -/
def makeRoom (reservation : LaunchReservation) : ToolTask String Unit := do
  match ← (stopToolsForAdditionalClient me).attempt with
  | .ok () => .ret ()
  | .error error =>
    onGame fun game => ((), game.cancelLaunch reservation)
    .fail s!"No se pudieron detener las herramientas antes de abrir otro cliente: {error}"

/-- `launch_game` until it lets go of `tool_lifecycle`. What is left of it, and the drop of its
`PendingLaunchGuard`, are steps of the world. -/
def launchGame (clientId serverId serverName : String) : ToolTask String LaunchReservation :=
  withLifecycle me do
    let hadClients ← Task.read fun s => decide (0 < s.game.activeCount)
    let reservation ← onGame (·.beginLaunch clientId serverId serverName)
    let reservation ← Task.ofExcept reservation
    Task.onlyIf hadClients (makeRoom me reservation)
    .ret reservation

/-- `tool_errors` of `stop_game`: the tools are stopped with the only client. -/
def stopToolsWith (request : StopRequest) : ToolTask String (List String) :=
  if request.wasOnlyClient then stopCombatTools me else .ret []

/-- `stop_game`, with the errors of `terminate_processes`. -/
def stopGame (clientId : String) (processErrors : List String) : ToolTask String Unit := withLifecycle me do
  let request ← onGame (·.requestStop clientId)
  let request ← Task.ofExcept request
  let toolErrors ← stopToolsWith me request
  .ofExcept (combineStopErrors processErrors toolErrors)

def stopAllGames (processErrors : List String) : ToolTask String Unit := withLifecycle me do
  let toolErrors ← stopCombatTools me
  let _ ← onGame (·.requestStopAll)
  .ofExcept (combineStopErrors processErrors toolErrors)

/-- The end of `spawn_exit_task`, when the client is gone. -/
def exitClient (reservation : LaunchReservation) : ToolTask String Unit := withLifecycle me do
  match ← onGame (·.finish reservation) with
  | none => .ret ()
  | some finished =>
    Task.onlyIf (finished.remainingClients == 0) do
      let _ ← stopCombatTools me
      .ret ()

/-- `shutdown_launcher_services`, as far as the tools go. -/
def shutdownTools : ToolTask String Unit := (stopCombatTools me).discard

end Commands

/-- What else happens. -/
inductive World where
  | markController (reservation : LaunchReservation) (controller : ProcessIdentity)
  | markRunning (reservation : LaunchReservation) (identity : ProcessIdentity) (runtime : ClientRuntimeGuard)
      (plan : String) (observation : Option String)
  | cancelLaunch (reservation : LaunchReservation)
  | replaceRunning (reservation : LaunchReservation) (expected replacement : ProcessIdentity) (lease : Nat)
      (access : MemoryAccess) (profile : ProfileMemory)
  | closeAdmission
  | reopenAdmission
  /-- The timeout of a call that waits runs out, or has yet to. -/
  | late (tool : Tool) (expired : Bool)
  | turn (next : Nat → Bool)

namespace World

/-- The operation on the registry. -/
def operation : World → GameProcessHandle → GameProcessHandle
  | markController reservation controller, game => (game.markController reservation controller).2
  | markRunning reservation identity runtime plan observation, game =>
    (game.markRunning reservation identity runtime plan observation).2
  | cancelLaunch reservation, game => game.cancelLaunch reservation
  | replaceRunning reservation expected replacement lease access profile, game =>
    (game.replaceRunning reservation expected replacement lease access profile).2
  | closeAdmission, game => game.closeAdmissionIfIdle.2
  | reopenAdmission, game => game.reopenAdmission
  | late _ _, game | turn _, game => game

def apply (act : World) (s : State) : State :=
  match act with
  | late tool expired => s.setController tool ({ · with late := expired })
  | turn next => { s with turn := next }
  | act => { s with game := act.operation s.game }

end World

/-- The tasks of each thread. -/
inductive Entry : Thread → State → ToolTask String Unit → Prop
  | start {n : Nat} {s : State} (request : StartRequest) : Entry (.start n) s (startTool (.start n) request)
  | stop {n : Nat} {s : State} (tool : Tool) : Entry (.stop n) s (stopTool (.stop n) tool)
  | launch {n : Nat} {s : State} (clientId serverId serverName : String) :
      Entry (.launch n) s (launchGame (.launch n) clientId serverId serverName).discard
  | stopGame {n : Nat} {s : State} (clientId : String) (processErrors : List String) :
      Entry (.stopGame n) s (stopGame (.stopGame n) clientId processErrors)
  | stopAllGames {n : Nat} {s : State} (processErrors : List String) :
      Entry (.stopGame n) s (stopAllGames (.stopGame n) processErrors)
  | exit {n : Nat} {s : State} (reservation : LaunchReservation) :
      Entry (.exit n) s (exitClient (.exit n) reservation)
  | shutdown {s : State} : Entry .shutdown s (shutdownTools .shutdown)
  | session {id : Nat} {s : State} (outcome : Outcome) :
      Entry (.session id) s (.await (State.mayEnd id outcome) (State.endTask id outcome))
  | world {n : Nat} {s : State} (act : World) : Entry (.world n) s (.modify act.apply)

abbrev ToolPool := Pool Thread State String

/-! ## What the threads keep to -/

namespace State

variable {me : Thread} {s s' : State} {tool : Tool}

/-- A session works on the only client that runs, and for its server. -/
def Served (server : Option String) (s : State) : Prop :=
  ∃ metadata, s.game.OnlyRunning metadata ∧ ∀ expected, server = some expected → metadata.serverId = expected

/-- Every session that runs is served. -/
def Sole (s : State) : Prop := ∀ id tool server, s.live id = some (tool, server) → Served server s

/-- No launch and no clean-up is in the middle of its work. -/
structure Calm (s : State) : Prop where
  launch : ∀ n, s.toolLifecycle ≠ some (.launch n)
  exit : ∀ n, s.toolLifecycle ≠ some (.exit n)

structure Inv (s : State) : Prop where
  kept : Kept s
  sole : Calm s → Sole s

/-- What a thread counts on. -/
structure Rely (me : Thread) (s s' : State) : Prop where
  tools : ∀ tool, Others me tool s s'
  clients : s.toolLifecycle = some me → s.game.Later s'.game

/-- What a thread guarantees. -/
structure Guar (me : Thread) (s s' : State) : Prop where
  lifecycle : ∀ u, me ≠ u → (s.toolLifecycle = some u ↔ s'.toolLifecycle = some u)
  holder : ∀ tool u, me ≠ u →
    ((s.controllers tool).holder = some u ↔ (s'.controllers tool).holder = some u)
  task : ∀ tool, (s.controllers tool).holder ≠ some me →
    (s'.controllers tool).task = (s.controllers tool).task ∧ Fewer tool s s'
  live : s.toolLifecycle ≠ some me → ∀ tool, Fewer tool s s'
  clients : s.toolLifecycle ≠ some me → s.game.Later s'.game

theorem Rely.refl (me : Thread) (s : State) : Rely me s s := ⟨fun tool => .refl me tool s, fun _ => .refl _⟩

theorem Rely.trans {s'' : State} (first : Rely me s s') (second : Rely me s' s'') : Rely me s s'' where
  tools tool := (first.tools tool).trans (second.tools tool)
  clients mine := (first.clients mine).trans (second.clients ((first.tools .autopot).lifecycle.mp mine))

theorem Rely.lifecycle (moved : Rely me s s') : s.toolLifecycle = some me ↔ s'.toolLifecycle = some me :=
  (moved.tools .autopot).lifecycle

theorem Guar.rely {u : Thread} (differs : me ≠ u) (step : Guar me s s') : Rely u s s' where
  tools tool := {
    lifecycle := step.lifecycle u differs
    holder := step.holder tool u differs
    task := fun its => step.task tool fun mine => differs (Option.some.inj (mine.symm.trans its))
    live := fun its => step.live (fun mine => differs (Option.some.inj (mine.symm.trans its))) tool }
  clients its := step.clients fun mine => differs (Option.some.inj (mine.symm.trans its))

def discipline : Discipline Thread State where
  inv := Inv
  rely := Rely
  guar := Guar
  refl := Rely.refl
  trans _ _ _ _ := Rely.trans
  others _ _ _ _ differs step := step.rely differs

theorem Stops.guar (stops : Stops me tool s s') : Guar me s s' where
  lifecycle u _ := by rw [stops.lifecycle]
  holder other u differs := by
    by_cases same : other = tool
    · subst same
      exact stops.holder u differs
    · rw [stops.elsewhere other same]
  task other notMine := by
    refine ⟨?_, stops.live other⟩
    by_cases same : other = tool
    · subst same
      exact stops.task notMine
    · rw [stops.elsewhere other same]
  live _ := stops.live
  clients _ := by
    rw [stops.game]
    exact .refl _

/-- Only the registry changes. -/
theorem game_guar {game : GameProcessHandle} (may : s.toolLifecycle ≠ some me → s.game.Later game) :
    Guar me s { s with game } where
  lifecycle _ _ := .rfl
  holder _ _ _ := .rfl
  task _ _ := ⟨rfl, .of_live rfl⟩
  live _ _ := .of_live rfl
  clients := may

theorem Served.later {server : Option String} (served : Served server s) (later : s.game.Later s'.game) :
    Served server s' := by
  obtain ⟨metadata, only, which⟩ := served
  exact ⟨metadata, later.only metadata only, which⟩

theorem Sole.later (sole : Sole s) (fewer : ∀ tool, Fewer tool s s') (later : s.game.Later s'.game) : Sole s' :=
  fun id tool server here => (sole id tool server (fewer tool id server here)).later later

theorem Stops.sole (stops : Stops me tool s s') (sole : Sole s) : Sole s' :=
  sole.later stops.live (by rw [stops.game]; exact .refl _)

theorem Calm.of_lifecycle (same : s'.toolLifecycle = s.toolLifecycle) (calm : Calm s') : Calm s :=
  ⟨fun n here => calm.launch n (same.trans here), fun n here => calm.exit n (same.trans here)⟩

theorem inv_admits (me : Thread) (tool : Tool) : Admits me tool Inv where
  kept _ inv := inv.kept
  stops _ _ stops kept inv := ⟨kept, fun calm => stops.sole (inv.sole (calm.of_lifecycle stops.lifecycle))⟩

theorem Calm.of_free (free : s.toolLifecycle = none) : Calm s :=
  ⟨fun _ here => (by rw [free] at here; cases here), fun _ here => (by rw [free] at here; cases here)⟩

/-- The registry changes while a launch or a clean-up has the lifecycle, or no client is new. -/
theorem Inv.game (inv : Inv s) {game : GameProcessHandle} (may : Calm s → s.game.Later game) :
    Inv { s with game } where
  kept := ⟨inv.kept.one, inv.kept.held, inv.kept.told, inv.kept.fresh⟩
  sole calm := (inv.sole ⟨calm.launch, calm.exit⟩).later (fun _ => .of_live rfl) (may ⟨calm.launch, calm.exit⟩)

/-- No session runs. -/
def Over (s : State) : Prop := ∀ tool, Only tool none s

theorem Over.sole (past : Over s) : Sole s := fun id tool server here => absurd here ((past tool).dead id server)

theorem Over.fewer (past : Over s) (fewer : ∀ tool, Fewer tool s s') : Over s' :=
  fun tool => (past tool).fewer (fewer tool)

/-- Without a client, no session runs. -/
theorem Sole.past (sole : Sole s) (none : ∀ metadata, ¬ s.game.OnlyRunning metadata) : Over s := by
  intro tool id server here
  obtain ⟨metadata, only, _⟩ := sole id tool server here
  exact absurd only (none metadata)

end State

/-! ## The commands -/

section Commands

open State

variable {me : Thread} {tool : Tool} {s : State} {Err : Type}

/-- The thread has the lifecycle, and every session that runs is served. -/
structure Mine (me : Thread) (s : State) : Prop where
  lifecycle : s.toolLifecycle = some me
  sole : Sole s

theorem mine_stable : Task.Stable (Rely me) (Mine me) :=
  fun _ _ mine moved => ⟨moved.lifecycle.mp mine.lifecycle,
    mine.sole.later (fun tool => (moved.tools tool).live mine.lifecycle) (moved.clients mine.lifecycle)⟩

theorem mine_stops : Task.Stable (Stops me tool) (Mine me) :=
  fun _ _ mine stops => ⟨stops.lifecycle.trans mine.lifecycle, stops.sole mine.sole⟩

/-- The thread has the lifecycle, and no session runs. -/
structure Cleared (me : Thread) (s : State) : Prop where
  lifecycle : s.toolLifecycle = some me
  past : Over s

theorem Cleared.mine (cleared : Cleared me s) : Mine me s := ⟨cleared.lifecycle, cleared.past.sole⟩

theorem cleared_stable : Task.Stable (Rely me) (Cleared me) :=
  fun _ _ cleared moved => ⟨moved.lifecycle.mp cleared.lifecycle,
    cleared.past.fewer fun tool => (moved.tools tool).live cleared.lifecycle⟩

theorem owns_stable : Task.Stable (Rely me) fun s => s.toolLifecycle = some me :=
  fun _ _ mine moved => moved.lifecycle.mp mine

theorem owns_stops : Task.Stable (Stops me tool) fun s => s.toolLifecycle = some me :=
  fun _ _ mine stops => stops.lifecycle.trans mine

/-- A step that only looks. -/
theorem idle_guar (me : Thread) (s : State) : Guar me s s := (show Stops me .autopot s s from idle_stops s).guar

/-- A call on one controller, as a part of its thread. -/
theorem onTool {α : Type} {p : ToolTask Err α} {Q : Except Err α → State → Prop} {P : State → Prop}
    (safe : p.Safe Inv (Others me tool) (Stops me tool) Q s) (stable : Task.Stable (Rely me) P)
    (kept : Task.Stable (Stops me tool) P) (holds : P s) :
    p.Safe Inv (Rely me) (Guar me) (fun r t => Q r t ∧ P t) s := by
  have own : p.Safe Inv (Rely me) (Stops me tool) Q s := safe.weaken (fun _ _ moved => moved.tools tool) fun _ _ => id
  exact (own.keeps stable kept holds).weaken (fun _ _ => id) fun _ _ => Stops.guar

/-- A thread that has the lifecycle keeps it, and what it knows of the state, while it stops the tools. -/
theorem stopCombatTools_safe {P : State → Prop} (stable : Task.Stable (Rely me) P)
    (kept : ∀ tool, Task.Stable (Stops me tool) P) (holds : P s) :
    (stopCombatTools me).Safe Inv (Rely me) (Guar me)
      (fun r t => ∃ results, r = .ok results ∧ (t.toolLifecycle = some me → Over t) ∧ P t) s := by
  refine Task.Safe.map ?_
  have outer : ∀ tool ∈ allTools, ∀ s t, Rely me s t → Others me tool s t :=
    fun tool _ _ _ moved => moved.tools tool
  have inner : ∀ tool ∈ allTools, ∀ s t, Stops me tool s t → ∃ tool, Stops me tool s t :=
    fun tool _ _ _ stops => ⟨tool, stops⟩
  have apart : ∀ i j s t, i ≠ j → Stops me i s t → Others me j s t :=
    fun _ _ _ _ differs stops => stops.others differs
  have each : ∀ tool ∈ allTools, (stop me tool).Safe Inv (Others me tool) (Stops me tool)
      (fun _ t => t.toolLifecycle = some me → Only tool none t) s :=
    fun tool _ => stop_safe (inv_admits me tool) s
  have joined : (Task.joinAll (fun n s => s.turn n) (allTools.map (stop me)) :
      ToolTask String (List (Except String Unit))).Safe Inv (Rely me) (fun s t => ∃ tool, Stops me tool s t)
      (fun r t => ∃ results, r = .ok results ∧ List.Forall₂
        (fun tool _ => t.toolLifecycle = some me → Only tool none t) allTools results) s :=
    Task.Safe.joinAll (by decide) (Others.refl me) (fun _ _ _ _ => Others.trans) apart outer inner each
  have own := joined.keeps stable (fun s t here step => by
    obtain ⟨tool, stops⟩ := step
    exact kept tool s t here stops) holds
  refine (own.weaken (fun _ _ => id) fun s t step => ?_).post ?_
  · obtain ⟨tool, stops⟩ := step
    exact stops.guar
  · rintro _ t ⟨⟨results, rfl, past⟩, here⟩
    refine ⟨errors results, rfl, fun mine tool => ?_, here⟩
    -- each of the three calls has answered, so each tool is named
    cases past with
    | cons autopot past =>
      cases past with
      | cons autobuff past =>
        cases past with
        | cons spammer past =>
          cases tool with
          | autopot => exact autopot mine
          | autobuff => exact autobuff mine
          | spammer => exact spammer mine

theorem takeLifecycle_safe (s : State) :
    (Task.await (fun s => s.toolLifecycle.isNone) ({ · with toolLifecycle := some me }) : ToolTask String Unit).Safe
      Inv (Rely me) (Guar me) (fun r t => ∃ a, r = .ok a ∧ Mine me t) s := by
  refine Task.safe_step Task.stable_true trivial fun t _ inv free => ?_
  have unheld : t.toolLifecycle = none := Option.isNone_iff_eq_none.mp free
  have sole : Sole t := inv.sole (.of_free unheld)
  refine ⟨⟨?_, ⟨inv.kept.one, inv.kept.held, inv.kept.told, inv.kept.fresh⟩, fun _ => sole⟩,
    Task.safe_ret mine_stable ⟨rfl, sole⟩ fun u mine => ⟨(), rfl, mine⟩⟩
  exact {
    lifecycle := fun u differs => by
      rw [unheld]
      exact ⟨fun here => (by cases here), fun same => absurd (Option.some.inj same) differs⟩
    holder := fun _ _ _ => .rfl
    task := fun _ _ => ⟨rfl, .of_live rfl⟩
    live := fun _ _ => .of_live rfl
    clients := fun _ => .refl _ }

theorem dropLifecycle_safe (mine : Mine me s) :
    (Task.modify ({ · with toolLifecycle := none }) : ToolTask String Unit).Safe
      Inv (Rely me) (Guar me) (fun r _ => ∃ a, r = .ok a ∧ True) s := by
  refine Task.safe_step mine_stable mine fun t mine inv _ => ?_
  refine ⟨⟨?_, ⟨inv.kept.one, inv.kept.held, inv.kept.told, inv.kept.fresh⟩, fun _ => mine.sole⟩,
    Task.safe_ret Task.stable_true trivial fun u _ => ⟨(), rfl, trivial⟩⟩
  exact {
    lifecycle := fun u differs => by
      rw [mine.lifecycle]
      exact ⟨fun same => absurd (Option.some.inj same) differs, fun here => by cases here⟩
    holder := fun _ _ _ => .rfl
    task := fun _ _ => ⟨rfl, .of_live rfl⟩
    live := fun _ _ => .of_live rfl
    clients := fun _ => .refl _ }

/-- The body of a command goes from `Mine` to `Mine`. -/
theorem withLifecycle_safe {α : Type} {body : ToolTask String α}
    (safe : ∀ s, Mine me s → body.Safe Inv (Rely me) (Guar me) (fun _ t => Mine me t) s) (s : State) :
    (withLifecycle me body).Safe Inv (Rely me) (Guar me) (fun _ _ => True) s := by
  refine Task.Safe.andThen (Rely.refl me) (takeLifecycle_safe s) fun _ t mine => ?_
  refine Task.Safe.andThen (Rely.refl me) (Q := fun _ t => Mine me t)
    (Task.Safe.attempt ((safe t mine).post fun r t mine => ⟨r, rfl, mine⟩)) fun result t mine => ?_
  exact Task.Safe.andThen (Rely.refl me) (dropLifecycle_safe mine) fun _ t _ =>
    Task.safe_ofExcept Task.stable_true trivial

/-! ### Starting a tool -/

/-- The thread has the lifecycle, every session that runs is served, and so is one for this server. -/
structure MayStart (me : Thread) (server : Option String) (s : State) : Prop extends Mine me s where
  served : Served server s

theorem mayStart_stable {server : Option String} : Task.Stable (Rely me) (MayStart me server) :=
  fun _ _ may moved => ⟨mine_stable _ _ may.toMine moved, may.served.later (moved.clients may.lifecycle)⟩

theorem mayStart_stops {server : Option String} : Task.Stable (Stops me tool) (MayStart me server) :=
  fun _ _ may stops => ⟨mine_stops _ _ may.toMine stops, may.served.later (by rw [stops.game]; exact .refl _)⟩

/-- The controller is this thread's, with what it holds; the other sessions are none of it. -/
theorem holding_rely (task only : Option Nat) : Task.Stable (Rely me) (Holding me tool task only) :=
  fun s t holding moved => holding_stable task only s t holding (moved.tools tool)

/-- The session is started. -/
theorem spawn_safe {server : Option String} (past : Holding me tool none none s) (may : MayStart me server s) :
    (Task.modify (State.spawn tool server) : ToolTask String Unit).Safe Inv (Rely me) (Guar me)
      (fun r t => ∃ a, r = .ok a ∧ (∃ task, Holding me tool task task t) ∧ Mine me t) s := by
  refine Task.safe_step (Task.Stable.and (holding_rely none none) mayStart_stable) ⟨past, may⟩ fun t here inv _ => ?_
  obtain ⟨past, may⟩ := here
  have kept := spawn_kept inv.kept past.holder past.only server
  have sole : Sole (t.spawn tool server) := by
    intro id other server' here
    rw [live_spawn] at here
    split at here
    next =>
      cases here
      exact may.served.later (.refl _)
    next => exact (may.sole id other server' here).later (.refl _)
  refine ⟨⟨?_, kept, fun _ => sole⟩, ?_⟩
  · exact {
      lifecycle := fun _ _ => .rfl
      holder := fun other u _ => by
        by_cases same : other = tool
        · rw [same, State.spawn, setController_self]
        · rw [State.spawn, setController_of_ne same]
      task := fun other notMine => by
        have differs : other ≠ tool := fun same => notMine (same ▸ past.holder)
        refine ⟨by rw [State.spawn, setController_of_ne differs], fun id server' here => ?_⟩
        rw [live_spawn] at here
        split at here
        next =>
          cases here
          exact absurd rfl differs
        next => exact here
      live := fun notMine => absurd may.lifecycle notMine
      clients := fun _ => .refl _ }
  · refine Task.safe_ret (Task.Stable.and (holding_rely (some t.spawned) (some t.spawned)) mine_stable)
      ⟨⟨?_, ?_, fun id server' here => ?_⟩, ⟨may.lifecycle, sole⟩⟩ fun u here => ⟨(), rfl, ⟨_, here.1⟩, here.2⟩
    · rw [State.spawn, setController_self]
      exact past.holder
    · rw [State.spawn, setController_self]
    · rw [live_spawn] at here
      split at here
      next same => rw [same]
      next => exact absurd here (past.only.dead id server')

theorem replace_safe {server : Option String} (may : MayStart me server s) :
    (replace me tool server).Safe Inv (Rely me) (Guar me) (fun _ t => Mine me t) s := by
  have admits := inv_admits me tool
  refine Task.Safe.andThen (Rely.refl me) (Q := fun _ t => (∃ task, Holding me tool task task t) ∧ MayStart me server t)
    ((onTool (lockTask_safe admits s) mayStart_stable mayStart_stops may).post ?_) fun _ t here => ?_
  · rintro _ t ⟨⟨a, rfl, holding⟩, may⟩
    exact ⟨a, rfl, holding, may⟩
  obtain ⟨⟨task, holding⟩, may⟩ := here
  refine Task.Safe.andThen (Rely.refl me) (Q := fun _ t => Holding me tool none none t ∧ MayStart me server t)
    (Task.Safe.attempt ((onTool (stopLocked_safe admits holding) mayStart_stable mayStart_stops may).post
      fun r t here => ⟨r, rfl, here⟩)) fun result t here => ?_
  obtain ⟨past, may⟩ := here
  have unlocks : ∀ {t : State} {task : Option Nat}, Holding me tool task task t → Mine me t →
      (unlockTask tool : ToolTask String Unit).Safe Inv (Rely me) (Guar me) (fun r t => ∃ a, r = .ok a ∧ Mine me t) t := by
    intro t task holding mine
    refine (onTool (unlockTask_safe admits holding) mine_stable mine_stops mine).post ?_
    rintro _ t ⟨⟨a, rfl, _⟩, mine⟩
    exact ⟨a, rfl, mine⟩
  cases result with
  | error error =>
    exact Task.Safe.andThen (Rely.refl me) (unlocks past may.toMine) fun _ t mine =>
      Task.safe_fail mine_stable mine fun _ => id
  | ok =>
    refine Task.Safe.andThen (Rely.refl me) (spawn_safe past may) fun _ t here => ?_
    obtain ⟨⟨task, holding⟩, mine⟩ := here
    refine (unlocks holding mine).post ?_
    rintro _ t ⟨a, rfl, mine⟩
    exact mine

theorem quiet_same : Task.Quiet Inv (Rely me) (Guar me) fun s t => t = s where
  rely same _ := same ▸ .refl me _
  guar same _ := same ▸ idle_guar me _
  inv same inv := same ▸ inv

/-- Go on with what was found out, if it is not a refusal. -/
theorem ofExcept_safe {α β : Type} {found : Except String α} {f : α → ToolTask String β}
    {Q : Except String β → State → Prop} {P : State → Prop} (stable : Task.Stable (Rely me) P) (holds : P s)
    (refused : ∀ e t, P t → Q (.error e) t) (rest : ∀ a, found = .ok a → (f a).Safe Inv (Rely me) (Guar me) Q s) :
    (Task.ofExcept found >>= f).Safe Inv (Rely me) (Guar me) Q s := by
  cases found with
  | ok a => exact rest a rfl
  | error e => exact Task.safe_fail stable holds fun t here => refused e t here

theorem startSession_safe {request : StartRequest} (may : MayStart me request.server s) :
    (startSession me request).Safe Inv (Rely me) (Guar me) (fun _ t => Mine me t) s := by
  refine ofExcept_safe mayStart_stable may (fun _ _ may => may.toMine) fun _ _ => ?_
  have framed : (Task.onlyIf (request.tool != .spammer) do
      let game ← Task.read (·.game)
      let _ ← Task.ofExcept game.soleRunningIdentity
      .ret () : ToolTask String Unit).Framed fun s t => t = s := by
    cases request.tool != .spammer with
    | false => trivial
    | true =>
      refine ⟨fun _ => rfl, fun s => ?_⟩
      exact Task.Framed.bind (f := fun _ => Task.ret ()) (Task.Framed.ofExcept s.game.soleRunningIdentity)
        fun _ => trivial
  refine quiet_same.andThen (Rely.refl me) framed mayStart_stable may (fun _ t may => ?_)
    fun _ _ may => may.toMine
  exact ofExcept_safe mayStart_stable may (fun _ _ may => may.toMine) fun _ _ => replace_safe may

theorem startTool_safe (request : StartRequest) (s : State) :
    (startTool me request).Safe Inv (Rely me) (Guar me) (fun _ _ => True) s := by
  refine withLifecycle_safe (fun s mine => ?_) s
  refine ofExcept_safe mine_stable mine (fun _ _ => id) fun _ _ => ?_
  refine Task.Safe.andThen (Rely.refl me)
    (Q := fun game t => Mine me t ∧ ∀ pid, game.soleRunningPidForServer request.server = .ok pid → Served request.server t)
    (quiet_same.read (fun _ => rfl) mine_stable mine (fun game s t here moved => ?_) fun t mine _ => ?_)
    fun game t here => ?_
  · exact ⟨mine_stable _ _ here.1 moved, fun pid found => (here.2 pid found).later (moved.clients here.1.lifecycle)⟩
  · exact ⟨mine, fun pid found => GameProcessHandle.soleRunningPidForServer_eq_ok found⟩
  · obtain ⟨mine, served⟩ := here
    exact ofExcept_safe mine_stable mine (fun _ _ => id) fun pid found =>
      startSession_safe ⟨mine, served pid found⟩

theorem stopTool_safe (tool : Tool) (s : State) :
    (stopTool me tool).Safe Inv (Rely me) (Guar me) (fun _ _ => True) s := by
  refine withLifecycle_safe (fun s mine => ?_) s
  exact (onTool (stop_safe (inv_admits me tool) s) mine_stable mine_stops mine).post fun _ _ here => here.2

/-! ### Clients -/

/-- An operation of the registry that adds no client and lets the only one run. -/
theorem onGame_safe {α : Type} {operation : GameProcessHandle → α × GameProcessHandle}
    (later : ∀ game : GameProcessHandle, game.Later (operation game).2) (mine : Mine me s) :
    (onGame operation).Safe Inv (Rely me) (Guar me) (fun r t => ∃ a, r = .ok a ∧ Mine me t) s :=
  Task.safe_fetch mine_stable (fun _ => mine_stable) mine fun t mine inv _ =>
    ⟨⟨game_guar fun _ => later t.game, inv.game fun _ => later t.game⟩,
      mine.lifecycle, mine.sole.later (fun _ => .of_live rfl) (later t.game)⟩

/-- The tools are stopped for a thread that has the lifecycle. -/
theorem stopCombatTools_cleared (mine : s.toolLifecycle = some me) :
    (stopCombatTools me).Safe Inv (Rely me) (Guar me) (fun r t => ∃ results, r = .ok results ∧ Cleared me t) s := by
  refine (stopCombatTools_safe owns_stable (fun _ => owns_stops) mine).post ?_
  rintro _ t ⟨results, rfl, past, mine⟩
  exact ⟨results, rfl, mine, past mine⟩

theorem stopGame_safe (clientId : String) (processErrors : List String) (s : State) :
    (stopGame me clientId processErrors).Safe Inv (Rely me) (Guar me) (fun _ _ => True) s := by
  refine withLifecycle_safe (fun s mine => ?_) s
  refine Task.Safe.andThen (Rely.refl me)
    (onGame_safe (fun game => GameProcessHandle.requestStop_later clientId) mine) fun request t mine => ?_
  refine ofExcept_safe mine_stable mine (fun _ _ => id) fun request _ => ?_
  refine Task.Safe.andThen (Rely.refl me) (Q := fun _ t => Mine me t) ?_ fun toolErrors t mine =>
    Task.safe_ofExcept (Q := fun _ t => Mine me t) mine_stable mine
  rw [stopToolsWith]
  split
  next =>
    refine (stopCombatTools_cleared mine.lifecycle).post ?_
    rintro _ t ⟨results, rfl, cleared⟩
    exact ⟨results, rfl, cleared.mine⟩
  next => exact Task.safe_ret mine_stable mine fun t mine => ⟨[], rfl, mine⟩

theorem stopAllGames_safe (processErrors : List String) (s : State) :
    (stopAllGames me processErrors).Safe Inv (Rely me) (Guar me) (fun _ _ => True) s := by
  refine withLifecycle_safe (fun s mine => ?_) s
  refine Task.Safe.andThen (Rely.refl me) (stopCombatTools_cleared mine.lifecycle) fun toolErrors t cleared => ?_
  refine Task.Safe.andThen (Rely.refl me)
    (onGame_safe (fun game => GameProcessHandle.requestStopAll_later) cleared.mine) fun _ t mine => ?_
  exact Task.safe_ofExcept (Q := fun _ t => Mine me t) mine_stable mine

/-- A launch takes its place in the registry: without other clients, there is nothing to stop. -/
theorem beginLaunch_safe {n : Nat} {hadClients : Bool} (clientId serverId serverName : String)
    (mine : Mine (.launch n) s) (none : hadClients = false → s.game.clients.entries = []) :
    (onGame (·.beginLaunch clientId serverId serverName)).Safe Inv (Rely (.launch n)) (Guar (.launch n))
      (fun r t => ∃ reservation, r = .ok reservation ∧ t.toolLifecycle = some (.launch n) ∧
        (∀ e, reservation = .error e → Sole t) ∧ (hadClients = false → Over t)) s := by
  have before : Task.Stable (Rely (.launch n)) fun t =>
      Mine (.launch n) t ∧ (hadClients = false → t.game.clients.entries = []) :=
    fun t u here moved => ⟨mine_stable _ _ here.1 moved,
      fun alone => (moved.clients here.1.lifecycle).none (here.2 alone)⟩
  have after : ∀ reservation : Except String LaunchReservation, Task.Stable (Rely (.launch n)) fun t =>
      t.toolLifecycle = some (.launch n) ∧ (∀ e, reservation = .error e → Sole t) ∧ (hadClients = false → Over t) := by
    intro reservation t u here moved
    obtain ⟨mine, refused, alone⟩ := here
    refine ⟨moved.lifecycle.mp mine, fun e same => ?_, fun first => ?_⟩
    · exact (refused e same).later (fun tool => (moved.tools tool).live mine) (moved.clients mine)
    · exact (alone first).fewer fun tool => (moved.tools tool).live mine
  refine Task.safe_fetch before after ⟨mine, none⟩ fun t here inv _ => ?_
  obtain ⟨mine, none⟩ := here
  refine ⟨⟨game_guar fun notMine => absurd mine.lifecycle notMine,
    inv.game fun calm => absurd mine.lifecycle (calm.launch n)⟩, mine.lifecycle, fun e refused => ?_, fun first => ?_⟩
  · rw [GameProcessHandle.beginLaunch_error refused]
    exact mine.sole
  · refine (mine.sole.past fun metadata only => ?_).fewer fun _ => .of_live rfl
    have one := only.length
    rw [none first] at one
    cases one

theorem stopToolsForAdditionalClient_safe {n : Nat} (mine : s.toolLifecycle = some (.launch n)) :
    (stopToolsForAdditionalClient (.launch n)).Safe Inv (Rely (.launch n)) (Guar (.launch n))
      (fun _ t => Cleared (.launch n) t) s :=
  Task.Safe.andThen (Rely.refl _) (stopCombatTools_cleared mine) fun _ _ cleared =>
    Task.safe_ofExcept (Q := fun _ t => Cleared (.launch n) t) cleared_stable cleared

theorem makeRoom_safe {n : Nat} (reservation : LaunchReservation) (mine : s.toolLifecycle = some (.launch n)) :
    (makeRoom (.launch n) reservation).Safe Inv (Rely (.launch n)) (Guar (.launch n))
      (fun _ t => Mine (.launch n) t) s := by
  refine Task.Safe.andThen (Rely.refl _) (Q := fun _ t => Cleared (.launch n) t)
    (Task.Safe.attempt ((stopToolsForAdditionalClient_safe mine).post fun r t here => ⟨r, rfl, here⟩))
    fun result t cleared => ?_
  cases result with
  | ok => exact Task.safe_ret cleared_stable cleared fun _ => Cleared.mine
  | error error =>
    refine Task.Safe.andThen (Rely.refl _) (onGame_safe (fun game => GameProcessHandle.cancelLaunch_later)
      cleared.mine) fun _ t mine => ?_
    exact Task.safe_fail mine_stable mine fun _ => id

theorem launchGame_safe {n : Nat} (clientId serverId serverName : String) (s : State) :
    (launchGame (.launch n) clientId serverId serverName).Safe Inv (Rely (.launch n)) (Guar (.launch n))
      (fun _ _ => True) s := by
  refine withLifecycle_safe (fun s mine => ?_) s
  refine Task.Safe.andThen (Rely.refl _)
    (Q := fun hadClients t => Mine (.launch n) t ∧ (hadClients = false → t.game.clients.entries = []))
    (quiet_same.read (fun _ => rfl) mine_stable mine (fun hadClients t u here moved => ?_) fun t mine _ => ?_)
    fun hadClients t here => ?_
  · exact ⟨mine_stable _ _ here.1 moved, fun alone => (moved.clients here.1.lifecycle).none (here.2 alone)⟩
  · refine ⟨mine, fun alone => List.eq_nil_of_length_eq_zero ?_⟩
    exact Nat.eq_zero_of_not_pos (of_decide_eq_false alone)
  obtain ⟨mine, none⟩ := here
  refine Task.Safe.andThen (Rely.refl _) (beginLaunch_safe clientId serverId serverName mine none)
    fun reservation t here => ?_
  obtain ⟨mine, refused, alone⟩ := here
  cases reservation with
  | error e => exact Task.safe_fail mine_stable ⟨mine, refused e rfl⟩ fun _ => id
  | ok reservation =>
    cases hadClients with
    | false =>
      exact Task.safe_ret cleared_stable ⟨mine, alone rfl⟩ fun _ => Cleared.mine
    | true =>
      have rest : (makeRoom (.launch n) reservation >>= fun _ => Task.ret reservation).Safe
          Inv (Rely (.launch n)) (Guar (.launch n)) (fun _ t => Mine (.launch n) t) t :=
        (makeRoom_safe reservation mine).seq (Rely.refl _)
          (fun _ t mine => Task.safe_ret mine_stable mine fun _ => id) fun _ _ => id
      exact rest

/-- A client has ended: without others the tools are stopped, and with others no tool runs. -/
theorem exitClient_safe {n : Nat} (reservation : LaunchReservation) (s : State) :
    (exitClient (.exit n) reservation).Safe Inv (Rely (.exit n)) (Guar (.exit n)) (fun _ _ => True) s := by
  refine withLifecycle_safe (fun s mine => ?_) s
  have after : ∀ ended : Option FinishedClient, Task.Stable (Rely (.exit n)) fun t =>
      t.toolLifecycle = some (.exit n) ∧ (ended = none → Sole t) ∧
        ∀ finished, ended = some finished → finished.remainingClients ≠ 0 → Over t := by
    intro ended t u here moved
    obtain ⟨mine, unknown, others⟩ := here
    refine ⟨moved.lifecycle.mp mine, fun same => ?_, fun finished same left => ?_⟩
    · exact (unknown same).later (fun tool => (moved.tools tool).live mine) (moved.clients mine)
    · exact (others finished same left).fewer fun tool => (moved.tools tool).live mine
  refine Task.Safe.andThen (Rely.refl _) (Task.safe_fetch mine_stable after mine fun t mine inv _ => ?_)
    fun ended t here => ?_
  · refine ⟨⟨game_guar fun notMine => absurd mine.lifecycle notMine,
      inv.game fun calm => absurd mine.lifecycle (calm.exit n)⟩, mine.lifecycle, fun unknown => ?_,
      fun finished ended left => ?_⟩
    · rw [GameProcessHandle.finish_none unknown]
      exact mine.sole
    · exact (mine.sole.past fun metadata => GameProcessHandle.finish_remaining ended left).fewer fun _ => .of_live rfl
  · obtain ⟨mine, unknown, others⟩ := here
    cases ended with
    | none => exact Task.safe_ret mine_stable ⟨mine, unknown rfl⟩ fun _ => id
    | some finished =>
      refine Task.Safe.onlyIf (fun _ => ?_) fun left => ?_
      · exact Task.Safe.andThen (Rely.refl _) (stopCombatTools_cleared mine) fun _ t cleared =>
          Task.safe_ret mine_stable cleared.mine fun _ => id
      · have past := others finished rfl (beq_eq_false_iff_ne.mp left)
        exact Task.safe_ret mine_stable ⟨mine, past.sole⟩ fun _ => id

theorem shutdownTools_safe (s : State) :
    (shutdownTools me).Safe Inv (Rely me) (Guar me) (fun _ _ => True) s :=
  Task.Safe.discard (Rely.refl me)
    ((stopCombatTools_safe Task.stable_true (fun _ => Task.stable_true) trivial).post fun _ _ _ => trivial)

/-! ### The rest -/

theorem endTask_safe (id : Nat) (outcome : Outcome) (s : State) :
    (Task.await (State.mayEnd id outcome) (State.endTask id outcome) : ToolTask String Unit).Safe
      Inv (Rely me) (Guar me) (fun _ _ => True) s := by
  refine Task.safe_step Task.stable_true trivial fun t _ inv _ => ?_
  refine ⟨⟨?_, endTask_kept inv.kept id outcome, fun calm => ?_⟩,
    Task.safe_ret Task.stable_true trivial fun _ _ => trivial⟩
  · exact {
      lifecycle := fun _ _ => .rfl
      holder := fun _ _ _ => .rfl
      task := fun _ _ => ⟨rfl, endTask_fewer id outcome⟩
      live := fun _ _ => endTask_fewer id outcome
      clients := fun _ => .refl _ }
  · exact (inv.sole ⟨calm.launch, calm.exit⟩).later (fun _ => endTask_fewer id outcome) (.refl _)

theorem operation_later (act : World) (game : GameProcessHandle) : game.Later (act.operation game) := by
  cases act with
  | markController reservation controller => exact GameProcessHandle.markController_later controller
  | markRunning reservation identity runtime plan observation =>
    exact GameProcessHandle.markRunning_later identity runtime plan observation
  | cancelLaunch reservation => exact GameProcessHandle.cancelLaunch_later
  | replaceRunning reservation expected replacement lease access profile =>
    exact GameProcessHandle.replaceRunning_later expected replacement lease access profile
  | closeAdmission => exact GameProcessHandle.closeAdmissionIfIdle_later
  | reopenAdmission => exact GameProcessHandle.reopenAdmission_later
  | late => exact .refl game
  | turn => exact .refl game

/-- The timers and the executor, which no thread looks into. -/
theorem late_inv (inv : Inv s) (tool : Tool) (expired : Bool) : Inv (s.setController tool ({ · with late := expired })) := by
  have same : ∀ other, ((s.setController tool ({ · with late := expired })).controllers other).holder =
        (s.controllers other).holder ∧
      ((s.setController tool ({ · with late := expired })).controllers other).task = (s.controllers other).task := by
    intro other
    by_cases its : other = tool
    · rw [its, setController_self]
      exact ⟨rfl, rfl⟩
    · rw [setController_of_ne its]
      exact ⟨rfl, rfl⟩
  refine ⟨⟨inv.kept.one, fun other free => ?_, fun id task here alive elsewhere => ?_, inv.kept.fresh⟩, fun calm =>
    (inv.sole ⟨calm.launch, calm.exit⟩).later (fun _ => .of_live rfl) (.refl _)⟩
  · rw [(same other).1] at free
    rw [(same other).2]
    exact inv.kept.held other free
  · rw [(same task.tool).2] at elsewhere
    exact inv.kept.told id task here alive elsewhere

theorem late_guar (tool : Tool) (expired : Bool) : Guar me s (s.setController tool ({ · with late := expired })) where
  lifecycle _ _ := .rfl
  holder other u _ := by
    by_cases its : other = tool
    · rw [its, setController_self]
    · rw [setController_of_ne its]
  task other _ := by
    refine ⟨?_, .of_live rfl⟩
    by_cases its : other = tool
    · rw [its, setController_self]
    · rw [setController_of_ne its]
  live _ _ := .of_live rfl
  clients _ := .refl _

theorem world_safe (act : World) (s : State) :
    (Task.modify act.apply : ToolTask String Unit).Safe Inv (Rely me) (Guar me) (fun _ _ => True) s := by
  refine Task.safe_step Task.stable_true trivial fun t _ inv _ => ?_
  refine ⟨?_, Task.safe_ret Task.stable_true trivial fun _ => id⟩
  have later := operation_later act t.game
  cases act with
  | late tool expired => exact ⟨late_guar tool expired, late_inv inv tool expired⟩
  | turn next =>
    refine ⟨⟨fun _ _ => .rfl, fun _ _ _ => .rfl, fun _ _ => ⟨rfl, .of_live rfl⟩, fun _ _ => .of_live rfl,
      fun _ => .refl _⟩, ⟨inv.kept.one, inv.kept.held, inv.kept.told, inv.kept.fresh⟩, fun calm => ?_⟩
    exact (inv.sole ⟨calm.launch, calm.exit⟩).later (fun _ => .of_live rfl) (.refl _)
  | markController => exact ⟨game_guar fun _ => later, inv.game fun _ => later⟩
  | markRunning => exact ⟨game_guar fun _ => later, inv.game fun _ => later⟩
  | cancelLaunch => exact ⟨game_guar fun _ => later, inv.game fun _ => later⟩
  | replaceRunning => exact ⟨game_guar fun _ => later, inv.game fun _ => later⟩
  | closeAdmission => exact ⟨game_guar fun _ => later, inv.game fun _ => later⟩
  | reopenAdmission => exact ⟨game_guar fun _ => later, inv.game fun _ => later⟩

/-- **Every thread keeps to its part.** -/
theorem entry_safe (t : Thread) (s : State) (p : ToolTask String Unit) (_ : discipline.inv s) (may : Entry t s p) :
    discipline.Safe t p (fun _ _ => True) s := by
  cases may with
  | start request => exact startTool_safe request s
  | stop tool => exact stopTool_safe tool s
  | launch clientId serverId serverName =>
    exact Task.Safe.discard (Rely.refl _) (launchGame_safe clientId serverId serverName s)
  | stopGame clientId processErrors => exact stopGame_safe clientId processErrors s
  | stopAllGames processErrors => exact stopAllGames_safe processErrors s
  | exit reservation => exact exitClient_safe reservation s
  | shutdown => exact shutdownTools_safe s
  | session outcome => exact endTask_safe _ outcome s
  | world act => exact world_safe act s

theorem initial_inv (game : GameProcessHandle) : Inv (initial game) :=
  ⟨initial_kept game, fun _ id tool server here => by cases here⟩

/-- What holds in every state that the threads reach. -/
theorem run_inv {game : GameProcessHandle} {c : ToolPool} (run : PoolRun Entry (Pool.idle (initial game)) c) :
    Inv c.1 :=
  (PoolRun.kept (D := discipline) entry_safe run (Discipline.kept_idle (initial_inv game))).1

end Commands

/-! ## What holds of every run -/

section Runs

open State

variable {game : GameProcessHandle} {c : ToolPool}

/-- **One session a tool**, whatever calls start and stop sessions at the same time: no two run;
one that its controller does not hold has been told to stop; and while no call works on the
controller, the one that runs is the one it holds. -/
theorem sessions_exclusive (run : PoolRun Entry (Pool.idle (initial game)) c) :
    (∀ tool id id' server server', c.1.live id = some (tool, server) → c.1.live id' = some (tool, server') →
      id = id') ∧
    (∀ id task, c.1.tasks id = some task → task.outcome = none → (c.1.controllers task.tool).task ≠ some id →
      task.stop = true) ∧
    ∀ tool, (c.1.controllers tool).holder = none → Only tool (c.1.controllers tool).task c.1 :=
  have kept := (run_inv run).kept
  ⟨kept.one, kept.told, kept.held⟩

/-- A client has been launched and runs, and the spammer works on it. -/
def launched : State := (launchGame (.launch 0) "client" "server" "Server").discard.left (initial .new)

def marks : World := .markRunning ⟨1⟩ ⟨7, 1⟩ ⟨0, none, none, none⟩ "plan" none

def runs : State := marks.apply launched

def spams : State := (startTool (.start 0) ⟨.spammer, some "server", .ok (), .ok (), .ok ()⟩).left runs

theorem spams_run : PoolRun Entry (Pool.idle (initial .new)) (Pool.idle spams) :=
  have launch : PoolRun Entry (Pool.idle (initial .new)) (Pool.idle launched) :=
    PoolRun.left rfl (.launch "client" "server" "Server") rfl
  have mark : PoolRun Entry (Pool.idle launched) (Pool.idle runs) :=
    PoolRun.left rfl (Entry.world (n := 0) marks) rfl
  have start : PoolRun Entry (Pool.idle runs) (Pool.idle spams) :=
    PoolRun.left rfl (Entry.start (n := 0) _) rfl
  (launch.trans mark).trans start

/-- Another call starts the spammer, -/
def spamsAgain : ToolTask String Unit :=
  startTool (.start 1) ⟨.spammer, some "server", .ok (), .ok (), .ok ()⟩

/-- tells the session that runs to stop, and waits for it. -/
def replacing : ToolTask String Unit × State := spamsAgain.partway 4 spams

/-- The session ends, and the call goes on. -/
def sessionEnds : ToolTask String Unit := .await (State.mayEnd 0 .done) (State.endTask 0 .done)

def ended : State := sessionEnds.left replacing.2

def replaced : State := replacing.1.left ended

def waiting : Thread → Option (ToolTask String Unit) :=
  Function.update (fun _ => none) (.start 1) (some replacing.1)

theorem replacing_run : PoolRun Entry (Pool.idle (initial .new)) (replacing.2, waiting) := by
  have begins : PoolRun Entry (Pool.idle spams)
      (spams, Function.update (fun _ => none) (.start 1) (some spamsAgain)) :=
    .single (.start rfl (Entry.start _))
  have asks : PoolRun Entry (spams, Function.update (fun _ => none) (.start 1) (some spamsAgain))
      (replacing.2, waiting) := PoolRun.partway 4 (by decide +kernel)
  exact (spams_run.trans begins).trans asks

theorem replaced_run : PoolRun Entry (Pool.idle (initial .new))
    (replaced, Function.update (fun _ => none) (.start 1) none) := by
  have ends : PoolRun Entry (replacing.2, waiting) (ended, waiting) :=
    PoolRun.left rfl (@Entry.session 0 _ .done) (by decide +kernel)
  have rest : PoolRun Entry (ended, waiting)
      (replaced, Function.update (fun _ => none) (.start 1) none) := PoolRun.rest (by decide +kernel)
  exact (replacing_run.trans ends).trans rest

theorem replacing_live : replacing.2.live 0 = some (.spammer, some "server") := by decide +kernel

theorem replaced_live : replaced.live 1 = some (.spammer, some "server") := by decide +kernel

/-- The first session has been told to stop while it still runs, and only the second one runs after it. -/
theorem sessions_exclusive_spams :
    (replacing.2.live 0 = some (.spammer, some "server") ∧
      ∀ task, replacing.2.tasks 0 = some task → task.stop = true) ∧
    replaced.live 1 = some (.spammer, some "server") ∧
      ∀ id server, replaced.live id = some (.spammer, server) → id = 1 := by
  refine ⟨⟨replacing_live, fun task here => ?_⟩, replaced_live, fun _ _ here => ?_⟩
  · refine (sessions_exclusive replacing_run).2.1 0 task here ?_ ?_
    · cases here
      rfl
    · cases here
      decide
  · exact (sessions_exclusive replaced_run).1 .spammer _ 1 _ _ here replaced_live

/-- **The tools work on the only client**: unless a launch or the clean-up after a client is in the
middle of its work, a session runs only while the registry holds one client, it is running, and
it is one of the server that the session was started for. -/
theorem session_served (run : PoolRun Entry (Pool.idle (initial game)) c) (calm : Calm c.1) {id : Nat} {tool : Tool}
    {server : Option String} (live : c.1.live id = some (tool, server)) : Served server c.1 :=
  (run_inv run).sole calm id tool server live

theorem session_served_spams : Served (some "server") replaced :=
  session_served replaced_run (.of_free rfl) replaced_live

end Runs

end RoLauncher.Tools
