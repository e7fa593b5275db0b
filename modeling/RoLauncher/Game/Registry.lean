import RoLauncher.Tables.Table

/-!
# The clients of the game (`state/game_process.rs`)

The registry holds a client for each launch reservation: launching, with the
process that controls the launch once it is known, or running, as one process.
Every operation holds the registry's lock from its first check to its last
write, so each is one step, and it either changes the clients or refuses.
-/

namespace RoLauncher.Game

open Tables

structure ProcessIdentity where
  pid : UInt32
  startTime : UInt64
  deriving DecidableEq, Repr

inductive MemoryAccess where
  | processVmReadv
  | procMem
  | noReadableWritableRegion
  | outsideSupervisor
  | yamaDenied
  | processExitedOrReused
  | backendError
  deriving DecidableEq, Repr

inductive ProfileMemory where
  | notConfigured
  | addressUnmapped
  | invalidRead
  | valid
  deriving DecidableEq, Repr

/-- What keeps a running client's session alive. The leases stand for themselves. -/
structure ClientRuntimeGuard where
  session : Nat
  memory : Option Nat
  memoryAccess : Option MemoryAccess
  profileMemory : Option ProfileMemory
  deriving DecidableEq, Repr

structure ClientMetadata where
  clientId : String
  serverId : String
  serverName : String
  deriving DecidableEq, Repr

inductive ProcessState where
  | launching (metadata : ClientMetadata) (controller : Option ProcessIdentity)
      (stopRequested : Bool)
  | running (metadata : ClientMetadata) (identity : ProcessIdentity)
      (controller : Option ProcessIdentity) (runtimePlanId : String)
      (observationId : Option String) (runtime : ClientRuntimeGuard) (stopRequested : Bool)
  deriving DecidableEq, Repr

inductive GameClientStatus where
  | launching
  | running
  | stopping
  deriving DecidableEq, Repr

structure GameClientSnapshot where
  clientId : String
  serverId : String
  serverName : String
  status : GameClientStatus
  pid : Option UInt32
  memoryAccess : Option MemoryAccess
  profileMemory : Option ProfileMemory
  deriving DecidableEq, Repr

namespace ProcessState

def metadata : ProcessState → ClientMetadata
  | launching metadata .. => metadata
  | running metadata .. => metadata

def identity : ProcessState → Option ProcessIdentity
  | launching .. => none
  | running _ identity .. => some identity

def isLaunching : ProcessState → Bool
  | launching .. => true
  | running .. => false

def stopRequested : ProcessState → Bool
  | launching _ _ stopRequested => stopRequested
  | running _ _ _ _ _ _ stopRequested => stopRequested

/-- The client with `stop_requested` set. -/
def stop : ProcessState → ProcessState
  | launching metadata controller _ => launching metadata controller true
  | running metadata identity controller plan observation runtime _ =>
    running metadata identity controller plan observation runtime true

def snapshot (client : ProcessState) : GameClientSnapshot :=
  let (status, pid) := match client with
    | launching _ _ stopRequested =>
      (if stopRequested then GameClientStatus.stopping else .launching, none)
    | running _ identity _ _ _ _ stopRequested =>
      (if stopRequested then GameClientStatus.stopping else .running, some identity.pid)
  let (memoryAccess, profileMemory) := match client with
    | running _ _ _ _ _ runtime _ => (runtime.memoryAccess, runtime.profileMemory)
    | launching .. => (none, none)
  { clientId := client.metadata.clientId
    serverId := client.metadata.serverId
    serverName := client.metadata.serverName
    status, pid, memoryAccess, profileMemory }

@[simp] theorem stop_metadata (client : ProcessState) : client.stop.metadata = client.metadata := by
  cases client <;> rfl

@[simp] theorem stop_identity (client : ProcessState) : client.stop.identity = client.identity := by
  cases client <;> rfl

@[simp] theorem stop_isLaunching (client : ProcessState) :
    client.stop.isLaunching = client.isLaunching := by
  cases client <;> rfl

theorem stop_of_stopRequested {client : ProcessState} (h : client.stopRequested = true) :
    client.stop = client := by
  cases client <;> · cases h; rfl

end ProcessState

structure LaunchReservation where
  generation : Nat
  deriving DecidableEq, Repr

/-- `RegistryState` and the counter its reservations come from. -/
structure GameProcessHandle where
  clients : Table Nat ProcessState
  relaunchAdmissionClosed : Bool
  nextGeneration : Nat

structure StopRequest where
  identities : List ProcessIdentity
  wasOnlyClient : Bool
  deriving DecidableEq, Repr

structure FinishedClient where
  clientId : String
  serverId : String
  serverName : String
  stopRequested : Bool
  remainingClients : Nat
  deriving DecidableEq, Repr

namespace GameProcessHandle

def new : GameProcessHandle := ⟨∅, false, 1⟩

def put (game : GameProcessHandle) (generation : Nat) (client : ProcessState) :
    GameProcessHandle := { game with clients := game.clients.insert generation client }

def beginLaunch (game : GameProcessHandle) (clientId serverId serverName : String) :
    Except String LaunchReservation × GameProcessHandle :=
  if game.relaunchAdmissionClosed then (.error "El launcher se está reiniciando", game)
  else if game.clients.any fun _ client => client.isLaunching then
    (.error "Ya hay otro cliente iniciándose; espera a que termine", game)
  else if game.clients.any fun _ client => client.metadata.clientId == clientId then
    (.error "El identificador de cliente ya está en uso", game)
  else
    let generation := game.nextGeneration
    let client := ProcessState.launching ⟨clientId, serverId, serverName⟩ none false
    (.ok ⟨generation⟩, { game.put generation client with nextGeneration := generation + 1 })

def markRunning (game : GameProcessHandle) (reservation : LaunchReservation)
    (identity : ProcessIdentity) (runtime : ClientRuntimeGuard) (runtimePlanId : String)
    (observationId : Option String) : Except String GameClientSnapshot × GameProcessHandle :=
  if game.clients.any fun generation client =>
      generation != reservation.generation && client.identity == some identity then
    (.error "El proceso detectado ya pertenece a otro cliente", game)
  else
    match game.clients.lookup reservation.generation with
    | none => (.error "La reserva de lanzamiento ya no es válida", game)
    | some (.launching metadata controller false) =>
      let client := ProcessState.running metadata identity controller runtimePlanId observationId
        runtime false
      (.ok client.snapshot, game.put reservation.generation client)
    | some (.launching _ _ true) => (.error "El lanzamiento fue cancelado por el usuario", game)
    | some (.running ..) => (.error "La reserva de lanzamiento ya está en ejecución", game)

def markController (game : GameProcessHandle) (reservation : LaunchReservation)
    (controllerIdentity : ProcessIdentity) : Except String Unit × GameProcessHandle :=
  match game.clients.lookup reservation.generation with
  | none => (.error "La reserva de lanzamiento ya no es válida", game)
  | some (.launching metadata _ false) =>
    (.ok (), game.put reservation.generation
      (.launching metadata (some controllerIdentity) false))
  | some (.launching _ _ true) => (.error "El lanzamiento fue cancelado por el usuario", game)
  | some (.running ..) => (.error "La reserva de lanzamiento ya está en ejecución", game)

/-- `cancel_launch`, also what dropping a `PendingLaunchGuard` does. -/
def cancelLaunch (game : GameProcessHandle) (reservation : LaunchReservation) :
    GameProcessHandle :=
  match game.clients.lookup reservation.generation with
  | some (.launching ..) => { game with clients := game.clients.erase reservation.generation }
  | _ => game

def closeAdmissionIfIdle (game : GameProcessHandle) : Except String Unit × GameProcessHandle :=
  if game.clients.entries ≠ [] then
    (.error "Cierra los clientes del juego antes de reiniciar", game)
  else if game.relaunchAdmissionClosed then (.error "El launcher se está reiniciando", game)
  else (.ok (), { game with relaunchAdmissionClosed := true })

/-- Dropping the `GameLaunchAdmission` that `close_admission_if_idle` answers with. -/
def reopenAdmission (game : GameProcessHandle) : GameProcessHandle :=
  { game with relaunchAdmissionClosed := false }

/-- The processes to stop for a client. -/
def stopIdentities : ProcessState → List ProcessIdentity
  | .launching _ controller _ => controller.toList
  | .running _ identity controller _ _ _ _ =>
    identity :: if controller.any (· != identity) then controller.toList else []

def requestStop (game : GameProcessHandle) (clientId : String) :
    Except String StopRequest × GameProcessHandle :=
  let wasOnlyClient := game.clients.entries.length == 1
  match game.clients.findEntry fun client => client.metadata.clientId == clientId with
  | none => (.error "El cliente ya no está en ejecución", game)
  | some (generation, client) =>
    (.ok { identities := stopIdentities client, wasOnlyClient }, game.put generation client.stop)

/-- `request_stop_all`; the processes in no particular order, each once. -/
def requestStopAll (game : GameProcessHandle) : List ProcessIdentity × GameProcessHandle :=
  ((game.clients.entries.flatMap fun entry => stopIdentities entry.2).dedup,
    { game with clients := game.clients.mapValues ProcessState.stop })

/-- Another client is launching or runs as `candidate`. -/
def takenByOther (game : GameProcessHandle) (reservation : LaunchReservation)
    (candidate : ProcessIdentity) : Bool :=
  game.clients.any fun generation client =>
    generation != reservation.generation &&
      (client.isLaunching || client.identity == some candidate)

def candidateAvailableForHandoff (game : GameProcessHandle) (reservation : LaunchReservation)
    (candidate : ProcessIdentity) : Bool :=
  match game.clients.lookup reservation.generation with
  | some (.running _ _ _ _ _ _ false) => !game.takenByOther reservation candidate
  | _ => false

def replaceRunning (game : GameProcessHandle) (reservation : LaunchReservation)
    (expected replacement : ProcessIdentity) (memoryLease : Nat) (memoryAccess : MemoryAccess)
    (profileMemory : ProfileMemory) : Bool × GameProcessHandle :=
  if game.takenByOther reservation replacement then (false, game)
  else
    match game.clients.lookup reservation.generation with
    | some (.running metadata identity controller plan observation runtime false) =>
      if identity = expected then
        let runtime := { runtime with
          memory := some memoryLease
          memoryAccess := some memoryAccess
          profileMemory := some profileMemory }
        (true, game.put reservation.generation
          (.running metadata replacement controller plan observation runtime false))
      else (false, game)
    | _ => (false, game)

def finish (game : GameProcessHandle) (reservation : LaunchReservation) :
    Option FinishedClient × GameProcessHandle :=
  match game.clients.lookup reservation.generation with
  | some (.running metadata _ _ _ _ _ stopRequested) =>
    let clients := game.clients.erase reservation.generation
    (some { clientId := metadata.clientId
            serverId := metadata.serverId
            serverName := metadata.serverName
            stopRequested
            remainingClients := clients.entries.length }, { game with clients })
  | _ => (none, game)

end GameProcessHandle

end RoLauncher.Game
