import RoLauncher.Game.Registry

/-!
# The only client (`state/game_process.rs`)

The tools work on a client only while it is the only one, and is running. What
any operation of the registry, apart from a launch that begins and a client
that has ended, leaves of that is `Later`: no client appears, and an only
client that runs stays the only one.
-/

namespace RoLauncher.Game.GameProcessHandle

open Tables

/-- What `sole_running_pid_for_server` and `sole_running_identity` look up. -/
def soleRunning (game : GameProcessHandle) : Except String (ClientMetadata × ProcessIdentity) :=
  match game.clients.entries with
  | [] => .error "No hay ningún cliente en ejecución"
  | [⟨_, .running metadata identity _ _ _ _ false⟩] => .ok (metadata, identity)
  | [⟨_, .running _ _ _ _ _ _ true⟩] => .error "El cliente se está cerrando"
  | [⟨_, .launching ..⟩] => .error "El cliente todavía se está iniciando"
  | _ =>
    .error "Las herramientas sólo están disponibles cuando hay exactamente un cliente abierto"

def soleRunningPidForServer (game : GameProcessHandle) (serverId : Option String) :
    Except String UInt32 := do
  let (metadata, identity) ← game.soleRunning
  if serverId.any (· != metadata.serverId) then
    .error s!"El cliente activo pertenece a {metadata.serverName}; selecciona ese servidor para usar herramientas"
  else .ok identity.pid

def soleRunningPid (game : GameProcessHandle) : Except String UInt32 := game.soleRunningPidForServer none

def soleRunningPidFor (game : GameProcessHandle) (serverId : String) : Except String UInt32 :=
  game.soleRunningPidForServer (some serverId)

def soleRunningIdentity (game : GameProcessHandle) : Except String ProcessIdentity := do
  let (_, identity) ← game.soleRunning
  .ok identity

def activeCount (game : GameProcessHandle) : Nat := game.clients.entries.length

variable {game game' : GameProcessHandle} {metadata : ClientMetadata} {reservation : LaunchReservation}

/-- The registry holds one client, with this metadata, and it runs. -/
def OnlyRunning (game : GameProcessHandle) (metadata : ClientMetadata) : Prop :=
  ∃ generation client, game.clients.entries = [⟨generation, client⟩] ∧ client.isLaunching = false ∧
    client.metadata = metadata

theorem soleRunning_eq_ok {identity : ProcessIdentity} (found : game.soleRunning = .ok (metadata, identity)) :
    game.OnlyRunning metadata := by
  rw [soleRunning] at found
  split at found
  next => cases found
  next entries =>
    cases found
    exact ⟨_, _, entries, rfl, rfl⟩
  next => cases found
  next => cases found
  next => cases found

theorem soleRunningPidForServer_eq_ok {serverId : Option String} {pid : UInt32}
    (found : game.soleRunningPidForServer serverId = .ok pid) :
    ∃ metadata, game.OnlyRunning metadata ∧ ∀ expected, serverId = some expected → metadata.serverId = expected := by
  rw [soleRunningPidForServer] at found
  cases sole : game.soleRunning with
  | error e =>
    rw [sole] at found
    cases found
  | ok client =>
    obtain ⟨metadata, identity⟩ := client
    refine ⟨metadata, soleRunning_eq_ok sole, fun expected same => ?_⟩
    subst same
    rw [sole] at found
    by_contra differs
    have refused : (some expected).any (· != metadata.serverId) = true :=
      bne_iff_ne.mpr (Ne.symm differs)
    simp only [bind, Except.bind] at found
    rw [if_pos refused] at found
    cases found

theorem OnlyRunning.length (only : game.OnlyRunning metadata) : game.clients.entries.length = 1 := by
  obtain ⟨_, _, entries, _⟩ := only
  rw [entries, List.length_singleton]

theorem OnlyRunning.activeCount (only : game.OnlyRunning metadata) : game.activeCount = 1 := only.length

/-- No new client, and an only client that runs is still the only one. -/
structure Later (game game' : GameProcessHandle) : Prop where
  none : game.clients.entries = [] → game'.clients.entries = []
  only : ∀ metadata, game.OnlyRunning metadata → game'.OnlyRunning metadata

theorem Later.refl (game : GameProcessHandle) : Later game game := ⟨id, fun _ => id⟩

theorem Later.trans {game'' : GameProcessHandle} (first : Later game game') (second : Later game' game'') :
    Later game game'' :=
  ⟨fun none => second.none (first.none none), fun _ only => second.only _ (first.only _ only)⟩

theorem Later.of_clients (same : game'.clients = game.clients) : Later game game' := by
  constructor
  · intro none
    rw [same, none]
  · rintro metadata ⟨generation, client, entries, running, which⟩
    exact ⟨generation, client, by rw [same, entries], running, which⟩

/-- The client found by its key, when it is the only one. -/
theorem eq_of_lookup {generation generation' : Nat} {client client' : ProcessState}
    (entries : game.clients.entries = [⟨generation, client⟩])
    (found : game.clients.lookup generation' = some client') : generation' = generation ∧ client' = client := by
  have mem := AList.mem_lookup_iff.mp found
  rw [entries, List.mem_singleton] at mem
  cases mem
  exact ⟨rfl, rfl⟩

private theorem kerase_self (generation : Nat) (client : ProcessState) :
    ([⟨generation, client⟩] : List ((_ : Nat) × ProcessState)).kerase generation = [] :=
  List.kerase_cons_eq (show generation = (⟨generation, client⟩ : (_ : Nat) × ProcessState).1 from rfl)

theorem lookup_of_entries_nil (none : game.clients.entries = []) (generation : Nat) :
    game.clients.lookup generation = .none :=
  Table.entries_eq_nil_iff.mp none generation

/-- A client is changed, and goes on running if it ran. -/
theorem later_put {generation : Nat} {client client' : ProcessState}
    (found : game.clients.lookup generation = some client) (metadata : client'.metadata = client.metadata)
    (running : client.isLaunching = false → client'.isLaunching = false) :
    Later game (game.put generation client') := by
  constructor
  · intro none
    rw [lookup_of_entries_nil none] at found
    cases found
  · rintro _ ⟨only, there, entries, runs, rfl⟩
    obtain ⟨rfl, rfl⟩ := eq_of_lookup entries found
    refine ⟨generation, client', ?_, running runs, metadata⟩
    rw [put, AList.entries_insert, entries, kerase_self]

theorem later_erase_launching {generation : Nat} {client : ProcessState}
    (found : game.clients.lookup generation = some client) (launching : client.isLaunching = true) :
    Later game { game with clients := game.clients.erase generation } := by
  constructor
  · intro none
    rw [lookup_of_entries_nil none] at found
    cases found
  · rintro _ ⟨only, there, entries, runs, rfl⟩
    obtain ⟨rfl, rfl⟩ := eq_of_lookup entries found
    rw [launching] at runs
    cases runs

theorem markRunning_later (identity : ProcessIdentity) (runtime : ClientRuntimeGuard) (plan : String)
    (observation : Option String) :
    Later game (game.markRunning reservation identity runtime plan observation).2 := by
  rw [markRunning]
  split
  next => exact .refl game
  split
  next => exact .refl game
  next found => exact later_put found rfl fun _ => rfl
  next => exact .refl game
  next => exact .refl game

theorem markController_later (controller : ProcessIdentity) :
    Later game (game.markController reservation controller).2 := by
  rw [markController]
  split
  next => exact .refl game
  next found => exact later_put found rfl id
  next => exact .refl game
  next => exact .refl game

theorem cancelLaunch_later : Later game (game.cancelLaunch reservation) := by
  rw [cancelLaunch]
  split
  next found => exact later_erase_launching found rfl
  next => exact .refl game

theorem replaceRunning_later (expected replacement : ProcessIdentity) (lease : Nat) (access : MemoryAccess)
    (profile : ProfileMemory) :
    Later game (game.replaceRunning reservation expected replacement lease access profile).2 := by
  rw [replaceRunning]
  split
  next => exact .refl game
  split
  next found =>
    split
    next => exact later_put found rfl id
    next => exact .refl game
  next => exact .refl game

theorem requestStop_later (clientId : String) : Later game (game.requestStop clientId).2 := by
  rw [requestStop]
  split
  next => exact .refl game
  next generation client found =>
    refine later_put (Table.findEntry_eq_some found).1 client.stop_metadata fun running => ?_
    rw [client.stop_isLaunching, running]

theorem requestStopAll_later : Later game game.requestStopAll.2 := by
  constructor
  · intro none
    change (game.clients.entries.map _) = []
    rw [none, List.map_nil]
  · rintro _ ⟨generation, client, entries, running, rfl⟩
    refine ⟨generation, client.stop, ?_, client.stop_isLaunching.trans running, client.stop_metadata⟩
    change (game.clients.entries.map _) = _
    rw [entries]
    rfl

theorem closeAdmissionIfIdle_later : Later game game.closeAdmissionIfIdle.2 := by
  rw [closeAdmissionIfIdle]
  split
  next => exact .refl game
  split
  next => exact .refl game
  next => exact .of_clients rfl

theorem reopenAdmission_later : Later game game.reopenAdmission := .of_clients rfl

theorem beginLaunch_error {clientId serverId serverName error : String}
    (refused : (game.beginLaunch clientId serverId serverName).1 = .error error) :
    (game.beginLaunch clientId serverId serverName).2 = game := by
  rw [beginLaunch] at refused ⊢
  split
  next => rfl
  next closed =>
    rw [if_neg closed] at refused
    split
    next => rfl
    next launching =>
      rw [if_neg launching] at refused
      split
      next => rfl
      next used =>
        rw [if_neg used] at refused
        cases refused

/-- A client ends, and others are left: it was not the only one. -/
theorem finish_remaining {finished : FinishedClient} (ended : (game.finish reservation).1 = some finished)
    (left : finished.remainingClients ≠ 0) : ¬ game.OnlyRunning metadata := by
  rintro ⟨generation, client, entries, _, _⟩
  rw [finish] at ended
  split at ended
  next found =>
    cases ended
    obtain ⟨same, _⟩ := eq_of_lookup entries found
    refine left ?_
    change (game.clients.entries.kerase reservation.generation).length = 0
    rw [same, entries, kerase_self]
    rfl
  next => cases ended

theorem finish_none (none : (game.finish reservation).1 = none) : (game.finish reservation).2 = game := by
  rw [finish] at none ⊢
  split at none
  next => cases none
  next => rfl

end RoLauncher.Game.GameProcessHandle
