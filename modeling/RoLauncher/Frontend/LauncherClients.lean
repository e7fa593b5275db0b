import RoLauncher.Tables.Table
import Mathlib.Logic.Relation

/-!
# The list of running clients (`features/launcher/launcher.store.ts`)

The page keeps a list of the clients: events of the backend change it, the
launch action does so before it knows how the launch ends, and now and then the
page asks for the whole list (`refreshGameClients.ts`). Answers and events
cross each other on the way. An answer is used when no newer request has been
made and nothing has changed the list since it was asked for.

What a snapshot says besides the client's id is left open: the backend
sends whatever it likes about a client it has. The clients are those of its
registry; one whose launch the page awaits may not be running yet.

An answer that is not used is not asked for again. So the list comes to be the
backend's if some answer is used that was asked for when both listeners were
there and nothing from before was under way (`Inv.converged`).
-/

namespace RoLauncher.Frontend.Clients

open Tables Relation

/-! ## The store -/

inductive GameClientStatus
  | launching
  | running
  | stopping
  deriving DecidableEq

structure GameClientSnapshot where
  clientId : String
  status : GameClientStatus
  deriving DecidableEq

structure LauncherState where
  clients : List GameClientSnapshot
  clientsRevision : Nat
  closedClientIds : List String

namespace LauncherState

def setClients (state : LauncherState) (clients : List GameClientSnapshot) : LauncherState :=
  { state with
    clients := clients.filter fun client => client.clientId ∉ state.closedClientIds
    clientsRevision := state.clientsRevision + 1 }

def upsertClient (state : LauncherState) (client : GameClientSnapshot) : LauncherState :=
  if client.clientId ∈ state.closedClientIds then state
  else
    match state.clients.findIdx? fun candidate => candidate.clientId = client.clientId with
    | none =>
      { state with
        clients := state.clients ++ [client]
        clientsRevision := state.clientsRevision + 1 }
    | some index =>
      { state with
        clients := state.clients.set index client
        clientsRevision := state.clientsRevision + 1 }

def removeClient (state : LauncherState) (clientId : String) : LauncherState :=
  { clients := state.clients.filter fun client => client.clientId ≠ clientId
    clientsRevision := state.clientsRevision + 1
    closedClientIds :=
      if clientId ∈ state.closedClientIds then state.closedClientIds
      else state.closedClientIds ++ [clientId] }

def setClientStatus (state : LauncherState) (clientId : String) (status : GameClientStatus) :
    LauncherState :=
  { state with
    clientsRevision := state.clientsRevision + 1
    clients := state.clients.map fun client =>
      if client.clientId = clientId then { client with status } else client }

/-- The clients that are shown. -/
def shown (state : LauncherState) : List String := state.clients.map GameClientSnapshot.clientId

variable {state : LauncherState} {client : GameClientSnapshot} {id clientId : String}

@[grind =] theorem mem_shown_setClients {clients : List GameClientSnapshot} :
    id ∈ (state.setClients clients).shown ↔
      id ∈ clients.map GameClientSnapshot.clientId ∧ id ∉ state.closedClientIds := by
  simp only [shown, setClients, List.mem_map, List.mem_filter, decide_eq_true_eq]
  constructor
  · rintro ⟨client, ⟨mem, open'⟩, rfl⟩
    exact ⟨⟨client, mem, rfl⟩, open'⟩
  · rintro ⟨⟨client, mem, rfl⟩, open'⟩
    exact ⟨client, ⟨mem, open'⟩, rfl⟩

theorem shown_upsertClient (open' : client.clientId ∉ state.closedClientIds) :
    (state.upsertClient client).shown =
      if client.clientId ∈ state.shown then state.shown else state.shown ++ [client.clientId] := by
  rw [upsertClient, if_neg open']
  split
  next missing =>
    have new : client.clientId ∉ state.shown := by
      intro mem
      obtain ⟨candidate, mem, same⟩ := List.mem_map.mp mem
      have := List.findIdx?_eq_none_iff.mp missing candidate mem
      simp [same] at this
    rw [if_neg new]
    exact List.map_append ..
  next index found =>
    obtain ⟨bound, same, -⟩ := List.findIdx?_eq_some_iff_getElem.mp found
    have same := of_decide_eq_true same
    have bound' : index < state.shown.length := by rwa [shown, List.length_map]
    have here : state.shown[index] = client.clientId := by rw [← same]; exact List.getElem_map _
    rw [if_pos (here ▸ List.getElem_mem bound')]
    show (state.clients.set index client).map GameClientSnapshot.clientId = _
    rw [List.map_set, ← here]
    exact List.set_getElem_self bound'

@[grind =] theorem mem_shown_removeClient :
    id ∈ (state.removeClient clientId).shown ↔ id ∈ state.shown ∧ id ≠ clientId := by
  simp only [shown, removeClient, List.mem_map, List.mem_filter, decide_eq_true_eq]
  constructor
  · rintro ⟨client, ⟨mem, other⟩, rfl⟩
    exact ⟨⟨client, mem, rfl⟩, other⟩
  · rintro ⟨⟨client, mem, rfl⟩, other⟩
    exact ⟨client, ⟨mem, other⟩, rfl⟩

@[grind =] theorem mem_closed_removeClient :
    id ∈ (state.removeClient clientId).closedClientIds ↔ id ∈ state.closedClientIds ∨ id = clientId := by
  unfold removeClient
  dsimp only
  split
  next there =>
    refine ⟨.inl, ?_⟩
    rintro (old | rfl)
    · exact old
    · exact there
  next => rw [List.mem_append, List.mem_singleton]

@[grind =] theorem shown_setClientStatus (status : GameClientStatus) :
    (state.setClientStatus clientId status).shown = state.shown := by
  rw [shown, setClientStatus, List.map_map]
  refine List.map_congr_left fun client _ => ?_
  rw [Function.comp]
  split
  next => rfl
  next => rfl

@[grind .] theorem nodup_setClients {clients : List GameClientSnapshot}
    (distinct : (clients.map GameClientSnapshot.clientId).Nodup) :
    (state.setClients clients).shown.Nodup :=
  distinct.sublist (List.filter_sublist.map _)

@[grind .] theorem nodup_upsertClient (distinct : state.shown.Nodup) : (state.upsertClient client).shown.Nodup := by
  by_cases closed : client.clientId ∈ state.closedClientIds
  · rwa [upsertClient, if_pos closed]
  · rw [shown_upsertClient closed]
    split
    next => exact distinct
    next new => exact List.nodup_append.mpr ⟨distinct, List.nodup_singleton _, fun a mem b mem' =>
        fun same => new (List.mem_singleton.mp mem' ▸ same ▸ mem)⟩

@[grind .] theorem nodup_removeClient (distinct : state.shown.Nodup) : (state.removeClient clientId).shown.Nodup :=
  distinct.sublist (List.filter_sublist.map _)

@[grind =] theorem upsertClient_closed : (state.upsertClient client).closedClientIds = state.closedClientIds := by
  unfold upsertClient
  split
  next => rfl
  next =>
    split
    next => rfl
    next => rfl

@[grind =] theorem setClients_closed {clients : List GameClientSnapshot} :
    (state.setClients clients).closedClientIds = state.closedClientIds := rfl

@[grind =] theorem setClientStatus_closed {status : GameClientStatus} :
    (state.setClientStatus clientId status).closedClientIds = state.closedClientIds := rfl

@[grind =] theorem setClients_revision {clients : List GameClientSnapshot} :
    (state.setClients clients).clientsRevision = state.clientsRevision + 1 := rfl

@[grind =] theorem setClientStatus_revision {status : GameClientStatus} :
    (state.setClientStatus clientId status).clientsRevision = state.clientsRevision + 1 := rfl

@[grind =] theorem removeClient_revision :
    (state.removeClient clientId).clientsRevision = state.clientsRevision + 1 := rfl

@[grind =] theorem mem_shown_upsertClient :
    id ∈ (state.upsertClient client).shown ↔
      id ∈ state.shown ∨ id = client.clientId ∧ id ∉ state.closedClientIds := by
  by_cases closed : client.clientId ∈ state.closedClientIds
  · rw [upsertClient, if_pos closed]
    constructor
    · exact .inl
    · rintro (mem | ⟨rfl, open'⟩)
      · exact mem
      · exact absurd closed open'
  · rw [shown_upsertClient closed]
    split
    next there =>
      constructor
      · exact .inl
      · rintro (mem | ⟨rfl, -⟩)
        · exact mem
        · exact there
    next =>
      rw [List.mem_append, List.mem_singleton]
      constructor
      · rintro (mem | rfl)
        · exact .inl mem
        · exact .inr ⟨rfl, closed⟩
      · rintro (mem | ⟨same, -⟩)
        · exact .inl mem
        · exact .inr same

/-- Only a client that was removed leaves the list as it is. -/
@[grind =] theorem upsertClient_revision :
    (state.upsertClient client).clientsRevision =
      state.clientsRevision + if client.clientId ∈ state.closedClientIds then 0 else 1 := by
  unfold upsertClient
  split
  next => rfl
  next =>
    split
    next => rfl
    next => rfl

end LauncherState

/-! ## The page, the backend, and what is between them -/

/-- An event of the backend. -/
inductive Notice
  | client (client : GameClientSnapshot)
  | exit (clientId : String)

/-- An event on its way, and whether both listeners were there when it was sent. -/
structure Event where
  notice : Notice
  heard : Bool

/-- A list request: the revision it was made at, how many events had been sent by then, whether
nothing from before was under way, and its answer with the events that had been sent by then. -/
structure Request where
  revision : Nat
  sent : Nat
  settled : Bool
  answer : Option (List GameClientSnapshot × Nat)

inductive Stage
  | sent
  | admitted
  | running (client : GameClientSnapshot)
  | failed

/-- A launch the page waits for, and whether both listeners were there when it began. -/
structure Launch where
  stage : Stage
  heard : Bool

/-- What has changed the list: an event, by its number, or an answer, by how many had been sent. -/
inductive Applied
  | event (number : Nat)
  | answer (sent : Nat)

/-- The store and the counter of requests, the listeners, the clients of the backend, those that
have ended and are not reported yet, and what is under way. The last four say what has happened:
what has changed the list, which exits have arrived, and whether a settled request has been answered
and its answer used. -/
structure World where
  state : LauncherState
  refreshGeneration : Nat
  clientsReady : Bool
  exitsReady : Bool
  registry : List String
  closing : List String
  used : List String
  emitted : Nat
  events : Table Nat Event
  requests : Table Nat Request
  launches : Table String Launch
  history : List Applied
  exited : List String
  answered : Bool
  synced : Bool

namespace World

/-- A page that is loaded while these clients run. -/
def new (registry : List String) : World where
  state := ⟨[], 0, []⟩
  refreshGeneration := 0
  clientsReady := false
  exitsReady := false
  registry
  closing := []
  used := registry
  emitted := 0
  events := ∅
  requests := ∅
  launches := ∅
  history := []
  exited := []
  answered := false
  synced := false

@[grind =] def ready (w : World) : Bool := w.clientsReady && w.exitsReady

/-- Both listeners are there, and all events and launches under way are from then on. -/
def settled (w : World) : Bool :=
  w.ready && !(w.events.any fun _ event => !event.heard) && !(w.launches.any fun _ launch => !launch.heard)

/-- The backend sends an event, which is lost when nothing listens. -/
@[grind =] def emit (w : World) (notice : Notice) (listener : Bool) : World :=
  { w with
    emitted := w.emitted + 1
    events := if listener then w.events.insert w.emitted ⟨notice, w.ready⟩ else w.events }

/-- The backend is launching the client. -/
@[grind =] def Starting (w : World) (clientId : String) : Prop :=
  ∃ launch, w.launches.lookup clientId = some launch ∧ (launch.stage = .sent ∨ launch.stage = .admitted)

@[grind =] def request (w : World) : World :=
  { w with
    refreshGeneration := w.refreshGeneration + 1
    requests := w.requests.insert (w.refreshGeneration + 1)
      ⟨w.state.clientsRevision, w.emitted, w.settled, none⟩ }

@[grind =] def use (w : World) (generation : Nat) (clients : List GameClientSnapshot) (sent : Nat)
    (settled : Bool) : World :=
  { w with
    state := w.state.setClients clients
    requests := w.requests.erase generation
    history := w.history ++ [.answer sent]
    answered := w.answered || settled
    synced := w.synced || settled }

end World

/-- What can happen, in any order. -/
inductive Step : World → World → Prop
  | clientsReady {w : World} : Step w { w with clientsReady := true }
  | exitsReady {w : World} : Step w { w with exitsReady := true }
  /-- `handleLaunch`, with a new id. -/
  | launch {w : World} (clientId : String) (new : clientId ∉ w.used) :
      Step w { w with
        state := w.state.upsertClient ⟨clientId, .launching⟩
        used := clientId :: w.used
        launches := w.launches.insert clientId ⟨.sent, w.ready⟩ }
  | launched {w : World} {clientId : String} {client : GameClientSnapshot} {heard : Bool}
      (here : w.launches.lookup clientId = some ⟨.running client, heard⟩) :
      Step w { w with
        state := w.state.upsertClient client
        launches := w.launches.erase clientId }
  | launchFailed {w : World} {clientId : String} {heard : Bool}
      (here : w.launches.lookup clientId = some ⟨.failed, heard⟩) :
      Step w { w with
        state := w.state.removeClient clientId
        launches := w.launches.erase clientId }
  | status {w : World} (clientId : String) (status : GameClientStatus) :
      Step w { w with state := w.state.setClientStatus clientId status }
  | request {w : World} : Step w w.request
  | used {w : World} {generation sent sent' : Nat} {clients : List GameClientSnapshot} {settled : Bool}
      (here : w.requests.lookup generation =
        some ⟨w.state.clientsRevision, sent, settled, some (clients, sent')⟩)
      (newest : generation = w.refreshGeneration) : Step w (w.use generation clients sent' settled)
  | discarded {w : World} {generation revision sent sent' : Nat} {clients : List GameClientSnapshot}
      {settled : Bool}
      (here : w.requests.lookup generation = some ⟨revision, sent, settled, some (clients, sent')⟩)
      (old : ¬ (generation = w.refreshGeneration ∧ revision = w.state.clientsRevision)) :
      Step w { w with
        requests := w.requests.erase generation
        answered := w.answered || settled }
  | rejected {w : World} (generation : Nat) : Step w { w with requests := w.requests.erase generation }
  | client {w : World} {number : Nat} {client : GameClientSnapshot} {heard : Bool}
      (here : w.events.lookup number = some ⟨.client client, heard⟩) :
      Step w { w with
        state := w.state.upsertClient client
        events := w.events.erase number
        history :=
          if client.clientId ∈ w.state.closedClientIds then w.history
          else w.history ++ [.event number] }
  | exit {w : World} {number : Nat} {clientId : String} {heard : Bool}
      (here : w.events.lookup number = some ⟨.exit clientId, heard⟩) :
      Step w { w with
        state := w.state.removeClient clientId
        events := w.events.erase number
        history := w.history ++ [.event number]
        exited := clientId :: w.exited }
  | admitted {w : World} {clientId : String} {heard : Bool}
      (here : w.launches.lookup clientId = some ⟨.sent, heard⟩) (new : clientId ∉ w.registry) :
      Step w { w with
        registry := w.registry ++ [clientId]
        launches := w.launches.insert clientId ⟨.admitted, heard⟩ }
  | refused {w : World} {clientId : String} {heard : Bool}
      (here : w.launches.lookup clientId = some ⟨.sent, heard⟩) :
      Step w { w with launches := w.launches.insert clientId ⟨.failed, heard⟩ }
  | started {w : World} {client : GameClientSnapshot} {heard : Bool}
      (here : w.launches.lookup client.clientId = some ⟨.admitted, heard⟩)
      (listed : client.clientId ∈ w.registry) :
      Step w { w with launches := w.launches.insert client.clientId ⟨.running client, heard⟩ }
  | failed {w : World} {clientId : String} {heard : Bool}
      (here : w.launches.lookup clientId = some ⟨.admitted, heard⟩) :
      Step w { w with
        registry := w.registry.filter fun id => id ≠ clientId
        launches := w.launches.insert clientId ⟨.failed, heard⟩ }
  /-- A running client goes on as another process. -/
  | handoff {w : World} (client : GameClientSnapshot) (listed : client.clientId ∈ w.registry)
      (runs : ¬ w.Starting client.clientId) : Step w (w.emit (.client client) w.clientsReady)
  | finished {w : World} {clientId : String} (listed : clientId ∈ w.registry)
      (runs : ¬ w.Starting clientId) :
      Step w { w with
        registry := w.registry.filter fun id => id ≠ clientId
        closing := clientId :: w.closing }
  | closed {w : World} {clientId : String} (here : clientId ∈ w.closing) :
      Step w ({ w with closing := w.closing.erase clientId }.emit (.exit clientId) w.exitsReady)
  | listed {w : World} {generation revision sent : Nat} {settled : Bool}
      {clients : List GameClientSnapshot}
      (here : w.requests.lookup generation = some ⟨revision, sent, settled, none⟩)
      (all : clients.map GameClientSnapshot.clientId = w.registry) :
      Step w { w with
        requests := w.requests.insert generation ⟨revision, sent, settled, some (clients, w.emitted)⟩ }

abbrev Steps : World → World → Prop := ReflTransGen Step

/-- Nothing is under way. -/
structure World.Quiet (w : World) : Prop where
  events : w.events = ∅
  requests : w.requests = ∅
  launches : w.launches = ∅
  closing : w.closing = []

/-! ## What a step can do -/

namespace World

/-- The client is gone, or will be as soon as everything under way has arrived. -/
@[grind =] def Gone (w : World) (clientId : String) : Prop :=
  clientId ∈ w.state.closedClientIds ∨ clientId ∈ w.closing ∨
    (w.launches.lookup clientId).map Launch.stage = some .failed ∨
    ∃ number heard, w.events.lookup number = some ⟨.exit clientId, heard⟩

/-- The page waits for its launch. -/
@[grind =] def Pending (w : World) (clientId : String) : Prop := (w.launches.lookup clientId).isSome

end World

/-- What numbers and ids are good for. -/
structure Sane (w : World) : Prop where
  numbered : ∀ number event, w.events.lookup number = some event → number < w.emitted
  sent : ∀ clientId heard, w.launches.lookup clientId = some ⟨.sent, heard⟩ → clientId ∉ w.registry
  running : ∀ clientId client heard, w.launches.lookup clientId = some ⟨.running client, heard⟩ →
    client.clientId = clientId
  known : ∀ clientId, clientId ∈ w.registry ∨ w.Gone clientId ∨ w.Pending clientId → clientId ∈ w.used
  gone : ∀ clientId, w.Gone clientId → clientId ∉ w.registry ∧ ¬ w.Starting clientId

/-- The backend has the client, or the page will be told that it is gone. -/
@[grind =] def World.Accounted (w : World) (clientId : String) : Prop := clientId ∈ w.registry ∨ w.Gone clientId

section Steps

variable {w w' : World} {clientId : String}

theorem Sane.step (sane : Sane w) (step : Step w w') : Sane w' := by
  obtain ⟨numbered, sent, running, known, gone⟩ := sane
  constructor
  · cases step <;> first | exact numbered | grind
  · cases step <;> first | exact sent | grind
  · cases step <;> first | exact running | grind
  · cases step <;> first | exact known | grind
  · cases step <;> first | exact gone | grind

theorem clientsReady_step (step : Step w w') (ready : w.clientsReady = true) : w'.clientsReady = true := by
  cases step <;> first | exact ready | rfl

theorem exitsReady_step (step : Step w w') (ready : w.exitsReady = true) : w'.exitsReady = true := by
  cases step <;> first | exact ready | rfl

theorem revision_step (step : Step w w') : w.state.clientsRevision ≤ w'.state.clientsRevision := by
  cases step <;> first | exact Nat.le_refl _ | exact Nat.le_succ _ | grind

theorem closed_step (step : Step w w') (here : clientId ∈ w.state.closedClientIds) :
    clientId ∈ w'.state.closedClientIds := by
  cases step <;> first | exact here | grind

/-- The exit of a client arrives. -/
theorem exit_step (sane : Sane w) (step : Step w w') {number : Nat} {heard : Bool}
    (here : w.events.lookup number = some ⟨.exit clientId, heard⟩) :
    w'.events.lookup number = some ⟨.exit clientId, heard⟩ ∨ clientId ∈ w'.state.closedClientIds := by
  have := sane.numbered number
  cases step <;> first | exact .inl here | grind

theorem failed_step (sane : Sane w) (step : Step w w')
    (here : (w.launches.lookup clientId).map Launch.stage = some .failed) :
    (w'.launches.lookup clientId).map Launch.stage = some .failed ∨
      clientId ∈ w'.state.closedClientIds := by
  have := sane.known clientId
  cases step <;> first | exact .inl here | grind

/-- The exit of a client is sent, and heard when it is listened to. -/
theorem closing_step (step : Step w w') (exits : w.exitsReady = true) (here : clientId ∈ w.closing) :
    clientId ∈ w'.closing ∨ ∃ heard, w'.events.lookup w.emitted = some ⟨.exit clientId, heard⟩ := by
  cases step <;> first | exact .inl here | grind

/-- A client that is gone stays so, when exits are listened to. -/
theorem gone_step (sane : Sane w) (step : Step w w') (exits : w.exitsReady = true)
    (here : w.Gone clientId) : w'.Gone clientId := by
  rcases here with closed | closing | failed | ⟨number, heard, here⟩
  · exact .inl (closed_step step closed)
  · rcases closing_step step exits closing with closing | ⟨heard, here⟩
    · exact .inr (.inl closing)
    · exact .inr (.inr (.inr ⟨_, heard, here⟩))
  · rcases failed_step sane step failed with failed | closed
    · exact .inr (.inr (.inl failed))
    · exact .inl closed
  · rcases exit_step sane step here with here | closed
    · exact .inr (.inr (.inr ⟨_, heard, here⟩))
    · exact .inl closed

/-- A client that is no longer listed is gone. -/
theorem unlisted_step (step : Step w w') (here : clientId ∈ w.registry) :
    clientId ∈ w'.registry ∨ w'.Gone clientId := by
  cases step <;> first | exact .inl here | grind

theorem accounted_step (sane : Sane w) (step : Step w w') (exits : w.exitsReady = true)
    (here : w.Accounted clientId) : w'.Accounted clientId := by
  rcases here with listed | gone
  · exact unlisted_step step listed
  · exact .inr (gone_step sane step exits gone)

theorem listed_step (step : Step w w') (here : clientId ∈ w'.registry) :
    clientId ∈ w.registry ∨ w'.Pending clientId := by
  cases step <;> first | exact .inl here | grind

/-- When the page no longer waits for a launch, the client is shown or was removed. -/
theorem pending_step (sane : Sane w) (step : Step w w') (here : w.Pending clientId) :
    w'.Pending clientId ∨ clientId ∈ w'.state.closedClientIds ∨
      w.state.clientsRevision < w'.state.clientsRevision ∧ clientId ∈ w'.state.shown ∧
        ∃ heard client, w.launches.lookup clientId = some ⟨.running client, heard⟩ := by
  have := sane.running clientId
  cases step <;> first | exact .inl here | grind

/-- An event is on its way since before, or is sent now. -/
theorem event_step (step : Step w w') {number : Nat} {event : Event}
    (here : w'.events.lookup number = some event) : w.events.lookup number = some event ∨
      event.heard = w.ready ∧ ∀ client, event.notice = .client client → client.clientId ∈ w'.registry := by
  cases step <;> first | exact .inl here | grind

/-- A launch is waited for since before, or begins now. -/
theorem launch_step (step : Step w w') {launch : Launch}
    (here : w'.launches.lookup clientId = some launch) :
    (∃ before, w.launches.lookup clientId = some before ∧ launch.heard = before.heard ∧
      ∀ client, launch.stage = .running client →
        before.stage = .running client ∨ clientId ∈ w'.registry) ∨
      launch.heard = w.ready ∧ launch.stage = .sent := by
  cases step <;> first | exact .inl ⟨_, here, rfl, fun _ => .inl⟩ | grind

/-- A request has been made before, is made now, or is answered now. -/
theorem request_step (step : Step w w') {generation : Nat} {request : Request}
    (here : w'.requests.lookup generation = some request) :
    w.requests.lookup generation = some request ∨
      (generation = w'.refreshGeneration ∧ w'.refreshGeneration = w.refreshGeneration + 1 ∧
        request = ⟨w.state.clientsRevision, w.emitted, w.settled, none⟩) ∨
      ∃ revision sent settled clients, w.requests.lookup generation = some ⟨revision, sent, settled, none⟩ ∧
        request = ⟨revision, sent, settled, some (clients, w.emitted)⟩ ∧
        clients.map GameClientSnapshot.clientId = w'.registry ∧ w'.registry = w.registry := by
  cases step <;> first | exact .inl here | grind

/-- An answer is used, or what is shown changes client by client. -/
theorem shown_step (sane : Sane w) (step : Step w w') :
    (∃ generation sent sent' clients settled, w.requests.lookup generation =
        some ⟨w.state.clientsRevision, sent, settled, some (clients, sent')⟩ ∧
      generation = w.refreshGeneration ∧ w' = w.use generation clients sent' settled) ∨
    w'.synced = w.synced ∧
      (∀ clientId ∈ w.state.shown, clientId ∈ w'.state.shown ∨ clientId ∈ w'.state.closedClientIds) ∧
      ∀ clientId ∈ w'.state.shown, clientId ∈ w.state.shown ∨ w'.Pending clientId ∨
        (∃ number heard client, w.events.lookup number = some ⟨.client client, heard⟩ ∧
          client.clientId = clientId) ∨
        ∃ heard client, w.launches.lookup clientId = some ⟨.running client, heard⟩ := by
  have := sane.running
  cases step <;> first | exact .inr ⟨rfl, fun _ => .inl, fun _ => .inl⟩ | grind

theorem generation_step (step : Step w w') : w.refreshGeneration ≤ w'.refreshGeneration := by
  cases step <;> first | exact Nat.le_refl _ | exact Nat.le_succ _

end Steps

/-! ## What every run keeps -/

/-- Both listeners were there for everything that is under way. -/
structure AllHeard (w : World) : Prop where
  events : ∀ number event, w.events.lookup number = some event → event.heard = true
  launches : ∀ clientId launch, w.launches.lookup clientId = some launch → launch.heard = true

/-- These ids are the backend's clients, up to what the page has still to be told. -/
structure Covers (w : World) (ids : List String) : Prop where
  accounted : ∀ id ∈ ids, w.Accounted id ∨ w.Pending id
  listed : ∀ id ∈ w.registry, id ∈ ids ∨ w.Pending id

structure Inv (w : World) : Prop extends Sane w where
  hidden : ∀ id ∈ w.state.closedClientIds, id ∉ w.state.shown
  exits : ∀ id ∈ w.exited, id ∈ w.state.closedClientIds
  events : ∀ number event, w.events.lookup number = some event → event.heard = true →
    w.ready = true ∧ ∀ client, event.notice = .client client → w.Accounted client.clientId
  launches : ∀ clientId launch, w.launches.lookup clientId = some launch → launch.heard = true →
    w.ready = true ∧ ∀ client, launch.stage = .running client → w.Accounted clientId
  requests : ∀ generation request, w.requests.lookup generation = some request →
    generation ≤ w.refreshGeneration ∧ request.revision ≤ w.state.clientsRevision ∧
      (request.settled = true → w.ready = true ∧ AllHeard w ∧ ∀ clients sent,
        request.answer = some (clients, sent) → request.revision = w.state.clientsRevision →
          Covers w (clients.map GameClientSnapshot.clientId))
  synchronized : w.synced = true → w.ready = true ∧ AllHeard w ∧ Covers w w.state.shown ∧
    ∀ request, w.requests.lookup w.refreshGeneration = some request → request.settled = true

section Keeping

variable {w w' : World}

theorem ready_step (step : Step w w') (ready : w.ready = true) : w'.ready = true := by
  rw [World.ready, Bool.and_eq_true] at ready ⊢
  exact ⟨clientsReady_step step ready.1, exitsReady_step step ready.2⟩

theorem exits_of_ready (ready : w.ready = true) : w.exitsReady = true := by
  rw [World.ready, Bool.and_eq_true] at ready
  exact ready.2

theorem allHeard_of_settled (settled : w.settled = true) : w.ready = true ∧ AllHeard w := by
  rw [World.settled, Bool.and_eq_true, Bool.and_eq_true, Bool.not_eq_true', Bool.not_eq_true',
    Table.any_eq_false, Table.any_eq_false] at settled
  refine ⟨settled.1.1, fun number event here => ?_, fun clientId launch here => ?_⟩
  · simpa using settled.1.2 number event here
  · simpa using settled.2 clientId launch here

theorem settled_of_allHeard (ready : w.ready = true) (heard : AllHeard w) : w.settled = true := by
  rw [World.settled, Bool.and_eq_true, Bool.and_eq_true, Bool.not_eq_true', Bool.not_eq_true',
    Table.any_eq_false, Table.any_eq_false]
  refine ⟨⟨ready, fun number event here => ?_⟩, fun clientId launch here => ?_⟩
  · simpa using heard.events number event here
  · simpa using heard.launches clientId launch here

theorem AllHeard.step (step : Step w w') (ready : w.ready = true) (heard : AllHeard w) : AllHeard w' where
  events number event here := by
    rcases event_step step here with before | ⟨now, -⟩
    · exact heard.events number event before
    · exact now.trans ready
  launches clientId launch here := by
    rcases launch_step step here with ⟨before, there, same, -⟩ | ⟨now, -⟩
    · exact same.trans (heard.launches clientId before there)
    · exact now.trans ready

/-- What covers the registry goes on to do so. -/
theorem Covers.step (inv : Inv w) (step : Step w w') (ready : w.ready = true) (heard : AllHeard w)
    {ids ids' : List String} (covers : Covers w ids)
    (kept : ∀ id ∈ ids, id ∈ ids' ∨ id ∈ w'.state.closedClientIds)
    (new : ∀ id ∈ ids', id ∈ ids ∨ w'.Accounted id ∨ w'.Pending id)
    (waits : ∀ id, w.Pending id → w'.Pending id ∨ id ∈ w'.state.closedClientIds ∨ id ∈ ids') :
    Covers w' ids' where
  accounted id mem := by
    have still : w.Accounted id → w'.Accounted id :=
      accounted_step inv.toSane step (exits_of_ready ready)
    rcases new id mem with mem | there
    · rcases covers.accounted id mem with accounted | pending
      · exact .inl (still accounted)
      · rcases pending_step inv.toSane step pending with pending | closed | ⟨-, -, heard', client, here⟩
        · exact .inr pending
        · exact .inl (.inr (.inl closed))
        · exact .inl (still ((inv.launches id _ here (heard.launches id _ here)).2 client rfl))
    · exact there
  listed id mem := by
    have sane' := inv.toSane.step step
    have open' : id ∉ w'.state.closedClientIds := fun closed => (sane'.gone id (.inl closed)).1 mem
    rcases listed_step step mem with listed | pending
    · rcases covers.listed id listed with there | pending
      · rcases kept id there with there | closed
        · exact .inl there
        · exact absurd closed open'
      · rcases waits id pending with pending | closed | there
        · exact .inr pending
        · exact absurd closed open'
        · exact .inl there
    · exact .inr pending

theorem Inv.events_step (inv : Inv w) (step : Step w w') {number : Nat} {event : Event}
    (here : w'.events.lookup number = some event) (heard : event.heard = true) :
    w'.ready = true ∧ ∀ client, event.notice = .client client → w'.Accounted client.clientId := by
  rcases event_step step here with before | ⟨now, listed⟩
  · obtain ⟨ready, accounted⟩ := inv.events number event before heard
    refine ⟨ready_step step ready, fun client same => ?_⟩
    exact accounted_step inv.toSane step (exits_of_ready ready) (accounted client same)
  · exact ⟨ready_step step (now.symm.trans heard), fun client same => .inl (listed client same)⟩

theorem Inv.launches_step (inv : Inv w) (step : Step w w') {clientId : String} {launch : Launch}
    (here : w'.launches.lookup clientId = some launch) (heard : launch.heard = true) :
    w'.ready = true ∧ ∀ client, launch.stage = .running client → w'.Accounted clientId := by
  rcases launch_step step here with ⟨before, there, same, running⟩ | ⟨now, sent⟩
  · obtain ⟨ready, accounted⟩ := inv.launches clientId before there (same.symm.trans heard)
    refine ⟨ready_step step ready, fun client runs => ?_⟩
    rcases running client runs with before | listed
    · exact accounted_step inv.toSane step (exits_of_ready ready) (accounted client before)
    · exact .inl listed
  · refine ⟨ready_step step (now.symm.trans heard), fun client runs => ?_⟩
    rw [sent] at runs
    cases runs

theorem Inv.requests_step (inv : Inv w) (step : Step w w') {generation : Nat} {request : Request}
    (here : w'.requests.lookup generation = some request) :
    generation ≤ w'.refreshGeneration ∧ request.revision ≤ w'.state.clientsRevision ∧
      (request.settled = true → w'.ready = true ∧ AllHeard w' ∧ ∀ clients sent,
        request.answer = some (clients, sent) → request.revision = w'.state.clientsRevision →
          Covers w' (clients.map GameClientSnapshot.clientId)) := by
  have grows := revision_step step
  have counts := generation_step step
  rcases request_step step here with before | ⟨same, next, rfl⟩ |
    ⟨revision, sent, settled, clients, before, rfl, all, -⟩
  · obtain ⟨old, le, covers⟩ := inv.requests generation request before
    refine ⟨Nat.le_trans old counts, Nat.le_trans le grows, fun settled => ?_⟩
    obtain ⟨ready, heard, covers⟩ := covers settled
    refine ⟨ready_step step ready, heard.step step ready, fun clients sent answer now => ?_⟩
    have unchanged : w.state.clientsRevision = w'.state.clientsRevision :=
      Nat.le_antisymm grows (now ▸ le)
    refine (covers clients sent answer (now.trans unchanged.symm)).step inv step ready heard
      (fun id mem => .inl mem) (fun id mem => .inl mem) fun id pending => ?_
    rcases pending_step inv.toSane step pending with pending | closed | ⟨more, -⟩
    · exact .inl pending
    · exact .inr (.inl closed)
    · exact absurd unchanged (Nat.ne_of_lt more)
  · refine ⟨Nat.le_of_eq same, grows, fun settled => ?_⟩
    obtain ⟨ready, heard⟩ := allHeard_of_settled settled
    refine ⟨ready_step step ready, heard.step step ready, fun clients sent never => by cases never⟩
  · obtain ⟨old, le, covers⟩ := inv.requests generation _ before
    refine ⟨Nat.le_trans old counts, Nat.le_trans le grows, fun settled => ?_⟩
    obtain ⟨ready, heard, -⟩ := covers settled
    refine ⟨ready_step step ready, heard.step step ready, fun clients' sent' same now => ?_⟩
    cases same
    rw [all]
    exact ⟨fun id listed => .inl (.inl listed), fun id listed => .inl listed⟩

theorem Inv.synchronized_step (inv : Inv w) (step : Step w w') (sync : w'.synced = true) :
    w'.ready = true ∧ AllHeard w' ∧ Covers w' w'.state.shown ∧
      ∀ request, w'.requests.lookup w'.refreshGeneration = some request → request.settled = true := by
  have sane' := inv.toSane.step step
  rcases shown_step inv.toSane step with
    ⟨generation, sent, sent', clients, settled, here, newest, rfl⟩ | ⟨same, kept, new⟩
  · obtain ⟨-, -, covers⟩ := inv.requests generation _ here
    have late : settled = true := by
      rcases Bool.or_eq_true_iff.mp sync with before | now
      · obtain ⟨-, -, -, settled⟩ := inv.synchronized before
        exact settled _ (newest ▸ here)
      · exact now
    obtain ⟨ready, heard, covers⟩ := covers late
    refine ⟨ready, heard.step step ready, ?_, fun request gone => ?_⟩
    · refine (covers clients sent' rfl rfl).step inv step ready heard (fun id mem => ?_)
        (fun id mem => .inl (LauncherState.mem_shown_setClients.mp mem).1) (fun id pending => .inl pending)
      by_cases closed : id ∈ w.state.closedClientIds
      · exact .inr closed
      · exact .inl (LauncherState.mem_shown_setClients.mpr ⟨mem, closed⟩)
    · rw [show (w.use generation clients sent' settled).requests.lookup
          (w.use generation clients sent' settled).refreshGeneration =
            (w.requests.erase generation).lookup w.refreshGeneration from rfl, newest,
        AList.lookup_erase] at gone
      cases gone
  · obtain ⟨ready, heard, covers, settled⟩ := inv.synchronized (same.symm.trans sync)
    have still (id : String) (accounted : w.Accounted id) : w'.Accounted id :=
      accounted_step inv.toSane step (exits_of_ready ready) accounted
    refine ⟨ready_step step ready, heard.step step ready, ?_, fun request here => ?_⟩
    · apply covers.step inv step ready heard kept
      · intro id mem
        rcases new id mem with old | pending | ⟨number, heard', client, here, rfl⟩ | ⟨heard', client, here⟩
        · exact .inl old
        · exact .inr (.inr pending)
        · exact .inr (.inl (still _ ((inv.events number _ here (heard.events number _ here)).2 client rfl)))
        · exact .inr (.inl (still _ ((inv.launches id _ here (heard.launches id _ here)).2 client rfl)))
      · intro id pending
        rcases pending_step inv.toSane step pending with pending | closed | ⟨-, shown, -⟩
        · exact .inl pending
        · exact .inr (.inl closed)
        · exact .inr (.inr shown)
    · rcases request_step step here with before | ⟨-, -, rfl⟩ |
        ⟨revision, sent, settled', clients, before, rfl, -⟩
      · have old := (inv.requests _ _ before).1
        have same : w'.refreshGeneration = w.refreshGeneration :=
          Nat.le_antisymm old (generation_step step)
        exact settled _ (same ▸ before)
      · exact settled_of_allHeard ready heard
      · have old := (inv.requests _ _ before).1
        have same : w'.refreshGeneration = w.refreshGeneration :=
          Nat.le_antisymm old (generation_step step)
        have := settled ⟨revision, sent, settled', none⟩ (same ▸ before)
        exact this

theorem Inv.step (inv : Inv w) (step : Step w w') : Inv w' where
  toSane := inv.toSane.step step
  hidden := by
    have hidden := inv.hidden
    cases step <;> first | exact hidden | grind
  exits := by
    have exits := inv.exits
    cases step <;> first | exact exits | grind
  events _ _ here heard := inv.events_step step here heard
  launches _ _ here heard := inv.launches_step step here heard
  requests _ _ here := inv.requests_step step here
  synchronized := inv.synchronized_step step

theorem not_gone_new (registry : List String) (clientId : String) :
    ¬ (World.new registry).Gone clientId := by
  rintro (never | never | never | ⟨number, heard, never⟩)
  · cases never
  · cases never
  · rw [World.new, AList.lookup_empty] at never
    cases never
  · rw [World.new, AList.lookup_empty] at never
    cases never

theorem Inv.new (registry : List String) : Inv (World.new registry) where
  numbered _ _ never := by
    rw [World.new, AList.lookup_empty] at never
    cases never
  sent _ _ never := by
    rw [World.new, AList.lookup_empty] at never
    cases never
  running _ _ _ never := by
    rw [World.new, AList.lookup_empty] at never
    cases never
  known clientId here := by
    rcases here with listed | gone | never
    · exact listed
    · exact absurd gone (not_gone_new registry clientId)
    · rw [World.Pending, World.new, AList.lookup_empty] at never
      cases never
  gone clientId gone := absurd gone (not_gone_new registry clientId)
  hidden _ never := by cases never
  exits _ never := by cases never
  events _ _ never := by
    rw [World.new, AList.lookup_empty] at never
    cases never
  launches _ _ never := by
    rw [World.new, AList.lookup_empty] at never
    cases never
  requests _ _ never := by
    rw [World.new, AList.lookup_empty] at never
    cases never
  synchronized never := by cases never

/-! ## Duplicates and dates -/

/-- No client is there twice. -/
structure Distinct (w : World) : Prop where
  shown : w.state.shown.Nodup
  registry : w.registry.Nodup
  answers : ∀ generation request clients sent, w.requests.lookup generation = some request →
    request.answer = some (clients, sent) → (clients.map GameClientSnapshot.clientId).Nodup

theorem Distinct.step (distinct : Distinct w) (step : Step w w') : Distinct w' := by
  obtain ⟨shown, registry, answers⟩ := distinct
  constructor
  · cases step <;> first | exact shown | grind
  · cases step <;> first | exact registry | grind
  · cases step <;> first | exact answers | grind

/-- An event that has changed the list is older than an answer that is used after it. -/
def InOrder (history : List Applied) : Prop :=
  history.Pairwise fun earlier later => ∀ number sent,
    earlier = .event number → later = .answer sent → number < sent

structure Dated (w : World) : Prop where
  past : ∀ number, .event number ∈ w.history → number < w.emitted
  sent : ∀ generation request, w.requests.lookup generation = some request →
    request.sent ≤ w.emitted ∧
      ∀ clients sent, request.answer = some (clients, sent) → request.sent ≤ sent
  before : ∀ generation request, w.requests.lookup generation = some request →
    request.revision = w.state.clientsRevision →
      ∀ number, .event number ∈ w.history → number < request.sent
  ordered : InOrder w.history

@[grind =] theorem inOrder_snoc {history : List Applied} {last : Applied} :
    InOrder (history ++ [last]) ↔ InOrder history ∧ ∀ number sent,
      .event number ∈ history → last = .answer sent → number < sent := by
  rw [InOrder, List.pairwise_append, InOrder]
  constructor
  · rintro ⟨before, -, new⟩
    exact ⟨before, fun number sent mem same => new _ mem last (List.mem_singleton_self _) number sent rfl same⟩
  · rintro ⟨before, new⟩
    refine ⟨before, List.pairwise_singleton _ _, fun earlier mem later mem' number sent same same' => ?_⟩
    rw [List.mem_singleton.mp mem'] at same'
    exact new number sent (same ▸ mem) same'

theorem Dated.step (inv : Inv w) (dated : Dated w) (step : Step w w') : Dated w' := by
  obtain ⟨past, sent, before, ordered⟩ := dated
  have numbered := inv.numbered
  have revisions (generation : Nat) (request : Request)
      (here : w.requests.lookup generation = some request) :
      request.revision ≤ w.state.clientsRevision := (inv.requests generation request here).2.1
  constructor
  · cases step <;> first | exact past | grind
  · cases step <;> first | exact sent | grind
  · cases step <;> first | exact before | grind
  · cases step <;> first | exact ordered | grind

/-- **The list converges** when nothing is under way and a settled request's answer was used. -/
theorem Inv.converged (inv : Inv w) (distinct : Distinct w) (quiet : w.Quiet) (sync : w.synced = true) :
    w.state.shown.Perm w.registry := by
  obtain ⟨-, -, covers, -⟩ := inv.synchronized sync
  have awaited (id : String) : ¬ w.Pending id := by
    rw [World.Pending, quiet.launches, AList.lookup_empty]
    exact Bool.false_ne_true
  refine (List.perm_ext_iff_of_nodup distinct.shown distinct.registry).mpr fun id => ⟨fun mem => ?_, fun mem => ?_⟩
  · rcases covers.accounted id mem with (listed | gone) | pending
    · exact listed
    · rcases gone with closed | closing | failed | ⟨number, heard, here⟩
      · exact absurd mem (inv.hidden id closed)
      · rw [quiet.closing] at closing
        cases closing
      · rw [quiet.launches, AList.lookup_empty] at failed
        cases failed
      · rw [quiet.events, AList.lookup_empty] at here
        cases here
    · exact absurd pending (awaited id)
  · rcases covers.listed id mem with shown | pending
    · exact shown
    · exact absurd pending (awaited id)

/-- Every reachable world. -/
theorem kept_of_run {registry : List String} (distinct : registry.Nodup)
    (run : Steps (World.new registry) w) : Inv w ∧ Distinct w ∧ Dated w := by
  induction run with
  | refl =>
    refine ⟨Inv.new registry, ⟨List.nodup_nil, distinct, fun _ _ _ _ never => ?_⟩,
      ⟨fun _ never => ?_, fun _ _ never => ?_, fun _ _ never => ?_, List.Pairwise.nil⟩⟩
    · rw [World.new, AList.lookup_empty] at never
      cases never
    · cases never
    · rw [World.new, AList.lookup_empty] at never
      cases never
    · rw [World.new, AList.lookup_empty] at never
      cases never
  | tail _ step ih =>
    obtain ⟨inv, distinct, dated⟩ := ih
    exact ⟨inv.step step, distinct.step step, dated.step inv step⟩

end Keeping

/-- **The list of clients**, in every interleaving: a client whose exit has arrived is not shown, no
answer is used that is older than an event that changed the list before it, and when nothing is under
way and a settled request's answer was used, the list is the backend's. -/
theorem client_list_converges {registry : List String} (distinct : registry.Nodup) {w : World}
    (run : Steps (World.new registry) w) :
    (∀ id ∈ w.exited, id ∉ w.state.shown) ∧ InOrder w.history ∧
      (w.Quiet → w.synced = true → w.state.shown.Perm w.registry) := by
  obtain ⟨inv, distinct, dated⟩ := kept_of_run distinct run
  exact ⟨fun id exited => inv.hidden id (inv.exits id exited), dated.ordered, inv.converged distinct⟩

/-- It is used for a run: the page is loaded while a client runs, and asks for the list. -/
theorem client_list_converges_loaded : ∃ w, Steps (World.new ["a"]) w ∧ w.state.shown.Perm ["a"] := by
  have run : Steps (World.new ["a"]) _ :=
    .head .clientsReady (.head .exitsReady (.head .request (.head
      (@Step.listed _ 1 0 0 true [⟨"a", .running⟩] rfl rfl) (.single (@Step.used _ 1 0 0 _ true rfl rfl)))))
  exact ⟨_, run, (client_list_converges (by decide) run).2.2 ⟨rfl, rfl, rfl, rfl⟩ rfl⟩

/-- With both listeners there the page asks for the list, and uses the answer. When nothing is under
way any more, what it shows is not what runs. -/
def AnsweredInVain (registry : List String) : Prop :=
  ∃ asked w, Steps (World.new registry) asked ∧ asked.ready = true ∧ asked.history = [] ∧
    Steps asked.request w ∧ (∃ sent, w.history.head? = some (.answer sent)) ∧ w.Quiet ∧
      ¬ w.state.shown.Perm w.registry

/-- A client goes on as another process and ends before the page listens to exits. It is shown again
by the event from before. -/
theorem event_from_before : AnsweredInVain ["a"] := by
  have idle : ∀ w : World, w.launches = ∅ → ¬ w.Starting "a" := by
    rintro w none ⟨launch, here, -⟩
    rw [none] at here
    cases here
  have asked : Steps (World.new ["a"]) _ :=
    .head .clientsReady (.head (.handoff ⟨"a", .running⟩ (by decide) (idle _ rfl))
      (.head (@Step.finished _ "a" (by decide) (idle _ rfl))
        (.head (@Step.closed _ "a" (by decide)) (.single .exitsReady))))
  refine ⟨_, _, asked, rfl, rfl, .head (@Step.listed _ 1 0 2 false [] rfl rfl)
    (.head (@Step.used _ 1 2 2 [] false rfl rfl) (.single (@Step.client _ 0 ⟨"a", .running⟩ false rfl))),
    ⟨2, rfl⟩, ⟨rfl, rfl, rfl, rfl⟩, by decide⟩

/-- A launch from before begins and ends before the page listens to exits. -/
theorem launch_from_before : AnsweredInVain [] := by
  have asked : Steps (World.new []) _ :=
    .head (.launch "a" (by decide)) (.head (@Step.admitted _ "a" false rfl (by decide))
      (.head (@Step.started _ ⟨"a", .running⟩ false rfl (by decide))
        (.head (@Step.finished _ "a" (by decide) (by
          rintro ⟨launch, here, early⟩
          cases here
          rcases early with never | never
          · cases never
          · cases never)) (.head (@Step.closed _ "a" (by decide))
            (.head .clientsReady (.single .exitsReady))))))
  refine ⟨_, _, asked, rfl, rfl, .head (@Step.listed _ 1 1 1 false [] rfl rfl)
    (.head (@Step.used _ 1 1 1 [] false rfl rfl)
      (.single (@Step.launched _ "a" ⟨"a", .running⟩ false rfl))),
    ⟨1, rfl⟩, ⟨rfl, rfl, rfl, rfl⟩, by decide⟩

/-- Two clients run when the page is loaded. It asks for the list; one of them goes on as another
process before the answer arrives, which is dropped: the other is never shown. Nor does an answer
that is used make up for what is under way from before. -/
theorem answer_dropped :
    (∃ w, Steps (World.new ["a", "b"]) w ∧ w.Quiet ∧ w.answered = true ∧
      ¬ w.state.shown.Perm w.registry) ∧
    AnsweredInVain ["a"] ∧ AnsweredInVain [] := by
  have run : Steps (World.new ["a", "b"]) _ :=
    .head .clientsReady (.head .exitsReady (.head .request (.head
      (@Step.listed _ 1 0 0 true [⟨"a", .running⟩, ⟨"b", .running⟩] rfl rfl) (.head
      (.handoff ⟨"a", .running⟩ (by decide) (fun starting => by
        obtain ⟨launch, never, -⟩ := starting
        cases never)) (.head
      (@Step.client _ 0 ⟨"a", .running⟩ true rfl)
      (.single (@Step.discarded _ 1 0 0 0 _ true rfl (by decide))))))))
  exact ⟨⟨_, run, ⟨rfl, rfl, rfl, rfl⟩, rfl, by decide⟩, event_from_before, launch_from_before⟩

end RoLauncher.Frontend.Clients
