import RoLauncher.Game.Registry
import Mathlib.Logic.Relation

/-!
# What every operation keeps of the registry

`Change` says once what an operation can do to the clients. From it follow the
invariant of the registry (`Consistent`) and what a stop request means: the
client stays as it is until it is gone (`StopKept`).
-/

namespace RoLauncher.Game

open Tables

/-- The operations on the registry. A reservation may come from anywhere, and
admission may be reopened at any time: the guards only make that rarer. -/
inductive Operation where
  | beginLaunch (clientId serverId serverName : String)
  | markController (reservation : LaunchReservation) (controllerIdentity : ProcessIdentity)
  | markRunning (reservation : LaunchReservation) (identity : ProcessIdentity)
      (runtime : ClientRuntimeGuard) (runtimePlanId : String) (observationId : Option String)
  | cancelLaunch (reservation : LaunchReservation)
  | replaceRunning (reservation : LaunchReservation) (expected replacement : ProcessIdentity)
      (memoryLease : Nat) (memoryAccess : MemoryAccess) (profileMemory : ProfileMemory)
  | requestStop (clientId : String)
  | requestStopAll
  | finish (reservation : LaunchReservation)
  | closeAdmissionIfIdle
  | reopenAdmission

namespace Operation

def next : Operation → GameProcessHandle → GameProcessHandle
  | beginLaunch clientId serverId serverName, game =>
    (game.beginLaunch clientId serverId serverName).2
  | markController reservation controller, game => (game.markController reservation controller).2
  | markRunning reservation identity runtime plan observation, game =>
    (game.markRunning reservation identity runtime plan observation).2
  | cancelLaunch reservation, game => game.cancelLaunch reservation
  | replaceRunning reservation expected replacement lease access profile, game =>
    (game.replaceRunning reservation expected replacement lease access profile).2
  | requestStop clientId, game => (game.requestStop clientId).2
  | requestStopAll, game => game.requestStopAll.2
  | finish reservation, game => (game.finish reservation).2
  | closeAdmissionIfIdle, game => game.closeAdmissionIfIdle.2
  | reopenAdmission, game => game.reopenAdmission

/-- The operation answers with an error, or with the `false` or `None` it has instead. -/
def refused : Operation → GameProcessHandle → Bool
  | beginLaunch clientId serverId serverName, game =>
    !(game.beginLaunch clientId serverId serverName).1.isOk
  | markController reservation controller, game =>
    !(game.markController reservation controller).1.isOk
  | markRunning reservation identity runtime plan observation, game =>
    !(game.markRunning reservation identity runtime plan observation).1.isOk
  | replaceRunning reservation expected replacement lease access profile, game =>
    !(game.replaceRunning reservation expected replacement lease access profile).1
  | requestStop clientId, game => !(game.requestStop clientId).1.isOk
  | finish reservation, game => (game.finish reservation).1.isNone
  | closeAdmissionIfIdle, game => !game.closeAdmissionIfIdle.1.isOk
  | cancelLaunch _, _ | requestStopAll, _ | reopenAdmission, _ => false

end Operation

/-- Some operation leads from one registry to the other. -/
def Step (game game' : GameProcessHandle) : Prop := ∃ operation : Operation, game' = operation.next game

abbrev Run : GameProcessHandle → GameProcessHandle → Prop := Relation.ReflTransGen Step

namespace GameProcessHandle

/-! ## What an operation can do -/

inductive Change (game : GameProcessHandle) : GameProcessHandle → Prop
  | unchanged : Change game game
  | launched {client : ProcessState} : game.relaunchAdmissionClosed = false →
      (∀ g other, game.clients.lookup g = some other →
        other.isLaunching = false ∧ other.metadata.clientId ≠ client.metadata.clientId) →
      client.identity = none →
      Change game
        { game.put game.nextGeneration client with nextGeneration := game.nextGeneration + 1 }
  | changed {generation : Nat} {client client' : ProcessState} :
      game.clients.lookup generation = some client → client'.metadata = client.metadata →
      (client'.isLaunching = true → client.isLaunching = true) →
      (client.stopRequested = true → client' = client) →
      (client'.identity = client.identity ∨
        ∀ g other, game.clients.lookup g = some other → g ≠ generation →
          other.identity ≠ client'.identity) →
      Change game (game.put generation client')
  | stopped : Change game { game with clients := game.clients.mapValues ProcessState.stop }
  | removed (generation : Nat) :
      Change game { game with clients := game.clients.erase generation }
  | closed : (∀ g, game.clients.lookup g = none) →
      Change game { game with relaunchAdmissionClosed := true }
  | reopened : Change game { game with relaunchAdmissionClosed := false }

theorem beginLaunch_change (game : GameProcessHandle) (clientId serverId serverName : String) :
    Change game (game.beginLaunch clientId serverId serverName).2 := by
  unfold beginLaunch
  split
  next => exact .unchanged
  split
  next => exact .unchanged
  split
  next => exact .unchanged
  next opened none free =>
    refine .launched (by simpa using opened) (fun g other found => ⟨?_, ?_⟩) rfl
    · exact Table.any_eq_false.mp (Bool.eq_false_iff.mpr none) g other found
    · simpa [ProcessState.metadata] using
        Table.any_eq_false.mp (Bool.eq_false_iff.mpr free) g other found

theorem markController_change (game : GameProcessHandle) (reservation : LaunchReservation)
    (controllerIdentity : ProcessIdentity) :
    Change game (game.markController reservation controllerIdentity).2 := by
  unfold markController
  split
  next => exact .unchanged
  next here => exact .changed here rfl id nofun (.inl rfl)
  next => exact .unchanged
  next => exact .unchanged

theorem markRunning_change (game : GameProcessHandle) (reservation : LaunchReservation)
    (identity : ProcessIdentity) (runtime : ClientRuntimeGuard) (runtimePlanId : String)
    (observationId : Option String) :
    Change game
      (game.markRunning reservation identity runtime runtimePlanId observationId).2 := by
  unfold markRunning
  split
  next => exact .unchanged
  next free =>
    split
    next => exact .unchanged
    next here =>
      refine .changed here rfl nofun nofun (.inr fun g other found ne => ?_)
      have := Table.any_eq_false.mp (Bool.eq_false_iff.mpr free) g other found
      simpa [ne, ProcessState.identity] using this
    next => exact .unchanged
    next => exact .unchanged

theorem requestStop_change (game : GameProcessHandle) (clientId : String) :
    Change game (game.requestStop clientId).2 := by
  unfold requestStop
  dsimp only
  split
  next => exact .unchanged
  next generation client found =>
    exact .changed (Table.findEntry_eq_some found).1 client.stop_metadata
      (fun launching => by rwa [client.stop_isLaunching] at launching)
      ProcessState.stop_of_stopRequested (.inl client.stop_identity)

theorem replaceRunning_change (game : GameProcessHandle) (reservation : LaunchReservation)
    (expected replacement : ProcessIdentity) (memoryLease : Nat) (memoryAccess : MemoryAccess)
    (profileMemory : ProfileMemory) :
    Change game (game.replaceRunning reservation expected replacement memoryLease memoryAccess
      profileMemory).2 := by
  unfold replaceRunning
  split
  next => exact .unchanged
  next free =>
    split
    next here =>
      split
      next =>
        refine .changed here rfl nofun nofun (.inr fun g other found ne => ?_)
        have := Table.any_eq_false.mp (Bool.eq_false_iff.mpr free) g other found
        simp only [bne_iff_ne.mpr ne, Bool.true_and, Bool.or_eq_false_iff] at this
        simpa [ProcessState.identity] using this.2
      next => exact .unchanged
    next => exact .unchanged

/-- **One operation** does one of these things to the registry. -/
theorem next_change (operation : Operation) (game : GameProcessHandle) :
    Change game (operation.next game) := by
  cases operation with
  | beginLaunch clientId serverId serverName => exact beginLaunch_change ..
  | markController reservation controller => exact markController_change ..
  | markRunning reservation identity runtime plan observation => exact markRunning_change ..
  | replaceRunning reservation expected replacement lease access profile =>
    exact replaceRunning_change ..
  | requestStop clientId => exact requestStop_change ..
  | requestStopAll => exact .stopped
  | reopenAdmission => exact .reopened
  | cancelLaunch reservation =>
    rw [Operation.next, cancelLaunch]
    split
    next => exact .removed _
    next => exact .unchanged
  | finish reservation =>
    rw [Operation.next, finish]
    split
    next => exact .removed _
    next => exact .unchanged
  | closeAdmissionIfIdle =>
    rw [Operation.next, closeAdmissionIfIdle]
    split
    next => exact .unchanged
    next idle =>
      split
      next => exact .unchanged
      next => exact .closed (Table.entries_eq_nil_iff.mp (not_not.mp idle))

/-! ## The admission -/

end GameProcessHandle

/-- The operations on clients, not those of a relaunch. -/
def Operation.ofClients : Operation → Bool
  | closeAdmissionIfIdle | reopenAdmission => false
  | _ => true

namespace GameProcessHandle

/-- An operation on clients leaves the admission as it is. -/
theorem next_relaunchAdmissionClosed {operation : Operation} (own : operation.ofClients = true)
    (game : GameProcessHandle) :
    (operation.next game).relaunchAdmissionClosed = game.relaunchAdmissionClosed := by
  cases operation with
  | beginLaunch clientId serverId serverName =>
    simp only [Operation.next, beginLaunch]
    split <;> try rfl
    split <;> try rfl
    split <;> rfl
  | markController reservation controller =>
    simp only [Operation.next, markController]
    split <;> rfl
  | markRunning reservation identity runtime plan observation =>
    simp only [Operation.next, markRunning]
    split
    next => rfl
    next => split <;> rfl
  | cancelLaunch reservation =>
    simp only [Operation.next, cancelLaunch]
    split <;> rfl
  | replaceRunning reservation expected replacement lease access profile =>
    simp only [Operation.next, replaceRunning]
    split
    next => rfl
    split
    next => split <;> rfl
    next => rfl
  | requestStop clientId =>
    simp only [Operation.next, requestStop]
    split <;> rfl
  | requestStopAll => rfl
  | finish reservation =>
    simp only [Operation.next, finish]
    split <;> rfl
  | closeAdmissionIfIdle | reopenAdmission => cases own

/-- Admission is closed once, and while there is no client. -/
theorem closeAdmissionIfIdle_cases (game : GameProcessHandle) :
    (∃ e, game.closeAdmissionIfIdle = (.error e, game)) ∨
      game.relaunchAdmissionClosed = false ∧ (∀ g, game.clients.lookup g = none) ∧
        game.closeAdmissionIfIdle = (.ok (), { game with relaunchAdmissionClosed := true }) := by
  unfold closeAdmissionIfIdle
  split
  next => exact .inl ⟨_, rfl⟩
  next idle =>
  split
  next => exact .inl ⟨_, rfl⟩
  next opened =>
    exact .inr ⟨by simpa using opened, Table.entries_eq_nil_iff.mp (not_not.mp idle), rfl⟩

/-! ## The invariant -/

/-- What holds of every registry that the operations lead to. -/
structure Consistent (game : GameProcessHandle) : Prop where
  oneLaunching : Table.Apart
    (fun client other => client.isLaunching = true ∧ other.isLaunching = true) game.clients
  clientIds : Table.Apart
    (fun client other => client.metadata.clientId = other.metadata.clientId) game.clients
  identities : Table.Apart
    (fun client other => ∃ identity, client.identity = some identity ∧
      other.identity = some identity) game.clients
  admission : game.relaunchAdmissionClosed = true → ∀ g, game.clients.lookup g = none
  reserved : ∀ g client, game.clients.lookup g = some client → g < game.nextGeneration

theorem new_consistent : Consistent new where
  oneLaunching := Table.apart_empty
  clientIds := Table.apart_empty
  identities := Table.apart_empty
  admission := nofun
  reserved g client found := by
    rw [new, AList.lookup_empty] at found
    cases found

theorem Change.consistent {game game' : GameProcessHandle} (change : Change game game')
    (h : Consistent game) : Consistent game' := by
  cases change with
  | unchanged => exact h
  | reopened => exact { h with admission := nofun }
  | closed idle => exact { h with admission := fun _ => idle }
  | removed generation =>
    refine ⟨h.oneLaunching.erase _, h.clientIds.erase _, h.identities.erase _,
      fun closed g => ?_, fun g client found => ?_⟩
    · rw [Table.lookup_erase_of, h.admission closed]
      split <;> rfl
    · rw [Table.lookup_erase_of] at found
      split at found
      next => cases found
      next => exact h.reserved g client found
  | stopped =>
    refine ⟨h.oneLaunching.mapValues (by simp), h.clientIds.mapValues (by simp),
      h.identities.mapValues (by simp), fun closed g => ?_, fun g client found => ?_⟩
    · rw [Table.lookup_mapValues, h.admission closed]
      rfl
    · rw [Table.lookup_mapValues] at found
      obtain ⟨client', found', _⟩ := Option.map_eq_some_iff.mp found
      exact h.reserved g client' found'
  | launched opened fresh silent =>
    refine ⟨h.oneLaunching.insert (fun _ _ both => ⟨both.2, both.1⟩) fun g other found _ both => ?_,
      h.clientIds.insert (fun _ _ same => same.symm) fun g other found _ => (fresh g other found).2,
      h.identities.insert ?_ fun g other found _ => ?_, fun closed => ?_, fun g client found => ?_⟩
    · exact absurd both.1 (by rw [(fresh g other found).1]; exact Bool.false_ne_true)
    · rintro _ _ ⟨identity, left, right⟩
      exact ⟨identity, right, left⟩
    · rintro ⟨identity, _, own⟩
      rw [silent] at own
      cases own
    · exact absurd closed (by simp [put, opened])
    · simp only [put, Table.lookup_insert_of] at found
      split at found
      next same => exact same ▸ Nat.lt_succ_self _
      next => exact Nat.lt_succ_of_lt (h.reserved g client found)
  | @changed generation client client' here metadata launching stopped identity =>
    refine ⟨h.oneLaunching.insert (fun _ _ both => ⟨both.2, both.1⟩) fun g other found ne both => ?_,
      h.clientIds.insert (fun _ _ same => same.symm) fun g other found ne same => ?_,
      h.identities.insert ?_ fun g other found ne => ?_, fun closed => ?_, fun g other found => ?_⟩
    · exact ne (h.oneLaunching g generation other client found here ⟨both.1, launching both.2⟩)
    · rw [metadata] at same
      exact ne (h.clientIds g generation other client found here same)
    · rintro _ _ ⟨identity, left, right⟩
      exact ⟨identity, right, left⟩
    · rintro ⟨taken, left, right⟩
      cases identity with
      | inl same =>
        rw [same] at right
        exact ne (h.identities g generation other client found here ⟨taken, left, right⟩)
      | inr free => exact free g other found ne (left.trans right.symm)
    · rw [h.admission closed generation] at here
      cases here
    · simp only [put, Table.lookup_insert_of] at found
      split at found
      next same => exact same ▸ h.reserved generation client here
      next => exact h.reserved g other found

/-- **Whole runs** keep the invariant. -/
theorem consistent_of_run {game game' : GameProcessHandle} (run : Run game game')
    (h : Consistent game) : Consistent game' := by
  induction run with
  | refl => exact h
  | tail _ step ih =>
    obtain ⟨operation, rfl⟩ := step
    exact (next_change operation _).consistent ih

/-! ## Stop requests -/

/-- The stopped client of a reservation is as it was, or gone, and its
reservation is never given out again. -/
def StopKept (generation : Nat) (client : ProcessState) (game : GameProcessHandle) : Prop :=
  (game.clients.lookup generation = some client ∨ game.clients.lookup generation = none) ∧
    generation < game.nextGeneration

theorem Change.stopKept {game game' : GameProcessHandle} (change : Change game game')
    {generation : Nat} {client : ProcessState} (stopped : client.stopRequested = true)
    (h : StopKept generation client game) : StopKept generation client game' := by
  obtain ⟨kept, reserved⟩ := h
  cases change with
  | unchanged | reopened | closed => exact ⟨kept, reserved⟩
  | removed g =>
    refine ⟨?_, reserved⟩
    rw [Table.lookup_erase_of]
    split
    next => exact .inr rfl
    next => exact kept
  | stopped =>
    refine ⟨?_, reserved⟩
    rw [Table.lookup_mapValues]
    rcases kept with here | gone
    · rw [here, Option.map_some, ProcessState.stop_of_stopRequested stopped]
      exact .inl rfl
    · rw [gone]
      exact .inr rfl
  | launched =>
    refine ⟨?_, Nat.lt_succ_of_lt reserved⟩
    rw [put, Table.lookup_insert_of, if_neg (Nat.ne_of_lt reserved)]
    exact kept
  | @changed g other other' here _ _ unchanged _ =>
    refine ⟨?_, reserved⟩
    rw [put, Table.lookup_insert_of]
    split
    next same =>
      subst same
      rcases kept with kept | gone
      · rw [kept] at here
        cases here
        exact .inl (congrArg some (unchanged stopped))
      · rw [gone] at here
        cases here
    next => exact kept

theorem stopKept_of_run {game game' : GameProcessHandle} (run : Run game game')
    {generation : Nat} {client : ProcessState} (stopped : client.stopRequested = true)
    (h : StopKept generation client game) : StopKept generation client game' := by
  induction run with
  | refl => exact h
  | tail _ step ih =>
    obtain ⟨operation, rfl⟩ := step
    exact (next_change operation _).stopKept stopped ih

/-- A client whose stop was requested is neither promoted nor handed over. -/
theorem stopped_refused {game : GameProcessHandle} {reservation : LaunchReservation}
    {client : ProcessState} (here : game.clients.lookup reservation.generation = some client)
    (stopped : client.stopRequested = true) :
    (∀ identity runtime plan observation,
      Operation.refused (.markRunning reservation identity runtime plan observation) game = true) ∧
    (∀ expected replacement lease access profile,
      Operation.refused (.replaceRunning reservation expected replacement lease access profile)
        game = true) := by
  constructor
  · intro identity runtime plan observation
    rw [Operation.refused, markRunning, here]
    split
    next => rfl
    next =>
      cases client with
      | launching =>
        cases stopped
        rfl
      | running => rfl
  · intro expected replacement lease access profile
    rw [Operation.refused, replaceRunning, here]
    split
    next => rfl
    next =>
      cases client with
      | launching => rfl
      | running =>
        cases stopped
        rfl

/-! ## Refusals -/

/-- **An operation that refuses** leaves the registry as it is. -/
theorem refused_unchanged {operation : Operation} {game : GameProcessHandle} :
    operation.refused game = true → operation.next game = game := by
  cases operation with
  | beginLaunch clientId serverId serverName =>
    rw [Operation.refused, Operation.next, beginLaunch]
    split
    next => exact fun _ => rfl
    split
    next => exact fun _ => rfl
    split
    next => exact fun _ => rfl
    next => exact nofun
  | markController reservation controller =>
    rw [Operation.refused, Operation.next, markController]
    split
    next => exact fun _ => rfl
    next => exact nofun
    next => exact fun _ => rfl
    next => exact fun _ => rfl
  | markRunning reservation identity runtime plan observation =>
    rw [Operation.refused, Operation.next, markRunning]
    split
    next => exact fun _ => rfl
    split
    next => exact fun _ => rfl
    next => exact nofun
    next => exact fun _ => rfl
    next => exact fun _ => rfl
  | replaceRunning reservation expected replacement lease access profile =>
    rw [Operation.refused, Operation.next, replaceRunning]
    split
    next => exact fun _ => rfl
    split
    next =>
      split
      next => exact nofun
      next => exact fun _ => rfl
    next => exact fun _ => rfl
  | requestStop clientId =>
    rw [Operation.refused, Operation.next, requestStop]
    split
    next => exact fun _ => rfl
    next => exact nofun
  | finish reservation =>
    rw [Operation.refused, Operation.next, finish]
    split
    next => exact nofun
    next => exact fun _ => rfl
  | closeAdmissionIfIdle =>
    rw [Operation.refused, Operation.next, closeAdmissionIfIdle]
    split
    next => exact fun _ => rfl
    split
    next => exact fun _ => rfl
    next => exact nofun
  | cancelLaunch | requestStopAll | reopenAdmission => exact nofun

/-- **The registry** after any run of operations. -/
theorem registry_consistent {game : GameProcessHandle} (run : Run new game) :
    game.Consistent ∧
    (∀ g client game', game.clients.lookup g = some client → client.stopRequested = true →
      Run game game' →
        game'.clients.lookup g = some client ∨ game'.clients.lookup g = none) ∧
    (∀ g client, game.clients.lookup g = some client → client.stopRequested = true →
      (∀ identity runtime plan observation,
        Operation.refused (.markRunning ⟨g⟩ identity runtime plan observation) game = true) ∧
      (∀ expected replacement lease access profile,
        Operation.refused (.replaceRunning ⟨g⟩ expected replacement lease access profile)
          game = true)) ∧
    (∀ operation : Operation, operation.refused game = true → operation.next game = game) := by
  have consistent := consistent_of_run run new_consistent
  refine ⟨consistent, fun g client game' here stopped later => ?_,
    fun g client here stopped => stopped_refused here stopped, fun operation => refused_unchanged⟩
  exact (stopKept_of_run later stopped ⟨.inl here, consistent.reserved g client here⟩).1

/-- A launch that is stopped before its process is known. -/
def stoppedLaunch : GameProcessHandle :=
  Operation.next (.requestStop "client") (Operation.next (.beginLaunch "client" "server" "Server") new)

theorem registry_consistent_stoppedLaunch :
    stoppedLaunch.Consistent ∧
    ∀ game, Run stoppedLaunch game →
      game.clients.lookup 1 = some (.launching ⟨"client", "server", "Server"⟩ none true) ∨
        game.clients.lookup 1 = none := by
  have run : Run new stoppedLaunch := .tail (.single ⟨_, rfl⟩) ⟨_, rfl⟩
  obtain ⟨consistent, kept, -, -⟩ := registry_consistent run
  exact ⟨consistent, fun game later => kept 1 _ game rfl rfl later⟩

end GameProcessHandle

end RoLauncher.Game
