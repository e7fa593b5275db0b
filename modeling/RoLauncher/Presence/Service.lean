import RoLauncher.Presence.Activity
import RoLauncher.Runs.Labelled
import RoLauncher.Tables.Views

/-!
# The worker of presence (`service.rs`)

The worker receives commands, samples the memory of its clients every two seconds
and tells the transport what to show. The log says what was received, read and
sent; `since` and `shown` say from the log alone what is confirmed of a client, and
the worker keeps to it (`Tracks`). So what is sent is always permitted and
confirmed (`sent_confirmed`), and what stays shown is out of date only while the
transport fails (`displayed_current`).
-/

namespace RoLauncher.Presence

open Runs (Run)
open Tables (Table)

def RETRY_INTERVAL : Nat := 5000

def HEARTBEAT_INTERVAL : Nat := 30000

def REQUIRED_STABLE_SAMPLES : Nat := 2

def MAX_INVALID_SAMPLES : Nat := 3

def U8_MAX : Nat := 255

/-! ## Sampling a client -/

/-- What a sampling of a client meets: whether the process is the same in front of the reads and
after them, its memory session and whether that is usable, the addresses that are mapped, the memory
as each profile reads it, and the time. -/
structure View where
  before : Bool
  session : Option Bool
  mapped : Nat → Bool
  memory : MemoryProfile → MemoryReader
  after : Bool
  unix : Int

def readIngameCandidate (view : View) (profiles : List MemoryProfile) :
    Option (MemoryProfile × CharacterSnapshot) :=
  if view.session ≠ some true then none
  else profiles.findSome? fun profile =>
    if view.mapped profile.moduleBase then
      match readCharacterSnapshot (view.memory profile) profile with
      | some snapshot => if snapshot.state = .inGame then some (profile, snapshot) else none
      | none => none
    else none

/-- What a sampling comes to. -/
inductive Sample
  | read (profile : MemoryProfile) (snapshot : CharacterSnapshot)
  | failed
  deriving DecidableEq, Repr

/-- The first part of `record_ingame_sample`. -/
def pendingSample (client : TrackedClient) (profile : MemoryProfile) (snapshot : CharacterSnapshot) :
    PendingSnapshot :=
  let key := SnapshotKey.fromSample profile.id snapshot
  match client.pending with
  | some pending =>
    if pending.key = key then { pending with samples := min (pending.samples + 1) U8_MAX, snapshot, profile }
    else { key, profile, snapshot, samples := 1 }
  | none => { key, profile, snapshot, samples := 1 }

def recordIngameSample (client : TrackedClient) (profile : MemoryProfile)
    (snapshot : CharacterSnapshot) (unix : Int) : TrackedClient :=
  let pending := pendingSample client profile snapshot
  if pending.samples < REQUIRED_STABLE_SAMPLES then { client with pending := some pending }
  else
    let renamed := client.characterName.any fun name => some name ≠ pending.snapshot.characterName
    { client with
      pending := some pending
      profile := if client.fromHash then client.profile else some pending.profile
      sessionStarted := if renamed then unix else client.sessionStarted
      characterName := pending.snapshot.characterName
      snapshot := some pending.snapshot
      invalidSamples := 0 }

def invalidateClient (client : TrackedClient) : TrackedClient :=
  let invalidSamples := min (client.invalidSamples + 1) U8_MAX
  if MAX_INVALID_SAMPLES ≤ invalidSamples then
    { client with
      pending := none
      invalidSamples
      snapshot := none
      profile := if client.fromHash then client.profile else none }
  else { client with pending := none, invalidSamples }

/-- The reads of `sample_client`; nothing, when there is no profile to read with. -/
def sampled (client : TrackedClient) (view : View) : Option Sample :=
  if client.profile.isNone && client.derivedCandidates.isEmpty then none
  else if !view.before then some .failed
  else
    let profiles :=
      match client.profile with
      | some profile => [profile]
      | none => client.derivedCandidates
    match readIngameCandidate view profiles with
    | none => some .failed
    | some (profile, snapshot) => if !view.after then some .failed else some (.read profile snapshot)

def sampleClient (client : TrackedClient) (view : View) : TrackedClient :=
  match sampled client view with
  | none => client
  | some .failed => invalidateClient client
  | some (.read profile snapshot) => recordIngameSample client profile snapshot view.unix

def overridesApply (client : TrackedClient) (overrides : AddressOverrides) : Bool :=
  !client.fromHash && client.appliedOverrides ≠ overrides

/-- `apply_overrides_to_client`; it answers `overridesApply`. -/
def applyOverridesToClient (client : TrackedClient) (overrides : AddressOverrides) : TrackedClient :=
  if overridesApply client overrides then
    let (profile, derivedCandidates) := resolvePresenceMemoryProfiles none overrides
    { client with
      appliedOverrides := overrides, profile, derivedCandidates
      snapshot := none, pending := none, invalidSamples := 0 }
  else client

/-! ## The worker -/

/-- What happens to the worker and what it does. -/
inductive Event
  | enabled (value : Bool)
  | registered (id server : String)
  | unregistered (id : String)
  /-- The client has another process or other addresses. -/
  | fresh (id : String)
  | sample (id : String) (sample : Sample)
  | set (activity : PresenceActivity) (result : Except String Unit)
  | cleared (result : Except String Unit)
  | stopped

inductive PresenceCommand
  | setEnabled (enabled : Bool)
  | register (clientId serverId serverName : String) (identity : ProcessIdentity)
      (executable : Option Executable) (overrides : AddressOverrides)
  | applyOverrides (serverId : String) (overrides : AddressOverrides)
  | handoff (clientId : String) (identity : ProcessIdentity)
  | unregister (clientId : String)
  | shutdown

structure PresenceWorker where
  enabled : Bool
  clients : Table String TrackedClient
  sentActivity : Option PresenceActivity
  lastPublish : Option Nat
  lastError : Option String
  -- The newest event first; no function reads it.
  log : List Event

def PresenceWorker.new : PresenceWorker where
  enabled := false
  clients := ∅
  sentActivity := none
  lastPublish := none
  lastError := none
  log := []

/-- A publication: when it comes, and what the transport answers if it is called. -/
structure Answer where
  now : Nat
  result : Except String Unit

/-- What a step meets outside: each client's memory, the time a registration takes, and the
transport at the publication that follows a sampling and at the forced one. -/
structure Outside where
  views : String → View
  unix : Int
  afterSampling : Answer
  forced : Answer

variable (catalog : String → Option String) (profiles : List MemoryProfile)

namespace PresenceWorker

def values (worker : PresenceWorker) : List TrackedClient := worker.clients.entries.map (·.2)

/-- What the worker wants to be shown. -/
def desired (worker : PresenceWorker) : Option PresenceActivity :=
  if worker.enabled then aggregateActivity catalog worker.values else none

def heartbeatDue (worker : PresenceWorker) (now : Nat) : Bool :=
  worker.lastPublish.all fun last => HEARTBEAT_INTERVAL ≤ now - last

def retryDue (worker : PresenceWorker) (now : Nat) : Bool :=
  worker.lastPublish.all fun last => RETRY_INTERVAL ≤ now - last

/-- The call of the transport, and its result. -/
def call (worker : PresenceWorker) (answer : Answer) : Except String Unit × List Event :=
  match worker.desired catalog with
  | some activity => (answer.result, [.set activity answer.result])
  | none =>
    if worker.sentActivity.isSome then (answer.result, [.cleared answer.result]) else (.ok (), [])

/-- The last part of `publish`: the call, and what the worker keeps of its result. -/
def attempt (worker : PresenceWorker) (answer : Answer) : PresenceWorker :=
  let desired := worker.desired catalog
  let (result, events) := worker.call catalog answer
  let worker := { worker with lastPublish := some answer.now, log := events ++ worker.log }
  match result with
  | .ok () => { worker with sentActivity := desired, lastError := none }
  | .error error => { worker with lastError := some error }

def publish (worker : PresenceWorker) (force : Bool) (answer : Answer) : PresenceWorker :=
  let sameAsSent : Bool := worker.desired catalog = worker.sentActivity
  let heartbeatDue := worker.heartbeatDue answer.now
  let retryDue := worker.retryDue answer.now
  if !force && sameAsSent && !heartbeatDue && worker.lastError.isNone then worker
  else if !force && !sameAsSent && worker.lastError.isSome && !retryDue then worker
  else if !force && sameAsSent && !heartbeatDue && !retryDue then worker
  else worker.attempt catalog answer

/-- The samplings of all clients. -/
def samples (worker : PresenceWorker) (views : String → View) : List Event :=
  worker.clients.entries.filterMap fun entry =>
    (sampled entry.2 (views entry.1)).map (Event.sample entry.1)

/-- Every client, sampled. -/
def resample (worker : PresenceWorker) (views : String → View) : PresenceWorker :=
  { worker with
    clients := worker.clients.view fun id client => sampleClient client (views id)
    log := worker.samples views ++ worker.log }

def sampleClients (worker : PresenceWorker) (outside : Outside) : PresenceWorker :=
  if !worker.enabled then worker
  else (worker.resample outside.views).publish catalog false outside.afterSampling

/-- The clients of a server that other overrides give other addresses. -/
def overridden (worker : PresenceWorker) (serverId : String) (overrides : AddressOverrides) :
    List Event :=
  worker.clients.entries.filterMap fun entry =>
    if entry.2.serverId = serverId ∧ overridesApply entry.2 overrides = true then
      some (Event.fresh entry.1)
    else none

def setEnabled (worker : PresenceWorker) (enabled : Bool) : PresenceWorker :=
  { worker with enabled, log := .enabled enabled :: worker.log }

def register (worker : PresenceWorker) (clientId serverId serverName : String)
    (identity : ProcessIdentity) (executable : Option Executable) (overrides : AddressOverrides)
    (unix : Int) : PresenceWorker :=
  let (profile, derivedCandidates) := resolveRuntimeProfiles profiles executable overrides
  let client : TrackedClient :=
    { serverId, serverName, identity
      fromHash := profile.isSome
      appliedOverrides := overrides
      profile, derivedCandidates
      sessionStarted := unix
      characterName := none
      snapshot := none
      pending := none
      invalidSamples := 0 }
  { worker with
    clients := worker.clients.insert clientId client
    log := .registered clientId serverName :: worker.log }

def applyOverrides (worker : PresenceWorker) (serverId : String) (overrides : AddressOverrides) :
    PresenceWorker :=
  { worker with
    clients := worker.clients.view fun _ client =>
      if client.serverId ≠ serverId then client else applyOverridesToClient client overrides
    log := worker.overridden serverId overrides ++ worker.log }

def handoff (worker : PresenceWorker) (clientId : String) (identity : ProcessIdentity) :
    PresenceWorker :=
  { worker with
    clients := worker.clients.view fun id client =>
      if id = clientId then { client with identity, snapshot := none, pending := none, invalidSamples := 0 }
      else client
    log := .fresh clientId :: worker.log }

def unregister (worker : PresenceWorker) (clientId : String) : PresenceWorker :=
  { worker with
    clients := worker.clients.erase clientId, log := .unregistered clientId :: worker.log }

/-- The state after the command, and whether the worker goes on. -/
def handle (worker : PresenceWorker) (command : PresenceCommand) (outside : Outside) :
    PresenceWorker × Bool :=
  match command with
  | .setEnabled enabled =>
    let worker := worker.setEnabled enabled
    (if !enabled then worker.publish catalog true outside.forced else worker, true)
  | .register clientId serverId serverName identity executable overrides =>
    let worker := worker.register profiles clientId serverId serverName identity executable overrides
      outside.unix
    ((worker.sampleClients catalog outside).publish catalog true outside.forced, true)
  | .applyOverrides serverId overrides =>
    let changed := !(worker.overridden serverId overrides).isEmpty
    let worker := worker.applyOverrides serverId overrides
    if changed then ((worker.sampleClients catalog outside).publish catalog true outside.forced, true)
    else (worker, true)
  | .handoff clientId identity =>
    let worker := worker.handoff clientId identity
    ((worker.sampleClients catalog outside).publish catalog true outside.forced, true)
  | .unregister clientId => ((worker.unregister clientId).publish catalog true outside.forced, true)
  | .shutdown => (worker.publish catalog true outside.forced, false)

end PresenceWorker

/-- What ends a wait for a command. -/
inductive Input
  | command (command : PresenceCommand)
  | timeout
  | disconnected

structure Service where
  worker : PresenceWorker
  running : Bool

def Service.new : Service := ⟨.new, true⟩

/-- A worker that has ended. -/
def Service.ended (worker : PresenceWorker) : Service :=
  ⟨{ worker with log := .stopped :: worker.log }, false⟩

/-- A round of `run_worker`. -/
def runWorker (act : Input × Outside) (service : Service) : Option Service :=
  if !service.running then none
  else
    match act.1 with
    | .command command =>
      let (worker, running) := service.worker.handle catalog profiles command act.2
      some (if running then ⟨worker, true⟩ else .ended worker)
    | .timeout => some ⟨service.worker.sampleClients catalog act.2, true⟩
    | .disconnected => some (.ended (service.worker.publish catalog true act.2.forced))

/-! ## What the log says -/

/-- Presence is enabled. -/
def permitted : List Event → Bool
  | [] => false
  | .enabled value :: _ => value
  | .registered .. :: log | .unregistered _ :: log | .fresh _ :: log | .sample .. :: log
  | .set .. :: log | .cleared _ :: log | .stopped :: log => permitted log

/-- The clients, with the names of their servers. -/
def registered : List Event → Table String String
  | [] => ∅
  | .registered id server :: log => (registered log).insert id server
  | .unregistered id :: log => (registered log).erase id
  | .enabled _ :: log | .fresh _ :: log | .sample .. :: log | .set .. :: log | .cleared _ :: log
  | .stopped :: log => registered log

/-- The samples of a client since its process and its addresses are what they are. -/
def since (id : String) : List Event → List Sample
  | [] => []
  | .registered id' _ :: log => if id' = id then [] else since id log
  | .fresh id' :: log => if id' = id then [] else since id log
  | .sample id' sample :: log => if id' = id then sample :: since id log else since id log
  | .enabled _ :: log | .unregistered _ :: log | .set .. :: log | .cleared _ :: log
  | .stopped :: log => since id log

/-- What the transport shows: the last call that it accepted. -/
def displayed : List Event → Option PresenceActivity
  | [] => none
  | .set activity (.ok ()) :: _ => some activity
  | .cleared (.ok ()) :: _ => none
  | .set _ (.error _) :: log | .cleared (.error _) :: log | .enabled _ :: log | .registered .. :: log
  | .unregistered _ :: log | .fresh _ :: log | .sample .. :: log | .stopped :: log => displayed log

/-- The last call of the transport failed. -/
def failing : List Event → Bool
  | [] => false
  | .set _ result :: _ => !result.toBool
  | .cleared result :: _ => !result.toBool
  | .enabled _ :: log | .registered .. :: log | .unregistered _ :: log | .fresh _ :: log
  | .sample .. :: log | .stopped :: log => failing log

/-! ## What samples confirm -/

/-- The read says what the sample in front of it says. -/
def repeats (profile : MemoryProfile) (snapshot : CharacterSnapshot) (earlier : List Sample) : Bool :=
  match earlier with
  | .read profile' snapshot' :: _ =>
    SnapshotKey.fromSample profile'.id snapshot' = SnapshotKey.fromSample profile.id snapshot
  | _ => false

/-- The newest read that repeats the sample in front of it. -/
def confirmed : List Sample → Option (MemoryProfile × CharacterSnapshot)
  | [] => none
  | .failed :: samples => confirmed samples
  | .read profile snapshot :: samples =>
    if repeats profile snapshot samples then some (profile, snapshot) else confirmed samples

/-- The samples after it. -/
def recent : List Sample → List Sample
  | [] => []
  | .failed :: samples => .failed :: recent samples
  | .read profile snapshot :: samples =>
    if repeats profile snapshot samples then [] else .read profile snapshot :: recent samples

/-- What may be shown: the newest that is confirmed, for as long as fewer than three samples failed
since. -/
def shown (samples : List Sample) : Option (MemoryProfile × CharacterSnapshot) :=
  if (recent samples).count .failed < MAX_INVALID_SAMPLES then confirmed samples else none

/-- Two samples one after the other read the character alike and with the same profile; since
then fewer than three samples failed and all reads were made with that profile. -/
def Confirmed (samples : List Sample) (snapshot : CharacterSnapshot) : Prop :=
  snapshot.state = .inGame ∧ ∃ profile recent older,
    samples = recent ++ .read profile snapshot :: .read profile snapshot :: older ∧
      recent.count .failed < MAX_INVALID_SAMPLES ∧
      ∀ profile' snapshot', .read profile' snapshot' ∈ recent → profile' = profile

/-- What may be sent after the log: with one client what is confirmed of it, with several
their number and their servers. -/
inductive Announces (log : List Event) : PresenceActivity → Prop
  | alone {id : String} {client : TrackedClient} (on : permitted log = true)
      (only : (registered log).entries = [⟨id, client.serverName⟩])
      (exactly : client.snapshot = (shown (since id log)).map (·.2))
      (known : ∀ snapshot, client.snapshot = some snapshot → Confirmed (since id log) snapshot) :
      Announces log (activityForClient catalog client)
  | many (on : permitted log = true) (several : 2 ≤ (registered log).entries.length) :
      Announces log (crowd ((registered log).entries.map (·.2)))

/-! ## Confirmed samples -/

section Confirmed

variable {samples : List Sample} {profile profile' : MemoryProfile} {snapshot snapshot' : CharacterSnapshot}

/-- The confirmed read and the one in front of it, after the recent samples. -/
theorem confirmed_split (h : confirmed samples = some (profile, snapshot)) :
    ∃ profile' snapshot' older,
      samples = recent samples ++ .read profile snapshot :: .read profile' snapshot' :: older ∧
        SnapshotKey.fromSample profile'.id snapshot' = SnapshotKey.fromSample profile.id snapshot := by
  induction samples with
  | nil => cases h
  | cons sample samples ih =>
    cases sample with
    | failed =>
      obtain ⟨p, s, older, split, same⟩ := ih h
      exact ⟨p, s, older, congrArg (Sample.failed :: ·) split, same⟩
    | read p s =>
      rw [confirmed] at h
      by_cases again : repeats p s samples = true
      · rw [if_pos again] at h
        cases h
        rw [recent, if_pos again]
        cases samples with
        | nil => cases again
        | cons first older =>
          cases first with
          | failed => cases again
          | read p' s' => exact ⟨p', s', older, rfl, of_decide_eq_true again⟩
      · rw [if_neg again] at h
        obtain ⟨p', s', older, split, same⟩ := ih h
        rw [recent, if_neg again]
        exact ⟨p', s', older, congrArg (Sample.read p s :: ·) split, same⟩

theorem shown_some (h : shown samples = some (profile, snapshot)) :
    (recent samples).count .failed < MAX_INVALID_SAMPLES ∧ confirmed samples = some (profile, snapshot) := by
  rw [shown] at h
  split at h
  next few => exact ⟨few, h⟩
  next => cases h

theorem recent_once (once : repeats profile snapshot samples = false) :
    recent (.read profile snapshot :: samples) = .read profile snapshot :: recent samples := by
  rw [recent, if_neg (by rw [once]; exact Bool.false_ne_true)]

theorem shown_once (once : repeats profile snapshot samples = false) :
    shown (.read profile snapshot :: samples) = shown samples := by
  have newest : confirmed (.read profile snapshot :: samples) = confirmed samples := by
    rw [confirmed, if_neg (by rw [once]; exact Bool.false_ne_true)]
  rw [shown, shown, recent_once once, List.count_cons_of_ne (by simp), newest]

theorem recent_again (again : repeats profile snapshot samples = true) :
    recent (.read profile snapshot :: samples) = [] := by
  rw [recent, if_pos again]

theorem shown_again (again : repeats profile snapshot samples = true) :
    shown (.read profile snapshot :: samples) = some (profile, snapshot) := by
  rw [shown, recent_again again, if_pos (by decide), confirmed, if_pos again]

theorem shown_failed (h : shown (.failed :: samples) = some (profile, snapshot)) :
    shown samples = some (profile, snapshot) ∧ (recent samples).count .failed + 1 < MAX_INVALID_SAMPLES := by
  obtain ⟨few, newest⟩ := shown_some h
  rw [recent, List.count_cons_self] at few
  rw [shown, if_pos (by omega)]
  exact ⟨newest, few⟩

end Confirmed

/-! ## A client and its samples -/

/-- The profiles that a client may be read with. -/
def TrackedClient.candidates (client : TrackedClient) : List MemoryProfile :=
  if client.fromHash then client.profile.toList else client.derivedCandidates

/-- The client is what its samples make of it. -/
structure Tracks (client : TrackedClient) (samples : List Sample) : Prop where
  snapshot : client.snapshot = (shown samples).map (·.2)
  pending : ∀ pending, client.pending = some pending →
    pending.key = SnapshotKey.fromSample pending.profile.id pending.snapshot ∧ 1 ≤ pending.samples ∧
      samples.head? = some (.read pending.profile pending.snapshot)
  last : ∀ profile snapshot, samples.head? = some (.read profile snapshot) → client.pending.isSome = true
  misses : client.invalidSamples = min ((recent samples).count .failed) U8_MAX
  locked : ∀ profile snapshot, shown samples = some (profile, snapshot) → client.profile = some profile
  steady : ∀ profile snapshot, shown samples = some (profile, snapshot) →
    ∀ profile' snapshot', .read profile' snapshot' ∈ recent samples → profile' = profile
  known : ∀ profile, client.profile = some profile → profile ∈ client.candidates
  hashed : client.fromHash = true → client.profile.isSome = true
  distinct : Distinct client.candidates
  reads : ∀ profile snapshot, .read profile snapshot ∈ samples →
    profile ∈ client.candidates ∧ snapshot.state = .inGame

/-- Snapshots in the game with the same key are the same. -/
theorem eq_of_key {id id' : String} {s t : CharacterSnapshot}
    (same : SnapshotKey.fromSample id s = SnapshotKey.fromSample id' t) (hs : s.state = .inGame)
    (ht : t.state = .inGame) : id = id' ∧ s = t := by
  obtain ⟨name, level, job, map, state⟩ := s
  obtain ⟨name', level', job', map', state'⟩ := t
  cases hs
  cases ht
  cases same
  exact ⟨rfl, rfl⟩

theorem Tracks.sound {client : TrackedClient} {samples : List Sample} (h : Tracks client samples)
    {snapshot : CharacterSnapshot} (here : client.snapshot = some snapshot) :
    Confirmed samples snapshot := by
  rw [h.snapshot] at here
  obtain ⟨⟨profile, snapshot⟩, visible, rfl⟩ := Option.map_eq_some_iff.mp here
  obtain ⟨few, newest⟩ := shown_some visible
  obtain ⟨profile', snapshot', older, split, same⟩ := confirmed_split newest
  have first := h.reads profile snapshot (by rw [split]; simp)
  have second := h.reads profile' snapshot' (by rw [split]; simp)
  obtain ⟨id, rfl⟩ := eq_of_key same second.2 first.2
  obtain rfl := h.distinct.eq second.1 first.1 id
  exact ⟨first.2, profile', _, older, split, few, h.steady _ _ visible⟩

/-- A client without samples. -/
theorem Tracks.fresh {client : TrackedClient} (snapshot : client.snapshot = none)
    (pending : client.pending = none) (misses : client.invalidSamples = 0)
    (known : ∀ profile, client.profile = some profile → profile ∈ client.candidates)
    (hashed : client.fromHash = true → client.profile.isSome = true)
    (distinct : Distinct client.candidates) : Tracks client [] where
  snapshot := snapshot
  pending := fun pending' here => by rw [pending] at here; cases here
  last := fun profile snapshot here => by cases here
  misses := misses
  locked := fun profile snapshot here => by cases here
  steady := fun profile snapshot here => by cases here
  known := known
  hashed := hashed
  distinct := distinct
  reads := fun profile snapshot mem => by cases mem

section Sampling

variable {client : TrackedClient} {samples : List Sample} {profile : MemoryProfile}
  {snapshot : CharacterSnapshot} {unix : Int}

/-- Candidates stay while the client keeps its hash and its derived candidates. -/
theorem candidates_congr {client' : TrackedClient} (hash : client'.fromHash = client.fromHash)
    (derived : client'.derivedCandidates = client.derivedCandidates)
    (locked : client.fromHash = true → client'.profile = client.profile) :
    client'.candidates = client.candidates := by
  rw [TrackedClient.candidates, TrackedClient.candidates, hash, derived]
  split
  next fromHash => rw [locked fromHash]
  next => rfl

/-- What a failed sample leaves, in terms of the samples. -/
theorem Tracks.invalidate_eq (h : Tracks client samples) : ∃ profile,
    invalidateClient client = { client with
      pending := none
      invalidSamples := min ((recent (.failed :: samples)).count .failed) U8_MAX
      snapshot := (shown (.failed :: samples)).map (·.2)
      profile } ∧
    (profile = client.profile ∨ profile = none ∧ client.fromHash = false ∧ shown (.failed :: samples) = none) := by
  have misses : min (client.invalidSamples + 1) U8_MAX =
      min ((recent (.failed :: samples)).count .failed) U8_MAX := by
    rw [h.misses, recent, List.count_cons_self]
    simp only [U8_MAX]
    omega
  have visible := h.snapshot
  by_cases gone : MAX_INVALID_SAMPLES ≤ (recent (.failed :: samples)).count .failed
  · have count : MAX_INVALID_SAMPLES ≤ min (client.invalidSamples + 1) U8_MAX := by
      rw [misses]
      simp only [MAX_INVALID_SAMPLES, U8_MAX] at gone ⊢
      omega
    have hidden : shown (.failed :: samples) = none := by rw [shown, if_neg (by omega)]
    refine ⟨if client.fromHash then client.profile else none, ?_, ?_⟩
    · rw [hidden, ← misses]
      exact if_pos count
    · cases fromHash : client.fromHash with
      | true => exact .inl rfl
      | false => exact .inr ⟨rfl, rfl, hidden⟩
  · have count : ¬ MAX_INVALID_SAMPLES ≤ min (client.invalidSamples + 1) U8_MAX := by
      rw [misses]
      simp only [MAX_INVALID_SAMPLES, U8_MAX] at gone ⊢
      omega
    have still : shown (.failed :: samples) = shown samples := by
      rw [shown, shown, if_pos (by omega)]
      rw [recent, List.count_cons_self] at gone
      rw [if_pos (by omega)]
      rfl
    refine ⟨client.profile, ?_, .inl rfl⟩
    rw [still, ← visible, ← misses]
    exact if_neg count

theorem Tracks.invalidate (h : Tracks client samples) :
    Tracks (invalidateClient client) (.failed :: samples) := by
  obtain ⟨profile, after, kept⟩ := h.invalidate_eq
  rw [after]
  have same : TrackedClient.candidates { client with
      pending := none
      invalidSamples := min ((recent (.failed :: samples)).count .failed) U8_MAX
      snapshot := (shown (.failed :: samples)).map (·.2)
      profile } = client.candidates := by
    refine candidates_congr rfl rfl fun fromHash => ?_
    rcases kept with same | ⟨_, derived, _⟩
    · exact same
    · rw [fromHash] at derived
      cases derived
  have older : ∀ p s, .read p s ∈ Sample.failed :: samples → .read p s ∈ samples := fun p s mem =>
    (List.mem_cons.mp mem).resolve_left fun this => by cases this
  refine
    { snapshot := rfl, pending := fun pending here => (by cases here), last := fun p s here => (by cases here),
      misses := rfl, locked := ?_,
      steady := ?_, known := ?_, hashed := ?_, distinct := same ▸ h.distinct, reads := ?_ }
  · intro p s here
    rcases kept with same | ⟨_, _, hidden⟩
    · exact same.trans (h.locked p s (shown_failed here).1)
    · rw [hidden] at here
      cases here
  · intro p s here p' s' mem
    exact h.steady p s (shown_failed here).1 p' s' ((List.mem_cons.mp mem).resolve_left fun this => (by cases this))
  · intro p here
    rw [same]
    rcases kept with kept | ⟨hidden, _, _⟩
    · exact h.known p (kept.symm.trans here)
    · cases hidden.symm.trans here
  · intro fromHash
    rcases kept with same | ⟨_, derived, _⟩
    · exact same ▸ h.hashed fromHash
    · cases derived.symm.trans fromHash
  · intro p s mem
    rw [same]
    exact h.reads p s (older p s mem)

theorem repeats_iff : repeats profile snapshot samples = true ↔ ∃ profile' snapshot',
    samples.head? = some (.read profile' snapshot') ∧
      SnapshotKey.fromSample profile'.id snapshot' = SnapshotKey.fromSample profile.id snapshot := by
  constructor
  · intro again
    cases samples with
    | nil => cases again
    | cons first older =>
      cases first with
      | failed => cases again
      | read p s => exact ⟨p, s, rfl, of_decide_eq_true again⟩
  · rintro ⟨p, s, head, same⟩
    cases samples with
    | nil => cases head
    | cons first older =>
      cases head
      exact decide_eq_true same

/-- The pending sample has the key of the read exactly when the read repeats the sample in front of it. -/
theorem Tracks.repeats_iff (h : Tracks client samples) : repeats profile snapshot samples = true ↔
    ∃ pending, client.pending = some pending ∧ pending.key = SnapshotKey.fromSample profile.id snapshot := by
  rw [Presence.repeats_iff]
  constructor
  · rintro ⟨p, s, head, same⟩
    obtain ⟨pending, here⟩ := Option.isSome_iff_exists.mp (h.last p s head)
    obtain ⟨key, _, head'⟩ := h.pending pending here
    cases head.symm.trans head'
    exact ⟨pending, here, key.trans same⟩
  · rintro ⟨pending, here, same⟩
    obtain ⟨key, _, head⟩ := h.pending pending here
    exact ⟨_, _, head, key.symm.trans same⟩

/-- The read is the second in a row. -/
theorem Tracks.record_again (unix : Int) (h : Tracks client samples) (again : repeats profile snapshot samples = true) :
    ∃ count, 1 ≤ count ∧ recordIngameSample client profile snapshot unix = { client with
      pending := some ⟨SnapshotKey.fromSample profile.id snapshot, profile, snapshot, count⟩
      profile := if client.fromHash then client.profile else some profile
      sessionStarted :=
        if client.characterName.any fun name => some name ≠ snapshot.characterName then unix
        else client.sessionStarted
      characterName := snapshot.characterName
      snapshot := some snapshot
      invalidSamples := 0 } := by
  obtain ⟨pending, here, same⟩ := h.repeats_iff.mp again
  obtain ⟨_, counted, _⟩ := h.pending pending here
  have stable : ¬ min (pending.samples + 1) U8_MAX < REQUIRED_STABLE_SAMPLES := by
    simp only [U8_MAX, REQUIRED_STABLE_SAMPLES]
    omega
  refine ⟨min (pending.samples + 1) U8_MAX, by simp only [U8_MAX]; omega, ?_⟩
  simp only [recordIngameSample, pendingSample, here, same, if_true, if_neg stable]

/-- The read is the first of its kind. -/
theorem Tracks.record_once (h : Tracks client samples) (once : repeats profile snapshot samples = false) :
    recordIngameSample client profile snapshot unix = { client with
      pending := some ⟨SnapshotKey.fromSample profile.id snapshot, profile, snapshot, 1⟩ } := by
  have low : 1 < REQUIRED_STABLE_SAMPLES := by decide
  cases here : client.pending with
  | none => simp only [recordIngameSample, pendingSample, here, if_pos low]
  | some pending =>
    have other : pending.key ≠ SnapshotKey.fromSample profile.id snapshot := fun same =>
      Bool.false_ne_true (once.symm.trans (h.repeats_iff.mpr ⟨pending, here, same⟩))
    simp only [recordIngameSample, pendingSample, here, if_neg other, if_pos low]

theorem Tracks.record (h : Tracks client samples) (candidate : profile ∈ client.candidates)
    (locked : ∀ p, client.profile = some p → profile = p) (inGame : snapshot.state = .inGame) :
    Tracks (recordIngameSample client profile snapshot unix) (.read profile snapshot :: samples) := by
  have reads : ∀ p s, .read p s ∈ Sample.read profile snapshot :: samples →
      p ∈ client.candidates ∧ s.state = .inGame := by
    intro p s mem
    rcases List.mem_cons.mp mem with here | older
    · cases here
      exact ⟨candidate, inGame⟩
    · exact h.reads p s older
  cases again : repeats profile snapshot samples with
  | false =>
    rw [h.record_once again]
    have still := shown_once again
    have newer := recent_once again
    refine
      { snapshot := ?_, pending := ?_, last := fun p s _ => rfl, misses := ?_, locked := ?_, steady := ?_,
        known := h.known, hashed := h.hashed, distinct := h.distinct, reads := reads }
    · rw [still]
      exact h.snapshot
    · intro pending here
      cases here
      exact ⟨rfl, Nat.le_refl 1, rfl⟩
    · rw [newer, List.count_cons_of_ne (by simp)]
      exact h.misses
    · rw [still]
      exact h.locked
    · intro p s here p' s' mem
      rw [still] at here
      rw [newer] at mem
      rcases List.mem_cons.mp mem with first | older
      · cases first
        exact locked p (h.locked p s here)
      · exact h.steady p s here p' s' older
  | true =>
    obtain ⟨count, counted, after⟩ := h.record_again unix again
    rw [after]
    have none := recent_again again
    have now := shown_again again
    have mine : client.fromHash = true → client.profile = some profile := by
      intro fromHash
      obtain ⟨p, here⟩ := Option.isSome_iff_exists.mp (h.hashed fromHash)
      rw [here, locked p here]
    have profileAfter : (if client.fromHash = true then client.profile else some profile) = some profile := by
      split
      next fromHash => exact mine fromHash
      next => rfl
    have same : (recordIngameSample client profile snapshot unix).candidates = client.candidates := by
      rw [after]
      exact candidates_congr rfl rfl fun fromHash => if_pos fromHash
    rw [after, profileAfter] at same
    rw [profileAfter]
    refine
      { snapshot := ?_, pending := ?_, last := fun p s _ => rfl, misses := ?_, locked := ?_, steady := ?_,
        known := ?_, hashed := fun _ => rfl, distinct := ?_, reads := ?_ }
    · rw [now]
      rfl
    · intro pending here
      cases here
      exact ⟨rfl, counted, rfl⟩
    · rw [none]
      rfl
    · intro p s here
      rw [now] at here
      cases here
      rfl
    · intro p s _ p' s' mem
      rw [none] at mem
      cases mem
    · intro p here
      cases here
      rw [same]
      exact candidate
    · rw [same]
      exact h.distinct
    · rw [same]
      exact reads

theorem readIngameCandidate_some {view : View} {profiles : List MemoryProfile}
    (found : readIngameCandidate view profiles = some (profile, snapshot)) :
    profile ∈ profiles ∧ snapshot.state = .inGame := by
  rw [readIngameCandidate] at found
  split at found
  next => cases found
  obtain ⟨p, mem, here⟩ := List.exists_of_findSome?_eq_some found
  split at here
  next =>
    split at here
    next =>
      split at here
      next inGame =>
        cases here
        exact ⟨mem, inGame⟩
      next => cases here
    next => cases here
  next => cases here

/-- What a sampling reads is a character in the game, with a profile of the client. -/
theorem sampled_read (h : Tracks client samples) {view : View}
    (read : sampled client view = some (.read profile snapshot)) :
    profile ∈ client.candidates ∧ (∀ p, client.profile = some p → profile = p) ∧ snapshot.state = .inGame := by
  rw [sampled] at read
  split at read
  next => cases read
  split at read
  next => cases read
  dsimp only at read
  split at read
  next => cases read
  next p s found =>
    split at read
    next => cases read
    cases read
    obtain ⟨mem, inGame⟩ := readIngameCandidate_some found
    cases locked : client.profile with
    | none =>
      simp only [locked] at mem
      refine ⟨?_, fun p here => (by cases here), inGame⟩
      have derived : client.fromHash = false := by
        cases fromHash : client.fromHash with
        | false => rfl
        | true =>
          have hashed := h.hashed fromHash
          rw [locked] at hashed
          cases hashed
      rw [TrackedClient.candidates, derived]
      exact mem
    | some p =>
      simp only [locked, List.mem_singleton] at mem
      subst mem
      refine ⟨h.known _ locked, fun p here => ?_, inGame⟩
      cases here
      rfl

/-- A sampling keeps the client what its samples make of it. -/
theorem Tracks.sample (h : Tracks client samples) (view : View) :
    Tracks (sampleClient client view) ((sampled client view).toList ++ samples) := by
  rw [sampleClient]
  cases outcome : sampled client view with
  | none => exact h
  | some sample =>
    cases sample with
    | failed => exact h.invalidate
    | read profile snapshot =>
      obtain ⟨candidate, locked, inGame⟩ := sampled_read h outcome
      exact h.record candidate locked inGame

end Sampling

/-! ## The log -/

/-- The event is only about what is known of one client. -/
def Event.About (id : String) (event : Event) : Prop :=
  event = .fresh id ∨ ∃ sample, event = .sample id sample

/-- Events that are about clients say nothing else. -/
structure Quiet (events : List Event) : Prop where
  about : ∀ event ∈ events, ∃ id, event.About id

section Quiet

variable {events log : List Event}

theorem Quiet.append {γ : Type} {f : List Event → γ} (quiet : Quiet events)
    (fresh : ∀ id log, f (.fresh id :: log) = f log)
    (sample : ∀ id sample log, f (.sample id sample :: log) = f log) : f (events ++ log) = f log := by
  obtain ⟨about⟩ := quiet
  induction events with
  | nil => rfl
  | cons event events ih =>
    rw [List.cons_append]
    obtain ⟨id, rfl | ⟨s, rfl⟩⟩ := about event List.mem_cons_self
    · exact (fresh id _).trans (ih fun event mem => about event (List.mem_cons_of_mem _ mem))
    · exact (sample id s _).trans (ih fun event mem => about event (List.mem_cons_of_mem _ mem))

theorem since_other {id id' : String} {event : Event} (about : event.About id') (other : id' ≠ id) :
    since id (event :: log) = since id log := by
  rcases about with rfl | ⟨sample, rfl⟩
  · exact if_neg other
  · exact if_neg other

/-- One event at most for each client: the samples of a client only change by its own. -/
theorem since_events {f : String → TrackedClient → Option Event} (id : String) (log : List Event)
    (about : ∀ id client event, f id client = some event → event.About id)
    (clients : Table String TrackedClient) :
    since id ((clients.entries.filterMap fun entry => f entry.1 entry.2) ++ log) =
      since id (((clients.lookup id).bind (f id)).toList ++ log) := by
  obtain ⟨entries, distinct⟩ := clients
  change since id ((entries.filterMap fun entry => f entry.1 entry.2) ++ log) =
    since id (((entries.dlookup id).bind (f id)).toList ++ log)
  induction entries with
  | nil => rfl
  | cons entry entries ih =>
    obtain ⟨id', client⟩ := entry
    obtain ⟨new, distinct⟩ := List.nodupKeys_cons.mp distinct
    have rest := ih distinct
    rw [List.filterMap_cons]
    by_cases same : id = id'
    · subst same
      rw [List.dlookup_eq_none.mpr new] at rest
      rw [List.dlookup_cons_eq, Option.bind_some]
      cases mine : f id client with
      | none => exact rest
      | some event =>
        obtain rfl | ⟨sample, rfl⟩ := about id client event mine
        · exact (if_pos rfl).trans (if_pos rfl).symm
        · change (if id = id then sample :: since id _ else _) = if id = id then sample :: since id _ else _
          rw [if_pos rfl, if_pos rfl]
          exact congrArg (sample :: ·) rest
    · rw [List.dlookup_cons_ne _ _ same, ← rest]
      cases other : f id' client with
      | none => rfl
      | some event => exact since_other (about id' client event other) fun this => same this.symm

end Quiet

theorem samples_quiet (worker : PresenceWorker) (views : String → View) : Quiet (worker.samples views) where
  about := by
    intro event mem
    obtain ⟨entry, _, here⟩ := List.mem_filterMap.mp mem
    obtain ⟨sample, _, rfl⟩ := Option.map_eq_some_iff.mp here
    exact ⟨entry.1, .inr ⟨sample, rfl⟩⟩

theorem overridden_quiet (worker : PresenceWorker) (serverId : String) (overrides : AddressOverrides) :
    Quiet (worker.overridden serverId overrides) where
  about := by
    intro event mem
    obtain ⟨entry, _, here⟩ := List.mem_filterMap.mp mem
    split at here
    next =>
      cases here
      exact ⟨entry.1, .inl rfl⟩
    next => cases here

theorem since_samples (worker : PresenceWorker) (views : String → View) {id : String}
    {client : TrackedClient} (here : worker.clients.lookup id = some client) :
    since id (worker.samples views ++ worker.log) =
      (sampled client (views id)).toList ++ since id worker.log := by
  have each := since_events id worker.log (f := fun id client =>
    (sampled client (views id)).map (Event.sample id)) (fun id client event h => by
      obtain ⟨sample, _, rfl⟩ := Option.map_eq_some_iff.mp h
      exact .inr ⟨sample, rfl⟩) worker.clients
  rw [here, Option.bind_some] at each
  refine each.trans ?_
  cases sampled client (views id) with
  | none => rfl
  | some sample => exact if_pos rfl

theorem since_overridden (worker : PresenceWorker) (serverId : String) (overrides : AddressOverrides)
    {id : String} {client : TrackedClient} (here : worker.clients.lookup id = some client) :
    since id (worker.overridden serverId overrides ++ worker.log) =
      if client.serverId = serverId ∧ overridesApply client overrides = true then []
      else since id worker.log := by
  have each := since_events id worker.log (f := fun id client => if client.serverId = serverId ∧ overridesApply client overrides = true then
      some (Event.fresh id) else none) (fun id client event h => by
      split at h
      next =>
        cases h
        exact .inl rfl
      next => cases h) worker.clients
  rw [here, Option.bind_some] at each
  refine each.trans ?_
  split
  next => exact if_pos rfl
  next => rfl

/-- Everything that was sent was announced by the log in front of it. -/
def Honest : List Event → Prop
  | [] => True
  | .set activity _ :: log => Announces catalog log activity ∧ Honest log
  | .cleared _ :: log | .enabled _ :: log | .registered .. :: log | .unregistered _ :: log
  | .fresh _ :: log | .sample .. :: log | .stopped :: log => Honest log

theorem Honest.sent {later earlier : List Event} {activity : PresenceActivity}
    {result : Except String Unit} (honest : Honest catalog (later ++ .set activity result :: earlier)) :
    Announces catalog earlier activity := by
  induction later with
  | nil => exact honest.1
  | cons event later ih =>
    cases event with
    | set => exact ih honest.2
    | enabled | registered | unregistered | fresh | sample | cleared | stopped => exact ih honest

/-! ## Publications -/

namespace PresenceWorker

/-- What an attempt leaves: nothing was called, or the call was accepted or refused. -/
inductive Attempted (worker : PresenceWorker) (now : Nat) : PresenceWorker → Prop
  | quiet (nothing : worker.desired catalog = none) (hidden : worker.sentActivity = none) :
      Attempted worker now { worker with lastPublish := some now, sentActivity := none, lastError := none }
  | set {activity : PresenceActivity} (wanted : worker.desired catalog = some activity) :
      Attempted worker now { worker with
        lastPublish := some now
        sentActivity := some activity
        lastError := none
        log := .set activity (.ok ()) :: worker.log }
  | cleared (nothing : worker.desired catalog = none) :
      Attempted worker now { worker with
        lastPublish := some now, sentActivity := none, lastError := none, log := .cleared (.ok ()) :: worker.log }
  | setRefused {activity : PresenceActivity} {error : String}
      (wanted : worker.desired catalog = some activity) :
      Attempted worker now { worker with
        lastPublish := some now
        lastError := some error
        log := .set activity (.error error) :: worker.log }
  | clearRefused {error : String} (nothing : worker.desired catalog = none) :
      Attempted worker now { worker with
        lastPublish := some now, lastError := some error, log := .cleared (.error error) :: worker.log }

theorem attempted (worker : PresenceWorker) (answer : Answer) :
    Attempted catalog worker answer.now (worker.attempt catalog answer) := by
  obtain ⟨now, result⟩ := answer
  rw [attempt, call]
  cases wanted : worker.desired catalog with
  | some activity =>
    cases result with
    | ok done => exact .set wanted
    | error error => exact .setRefused wanted
  | none =>
    by_cases sent : worker.sentActivity.isSome = true
    · cases result with
      | ok done =>
        simp only [if_pos sent]
        exact .cleared wanted
      | error error =>
        simp only [if_pos sent]
        exact .clearRefused wanted
    · simp only [if_neg sent]
      exact .quiet wanted (Option.not_isSome_iff_eq_none.mp sent)

/-- A publication is left out only when it would say the same again, or soon after a failure. -/
theorem published (worker : PresenceWorker) (force : Bool) (answer : Answer) :
    worker.publish catalog force answer = worker.attempt catalog answer ∨
      worker.publish catalog force answer = worker ∧ force = false ∧
        (worker.desired catalog = worker.sentActivity ∨
          worker.lastError.isSome = true ∧ worker.retryDue answer.now = false) := by
  rw [publish]
  split
  next skip =>
    simp only [Bool.and_eq_true, Bool.not_eq_true', decide_eq_true_eq] at skip
    exact .inr ⟨rfl, skip.1.1.1, .inl skip.1.1.2⟩
  split
  next skip =>
    simp only [Bool.and_eq_true, Bool.not_eq_true'] at skip
    exact .inr ⟨rfl, skip.1.1.1, .inr ⟨skip.1.2, skip.2⟩⟩
  split
  next skip =>
    simp only [Bool.and_eq_true, Bool.not_eq_true', decide_eq_true_eq] at skip
    exact .inr ⟨rfl, skip.1.1.1, .inl skip.1.1.2⟩
  next => exact .inl rfl

/-- The worker is what the log says. -/
structure Inv (worker : PresenceWorker) : Prop where
  permitted : permitted worker.log = worker.enabled
  registered : registered worker.log = worker.clients.view fun _ client => client.serverName
  tracks : ∀ id client, worker.clients.lookup id = some client → Tracks client (since id worker.log)
  displayed : displayed worker.log = worker.sentActivity
  failing : worker.lastError.isSome = true → failing worker.log = true
  honest : Honest catalog worker.log
  going : Event.stopped ∉ worker.log

variable {catalog} {worker : PresenceWorker}

/-- What the worker wants to be shown, the log announces. -/
theorem Inv.announces (inv : Inv catalog worker) {activity : PresenceActivity}
    (wanted : worker.desired catalog = some activity) : Announces catalog worker.log activity := by
  rw [desired] at wanted
  split at wanted
  next enabled =>
    have on := inv.permitted.trans enabled
    have entries := congrArg AList.entries inv.registered
    rw [Table.entries_view] at entries
    have found : ∀ entry ∈ worker.clients.entries, worker.clients.lookup entry.1 = some entry.2 :=
      fun entry mem => AList.mem_lookup_iff.mpr mem
    rw [values] at wanted
    rcases here : worker.clients.entries with _ | ⟨⟨id, client⟩, _ | ⟨next, others⟩⟩
    · rw [here] at wanted
      cases wanted
    · rw [here] at wanted entries found
      obtain rfl : activityForClient catalog client = activity := Option.some.inj wanted
      have tracks := inv.tracks id client (found ⟨id, client⟩ List.mem_cons_self)
      exact .alone on entries tracks.snapshot fun snapshot shown => tracks.sound shown
    · have several : 2 ≤ worker.clients.entries.length := by
        rw [here, List.length_cons, List.length_cons]
        omega
      have crowded : aggregateActivity catalog (worker.clients.entries.map (·.2)) = some _ :=
        aggregate_crowd catalog (by rw [List.length_map]; exact several)
      rw [crowded] at wanted
      have many : Announces catalog worker.log _ := .many on (by rw [entries, List.length_map]; exact several)
      rw [entries, List.map_map] at many
      rw [List.map_map] at wanted
      exact Option.some.inj wanted ▸ many
  next => cases wanted

theorem Inv.new : Inv catalog .new where
  permitted := rfl
  registered := rfl
  tracks := fun id client here => by cases here
  displayed := rfl
  failing := fun failed => by cases failed
  honest := trivial
  going := List.not_mem_nil

theorem Inv.attempt (inv : Inv catalog worker) (answer : Answer) :
    Inv catalog (worker.attempt catalog answer) := by
  have going : ∀ event, event ≠ .stopped → Event.stopped ∉ event :: worker.log := fun event other mem =>
    (List.mem_cons.mp mem).elim (fun same => other same.symm) inv.going
  have done := attempted catalog worker answer
  generalize worker.attempt catalog answer = after at done
  cases done with
  | quiet nothing hidden => exact { inv with displayed := inv.displayed.trans hidden, failing := fun failed => by cases failed }
  | set wanted => exact { inv with
      displayed := rfl
      failing := fun failed => (by cases failed)
      honest := ⟨inv.announces wanted, inv.honest⟩
      going := going _ (by simp) }
  | cleared nothing => exact { inv with
      displayed := rfl, failing := fun failed => (by cases failed), going := going _ (by simp) }
  | setRefused wanted => exact { inv with
      failing := fun _ => rfl, honest := ⟨inv.announces wanted, inv.honest⟩, going := going _ (by simp) }
  | clearRefused nothing => exact { inv with failing := fun _ => rfl, going := going _ (by simp) }

theorem Inv.publish (inv : Inv catalog worker) (force : Bool) (answer : Answer) :
    Inv catalog (worker.publish catalog force answer) := by
  rcases published catalog worker force answer with after | ⟨after, _⟩
  · rw [after]
    exact inv.attempt answer
  · rw [after]
    exact inv

@[simp] theorem sampleClient_serverName (client : TrackedClient) (view : View) :
    (sampleClient client view).serverName = client.serverName := by
  rw [sampleClient]
  split
  next => rfl
  next =>
    rw [invalidateClient]
    split
    next => rfl
    next => rfl
  next profile snapshot _ =>
    rw [recordIngameSample]
    dsimp only
    split
    next => rfl
    next => rfl

@[simp] theorem applyOverridesToClient_serverName (client : TrackedClient) (overrides : AddressOverrides) :
    (applyOverridesToClient client overrides).serverName = client.serverName := by
  rw [applyOverridesToClient]
  split
  next => rfl
  next => rfl

/-- Events about clients, with the clients they leave. -/
theorem Inv.quiet (inv : Inv catalog worker) {events : List Event} (quiet : Quiet events)
    {f : String → TrackedClient → TrackedClient} (names : ∀ id client, (f id client).serverName = client.serverName)
    (tracks : ∀ id client, worker.clients.lookup id = some client →
      Tracks (f id client) (since id (events ++ worker.log))) :
    Inv catalog { worker with clients := worker.clients.view f, log := events ++ worker.log } where
  permitted := (quiet.append (f := Presence.permitted) (fun _ _ => rfl) fun _ _ _ => rfl).trans inv.permitted
  registered := by
    rw [Table.view_view, quiet.append (f := Presence.registered) (fun _ _ => rfl) fun _ _ _ => rfl,
      inv.registered]
    exact Table.view_congr fun id client _ => (names id client).symm
  tracks := by
    intro id client here
    rw [Table.lookup_view] at here
    obtain ⟨before, there, rfl⟩ := Option.map_eq_some_iff.mp here
    exact tracks id before there
  displayed := (quiet.append (f := Presence.displayed) (fun _ _ => rfl) fun _ _ _ => rfl).trans inv.displayed
  failing := fun failed =>
    (quiet.append (f := Presence.failing) (fun _ _ => rfl) fun _ _ _ => rfl).trans (inv.failing failed)
  honest := by
    rw [quiet.append (f := Honest catalog) (fun _ _ => rfl) fun _ _ _ => rfl]
    exact inv.honest
  going := by
    rw [quiet.append (f := fun log => Event.stopped ∉ log) (fun _ _ => by simp) fun _ _ _ => by simp]
    exact inv.going

theorem Inv.resample (inv : Inv catalog worker) (views : String → View) :
    Inv catalog (worker.resample views) := by
  refine inv.quiet (samples_quiet worker views) (fun id client => sampleClient_serverName client (views id)) ?_
  intro id client here
  rw [since_samples worker views here]
  exact (inv.tracks id client here).sample (views id)

theorem Inv.sampleClients (inv : Inv catalog worker) (outside : Outside) :
    Inv catalog (worker.sampleClients catalog outside) := by
  rw [PresenceWorker.sampleClients]
  split
  next => exact inv
  next => exact (inv.resample outside.views).publish false outside.afterSampling

theorem Inv.setEnabled (inv : Inv catalog worker) (enabled : Bool) :
    Inv catalog (worker.setEnabled enabled) :=
  { inv with permitted := rfl, going := by simpa [PresenceWorker.setEnabled] using inv.going }

/-- A client with the profiles that were resolved for it, and no samples. -/
theorem resolved_tracks {client : TrackedClient} {hashProfile : Option MemoryProfile}
    {overrides : AddressOverrides}
    (derived : client.derivedCandidates = (resolvePresenceMemoryProfiles hashProfile overrides).2)
    (fromHash : client.fromHash = client.profile.isSome) (snapshot : client.snapshot = none)
    (pending : client.pending = none) (misses : client.invalidSamples = 0) : Tracks client [] := by
  obtain ⟨hash, distinct, _⟩ := resolve_distinct hashProfile overrides
  have candidates : client.candidates =
      if client.profile.isSome then client.profile.toList else client.derivedCandidates := by
    rw [TrackedClient.candidates, fromHash]
  refine .fresh snapshot pending misses (fun p here => ?_) (fun h => fromHash.symm.trans h) ?_
  · rw [candidates, here]
    exact List.mem_singleton_self p
  · rw [candidates]
    cases here : client.profile with
    | none =>
      rw [derived]
      exact distinct
    | some p => exact List.nodup_singleton _

theorem Inv.register (inv : Inv catalog worker) (clientId serverId serverName : String)
    (identity : ProcessIdentity) (executable : Option Executable) (overrides : AddressOverrides) (unix : Int) :
    Inv catalog (worker.register profiles clientId serverId serverName identity executable overrides unix) where
  permitted := inv.permitted
  registered := by
    change (Presence.registered worker.log).insert clientId serverName = _
    rw [PresenceWorker.register, Table.view_insert, inv.registered]
  tracks := by
    intro id client here
    rw [PresenceWorker.register, Table.lookup_insert_of] at here
    change Tracks client (if clientId = id then [] else since id worker.log)
    split at here
    next same =>
      rw [if_pos same.symm]
      cases here
      exact resolved_tracks rfl rfl rfl rfl rfl
    next other =>
      rw [if_neg (Ne.symm other)]
      exact inv.tracks id client here
  displayed := inv.displayed
  failing := inv.failing
  honest := inv.honest
  going := by simpa [PresenceWorker.register] using inv.going

theorem Inv.applyOverrides (inv : Inv catalog worker) (serverId : String) (overrides : AddressOverrides) :
    Inv catalog (worker.applyOverrides serverId overrides) := by
  refine inv.quiet (overridden_quiet worker serverId overrides) (fun id client => ?_) fun id client here => ?_
  · split
    next => rfl
    next => exact applyOverridesToClient_serverName client overrides
  · rw [since_overridden worker serverId overrides here]
    by_cases mine : client.serverId = serverId
    · rw [if_neg (not_not.mpr mine), applyOverridesToClient]
      by_cases changed : overridesApply client overrides = true
      · rw [if_pos changed, if_pos ⟨mine, changed⟩]
        have derived : client.fromHash = false := by
          rw [overridesApply, Bool.and_eq_true, Bool.not_eq_true'] at changed
          exact changed.1
        have unknown := (resolve_distinct none overrides).1
        exact @resolved_tracks _ none overrides rfl
          (derived.trans (congrArg Option.isSome unknown.symm)) rfl rfl rfl
      · rw [if_neg changed, if_neg fun both => changed both.2]
        exact inv.tracks id client here
    · rw [if_pos mine, if_neg fun both => mine both.1]
      exact inv.tracks id client here

theorem Inv.handoff (inv : Inv catalog worker) (clientId : String) (identity : ProcessIdentity) :
    Inv catalog (worker.handoff clientId identity) := by
  have quiet : Quiet [Event.fresh clientId] := ⟨fun event mem => ⟨clientId, .inl (List.mem_singleton.mp mem)⟩⟩
  refine inv.quiet quiet (fun id client => ?_) fun id client here => ?_
  · split
    next => rfl
    next => rfl
  · have tracks := inv.tracks id client here
    change Tracks _ (if clientId = id then [] else since id worker.log)
    by_cases same : id = clientId
    · rw [if_pos same, if_pos same.symm]
      exact .fresh rfl rfl rfl tracks.known tracks.hashed tracks.distinct
    · rw [if_neg same, if_neg (Ne.symm same)]
      exact tracks

theorem Inv.unregister (inv : Inv catalog worker) (clientId : String) :
    Inv catalog (worker.unregister clientId) where
  permitted := inv.permitted
  registered := by
    change (Presence.registered worker.log).erase clientId = _
    rw [PresenceWorker.unregister, Table.view_erase, inv.registered]
  tracks := by
    intro id client here
    rw [PresenceWorker.unregister, Table.lookup_erase_of] at here
    split at here
    next => cases here
    next => exact inv.tracks id client here
  displayed := inv.displayed
  failing := inv.failing
  honest := inv.honest
  going := by simpa [PresenceWorker.unregister] using inv.going

/-- A command keeps the worker what the log says. -/
theorem Inv.handle (inv : Inv catalog worker) (command : PresenceCommand) (outside : Outside) :
    Inv catalog (worker.handle catalog profiles command outside).1 := by
  have told : ∀ {worker : PresenceWorker}, Inv catalog worker →
      Inv catalog ((worker.sampleClients catalog outside).publish catalog true outside.forced) :=
    fun inv => (inv.sampleClients outside).publish true outside.forced
  cases command with
  | setEnabled enabled =>
    cases enabled with
    | false => exact (inv.setEnabled false).publish true outside.forced
    | true => exact inv.setEnabled true
  | register clientId serverId serverName identity executable overrides =>
    exact told (inv.register profiles clientId serverId serverName identity executable overrides outside.unix)
  | applyOverrides serverId overrides =>
    rw [PresenceWorker.handle]
    split
    next => exact told (inv.applyOverrides serverId overrides)
    next => exact inv.applyOverrides serverId overrides
  | handoff clientId identity => exact told (inv.handoff clientId identity)
  | unregister clientId => exact (inv.unregister clientId).publish true outside.forced
  | shutdown => exact inv.publish true outside.forced

/-- The transport shows what is wanted, unless its last call failed. -/
def Settled (catalog : String → Option String) (worker : PresenceWorker) : Prop :=
  worker.desired catalog = worker.sentActivity ∨ worker.lastError.isSome = true

theorem attempt_settled (worker : PresenceWorker) (answer : Answer) :
    Settled catalog (worker.attempt catalog answer) := by
  have done := attempted catalog worker answer
  generalize worker.attempt catalog answer = after at done
  cases done with
  | quiet nothing hidden => exact .inl nothing
  | set wanted => exact .inl wanted
  | cleared nothing => exact .inl nothing
  | setRefused wanted => exact .inr rfl
  | clearRefused nothing => exact .inr rfl

theorem publish_settled (worker : PresenceWorker) (force : Bool) (answer : Answer) :
    Settled catalog (worker.publish catalog force answer) := by
  rcases published catalog worker force answer with after | ⟨after, _, same | ⟨failed, _⟩⟩
  · rw [after]
    exact attempt_settled worker answer
  · rw [after]
    exact .inl same
  · rw [after]
    exact .inr failed

/-- An attempt that is not refused. -/
theorem attempt_accepted (worker : PresenceWorker) {answer : Answer} (accepted : answer.result = .ok ()) :
    (worker.attempt catalog answer).desired catalog = (worker.attempt catalog answer).sentActivity := by
  have done := attempted catalog worker answer
  have clean : (worker.attempt catalog answer).lastError = none := by
    rw [attempt, call, accepted]
    cases worker.desired catalog with
    | some activity => rfl
    | none =>
      by_cases sent : worker.sentActivity.isSome = true
      · simp only [if_pos sent]
      · simp only [if_neg sent]
  generalize worker.attempt catalog answer = after at done clean
  cases done with
  | quiet nothing hidden => exact nothing
  | set wanted => exact wanted
  | cleared nothing => exact nothing
  | setRefused wanted => cases clean
  | clearRefused nothing => cases clean

theorem publish_accepted (worker : PresenceWorker) (force : Bool) {answer : Answer}
    (due : worker.retryDue answer.now = true) (accepted : answer.result = .ok ()) :
    (worker.publish catalog force answer).desired catalog =
      (worker.publish catalog force answer).sentActivity := by
  rcases published catalog worker force answer with after | ⟨after, _, same | ⟨_, early⟩⟩
  · rw [after]
    exact attempt_accepted worker accepted
  · rw [after]
    exact same
  · cases due.symm.trans early

/-- Between commands: what is shown is wanted, or nothing is shown since presence is enabled, or the
last call failed. -/
def Current (catalog : String → Option String) (worker : PresenceWorker) : Prop :=
  Settled catalog worker ∨ worker.enabled = true ∧ worker.sentActivity = none

theorem Current.sampleClients (current : Current catalog worker) (outside : Outside) :
    Current catalog (worker.sampleClients catalog outside) := by
  rw [PresenceWorker.sampleClients]
  split
  next => exact current
  next => exact .inl (publish_settled _ _ _)

theorem Current.enable (current : Current catalog worker) : Current catalog (worker.setEnabled true) := by
  rcases current with (same | failed) | ⟨_, hidden⟩
  · cases on : worker.enabled with
    | true =>
      refine .inl (.inl ?_)
      rw [desired, on] at same
      exact same
    | false =>
      rw [desired, on] at same
      exact .inr ⟨rfl, same.symm⟩
  · exact .inl (.inr failed)
  · exact .inr ⟨rfl, hidden⟩

/-- Overrides that change no client change nothing. -/
theorem applyOverrides_of_none {serverId : String} {overrides : AddressOverrides}
    (none : worker.overridden serverId overrides = []) : worker.applyOverrides serverId overrides = worker := by
  have same : (worker.clients.view fun _ client =>
      if client.serverId ≠ serverId then client else applyOverridesToClient client overrides) =
        worker.clients := by
    refine (Table.view_congr (g := fun _ client => client) fun id client here => ?_).trans ?_
    · by_cases mine : client.serverId = serverId
      · rw [if_neg (not_not.mpr mine), applyOverridesToClient, if_neg fun changed => ?_]
        have absent := List.filterMap_eq_nil_iff.mp none ⟨id, client⟩ (AList.mem_lookup_iff.mp here)
        rw [if_pos ⟨mine, changed⟩] at absent
        cases absent
      · rw [if_pos mine]
    · apply AList.ext
      simp
  rw [PresenceWorker.applyOverrides, same, none, List.nil_append]

theorem Current.handle (current : Current catalog worker) (command : PresenceCommand) (outside : Outside) :
    Current catalog (worker.handle catalog profiles command outside).1 := by
  cases command with
  | setEnabled enabled =>
    cases enabled with
    | false => exact .inl (publish_settled (worker.setEnabled false) true outside.forced)
    | true => exact current.enable
  | register | handoff | unregister | shutdown => exact .inl (publish_settled _ _ _)
  | applyOverrides serverId overrides =>
    rw [PresenceWorker.handle]
    split
    next => exact .inl (publish_settled _ _ _)
    next unchanged =>
      rw [applyOverrides_of_none (by simpa using unchanged)]
      exact current

end PresenceWorker

/-! ## Runs -/

section Runs

variable {catalog profiles} {acts : List (Input × Outside)} {s t : Service}

open PresenceWorker (Inv Current)

/-- The service in between: the worker is what the log says, and it has stopped once at most. -/
structure Service.Sound (catalog : String → Option String) (service : Service) : Prop where
  inv : ∃ worker, Inv catalog worker ∧ Current catalog worker ∧
    (service = ⟨worker, true⟩ ∨ service = .ended worker)

theorem Service.Sound.step {act : Input × Outside} (sound : s.Sound catalog)
    (done : runWorker catalog profiles act s = some t) : t.Sound catalog := by
  obtain ⟨⟨worker, inv, current, rfl | rfl⟩⟩ := sound
  · obtain ⟨input, outside⟩ := act
    cases input with
    | command command =>
      have next := inv.handle profiles command outside
      have still := current.handle profiles command outside
      have same : (if (worker.handle catalog profiles command outside).2 then
          ⟨(worker.handle catalog profiles command outside).1, true⟩
        else .ended (worker.handle catalog profiles command outside).1) = t := Option.some.inj done
      split at same
      next => exact ⟨_, next, still, .inl same.symm⟩
      next => exact ⟨_, next, still, .inr same.symm⟩
    | timeout =>
      obtain rfl := Option.some.inj done
      exact ⟨_, inv.sampleClients outside, current.sampleClients outside, .inl rfl⟩
    | disconnected =>
      obtain rfl := Option.some.inj done
      exact ⟨_, inv.publish true outside.forced, .inl (PresenceWorker.publish_settled _ _ _), .inr rfl⟩
  · cases done

theorem Service.Sound.run (run : Run (runWorker catalog profiles) (fun _ _ => True) .new acts s) :
    s.Sound catalog :=
  run.invariant (I := fun s => s.Sound catalog) (fun _ _ _ sound _ done => sound.step done)
    ⟨_, Inv.new, .inl (.inl rfl), .inl rfl⟩

theorem Announces.presentable {log : List Event} {activity : PresenceActivity}
    (announced : Announces catalog log activity) (few : (registered log).entries.length < 2 ^ 64) :
    activity.Presentable := by
  cases announced with
  | alone => exact activityForClient_presentable catalog _
  | many => exact crowd_presentable (by rw [List.length_map]; exact few)

/-- Whatever the commands, the memory and the transport: what is sent is sent by a worker that has not
stopped, while presence is enabled and a client is registered; it names no more than is confirmed of a
client on its own, and its texts can be shown. -/
theorem sent_confirmed (run : Run (runWorker catalog profiles) (fun _ _ => True) .new acts s)
    {later earlier : List Event} {activity : PresenceActivity} {result : Except String Unit}
    (sent : s.worker.log = later ++ .set activity result :: earlier) :
    Event.stopped ∉ earlier ∧ Announces catalog earlier activity ∧
      ((registered earlier).entries.length < 2 ^ 64 → activity.Presentable) := by
  obtain ⟨⟨worker, inv, _, rfl | rfl⟩⟩ := Service.Sound.run run
  · have log : worker.log = later ++ .set activity result :: earlier := sent
    have honest := inv.honest
    have going := inv.going
    rw [log] at honest going
    have announced := honest.sent catalog
    exact ⟨fun mem => going (List.mem_append_right _ (List.mem_cons_of_mem _ mem)), announced,
      announced.presentable⟩
  · have log : .stopped :: worker.log = later ++ .set activity result :: earlier := sent
    cases later with
    | nil => cases log
    | cons event later =>
      obtain ⟨_, log⟩ := List.cons.inj log
      have honest := inv.honest
      have going := inv.going
      rw [log] at honest going
      have announced := honest.sent catalog
      exact ⟨fun mem => going (List.mem_append_right _ (List.mem_cons_of_mem _ mem)), announced,
        announced.presentable⟩

/-- Between commands the transport shows what is wanted, or nothing since presence is enabled, or its
last call failed; a sampling that comes a retry interval after the last publication and reaches the
transport brings it up to date. -/
theorem displayed_current (run : Run (runWorker catalog profiles) (fun _ _ => True) .new acts s)
    (running : s.running = true) :
    (displayed s.worker.log = s.worker.desired catalog ∨
      s.worker.enabled = true ∧ displayed s.worker.log = none ∨ failing s.worker.log = true) ∧
    ∀ outside t, s.worker.enabled = true → runWorker catalog profiles (.timeout, outside) s = some t →
      (∀ last, s.worker.lastPublish = some last → RETRY_INTERVAL ≤ outside.afterSampling.now - last) →
      outside.afterSampling.result = .ok () → displayed t.worker.log = t.worker.desired catalog := by
  obtain ⟨⟨worker, inv, current, rfl | rfl⟩⟩ := Service.Sound.run run
  · refine ⟨?_, fun outside t enabled done due accepted => ?_⟩
    · rcases current with (same | failed) | ⟨on, hidden⟩
      · exact .inl (inv.displayed.trans same.symm)
      · exact .inr (.inr (inv.failing failed))
      · exact .inr (.inl ⟨on, inv.displayed.trans hidden⟩)
    · have after := inv.sampleClients outside
      obtain rfl := Option.some.inj done
      have retry : (worker.resample outside.views).retryDue outside.afterSampling.now = true := by
        rw [PresenceWorker.retryDue, Option.all_eq_true]
        exact fun last published => decide_eq_true (due last published)
      have on : (!worker.enabled) = false := by rw [show worker.enabled = true from enabled]; rfl
      rw [PresenceWorker.sampleClients, on] at after ⊢
      exact after.displayed.trans (PresenceWorker.publish_accepted _ false retry accepted).symm
  · cases running

end Runs

/-! ## A client that is confirmed -/

section Sample

def noLabels : String → Option String := fun _ => none

/-- Memory that reads alike at every address. -/
def heroMemory : MemoryReader where
  readU32 _ := some 10
  readString _ _ := some "hero"

def heroView : View where
  before := true
  session := some true
  mapped _ := true
  memory _ := heroMemory
  after := true
  unix := 0

def heroOutside (now : Nat) : Outside where
  views _ := heroView
  unix := 0
  afterSampling := ⟨now, .ok ()⟩
  forced := ⟨now, .ok ()⟩

def heroAddresses : AddressOverrides :=
  { name := some 0x1000, hp := none, level := some 0x1004, job := some 0x1008, map := some 0x100c }

/-- Presence is enabled, the client is registered and read once more. -/
def heroActs : List (Input × Outside) :=
  [(.command (.setEnabled true), heroOutside 0),
    (.command (.register "one" "honey" "HoneyRO" ⟨1, 1⟩ none heroAddresses), heroOutside 0),
    (.timeout, heroOutside 2000)]

def heroService : Service :=
  heroActs.foldl (fun service act => (runWorker noLabels [] act service).getD service) .new

theorem hero_run : Run (runWorker noLabels []) (fun _ _ => True) .new heroActs heroService :=
  .cons trivial rfl (.cons trivial rfl (.cons trivial rfl .nil))

theorem hero_log : ∃ activity earlier, activity.details = "hero · Nv. 10/10" ∧
    heroService.worker.log = [] ++ .set activity (.ok ()) :: earlier :=
  ⟨_, _, by decide +kernel, rfl⟩

theorem sent_confirmed_hero : ∃ activity earlier, activity.details = "hero · Nv. 10/10" ∧
    Event.stopped ∉ earlier ∧ Announces noLabels earlier activity ∧
      ((registered earlier).entries.length < 2 ^ 64 → activity.Presentable) := by
  obtain ⟨activity, earlier, details, log⟩ := hero_log
  exact ⟨activity, earlier, details, sent_confirmed hero_run log⟩

theorem displayed_current_hero : ∃ t, runWorker noLabels [] (.timeout, heroOutside 9000) heroService = some t ∧
    displayed t.worker.log = t.worker.desired noLabels := by
  have last : heroService.worker.lastPublish = some 2000 := rfl
  refine ⟨_, rfl, (displayed_current hero_run rfl).2 (heroOutside 9000) _ rfl rfl (fun n here => ?_) rfl⟩
  cases last.symm.trans here
  decide

end Sample

end RoLauncher.Presence
