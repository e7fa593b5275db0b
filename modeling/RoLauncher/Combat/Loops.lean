import RoLauncher.Autobuff.Engine
import RoLauncher.Autopot.Engine

/-!
# The loops of the combat tools (`tools/autopot/loop_runner.rs`, `tools/autobuff/loop_runner.rs`)

Each tool runs a loop that waits for ticks, new configurations, hand-offs to
another process and the request to stop. Its status is behind a mutex, which is
locked to read the last status and again to replace it. A guard that is
not bound to a name lives until the end of its statement; a thread that locks the
mutex while it holds it waits for itself, and here that has no result.

The reports of the engines are inputs, as are the sessions that hand-offs find.
What is written to the log is left out, and so are the engines' own states.
-/

namespace RoLauncher.Combat

open Autopot (AutopotConfig AutopotTick)
open Autobuff (AutobuffConfig AutobuffTick)

/-! ## The status mutex -/

/-- The mutex of a status as its loop sees it, and the events that were emitted. -/
structure Shared (σ : Type) where
  status : σ
  held : Bool
  emitted : List σ

/-- What a loop does: none where it waits for a guard of its own. -/
abbrev LoopM (σ : Type) := StateT (Shared σ) Option

section Mutex

variable {σ α : Type}

/-- The mutex before a loop starts. -/
def Shared.free (status : σ) : Shared σ := ⟨status, false, []⟩

@[simp] theorem Shared.free_held (status : σ) : (Shared.free status).held = false := rfl

/-- `lock().unwrap()`, with what the guard shows. -/
def lock : LoopM σ σ := fun shared =>
  if shared.held then none else some (shared.status, { shared with held := true })

def drop : LoopM σ Unit := fun shared => some ((), { shared with held := false })

/-- A statement drops the guards it has made. -/
def statement (body : LoopM σ α) : LoopM σ α := fun shared =>
  (body shared).map fun done => (done.1, { done.2 with held := shared.held })

def store (status : σ) : LoopM σ Unit := fun shared => some ((), { shared with status })

def emit (event : σ) : LoopM σ Unit := fun shared =>
  some ((), { shared with emitted := shared.emitted ++ [event] })

def emitStatusIfChanged [DecidableEq σ] (event : σ) : LoopM σ Unit := do
  let prev ← lock
  if prev ≠ event then
    store event
    drop
    emit event
  else drop

end Mutex

/-! ## What the loops are told -/

inductive MemoryAccess
  | processVmReadv
  | procMem
  | noReadableWritableRegion
  | outsideSupervisor
  | yamaDenied
  | processExitedOrReused
  | backendError
  deriving DecidableEq, Repr

inductive ProfileMemory
  | notConfigured
  | addressUnmapped
  | invalidRead
  | valid
  deriving DecidableEq, Repr

namespace MemoryAccess

def usable : MemoryAccess → Bool
  | .processVmReadv | .procMem => true
  | _ => false

def label : MemoryAccess → String
  | .processVmReadv => "Disponible mediante process_vm_readv"
  | .procMem => "Disponible mediante /proc/<pid>/mem"
  | .noReadableWritableRegion => "Sin región legible/escribible para preflight"
  | .outsideSupervisor => "Proceso fuera del supervisor"
  | .yamaDenied => "Permiso denegado por Yama"
  | .processExitedOrReused => "Proceso terminado o PID reutilizado"
  | .backendError => "Backend de memoria no disponible"

end MemoryAccess

def MEMORY_SESSION_MISSING : String :=
  "Sesión de memoria no registrada; cierra el juego y relánzalo desde RO-Launcher."

def MEMORY_RELAY_ACTION : String := "Cierra las instancias antiguas y relanza el juego desde RO-Launcher."

def memoryStartError (access : MemoryAccess) : String := access.label ++ " " ++ MEMORY_RELAY_ACTION

/-- A session of the registry, as far as a loop asks it. -/
structure MemorySession where
  access : MemoryAccess
  profileMemory : Option UInt32 → ProfileMemory

/-- What the loop waits for. Of a channel it gets the new value, or none when the other end is gone;
of an identity, the session the registry has for it. -/
inductive Event (Config Tick : Type)
  | tick (result : Except String Tick)
  | config (changed : Option Config)
  | identity (changed : Option (Option MemorySession))
  | metrics
  | stop (changed : Option Bool)

/-- The variables of a loop. -/
structure LoopState (Config : Type) where
  current : Config
  hpBase : UInt32
  memoryAccess : MemoryAccess
  profileMemory : ProfileMemory

/-- The loop goes on with these variables, or is left. -/
inductive Flow (Config : Type)
  | again (state : LoopState Config)
  | leave

section Loop

variable {Config Tick σ : Type}

/-- The error of a tick that cannot read the memory. -/
def LoopState.unreadable (state : LoopState Config) : Option String :=
  if !state.memoryAccess.usable then some (memoryStartError state.memoryAccess)
  else if state.profileMemory ≠ .valid then some "La dirección de memoria del perfil no es válida"
  else none

def LoopState.found (state : LoopState Config) (session : MemorySession) : LoopState Config :=
  { state with
    memoryAccess := session.access
    profileMemory := session.profileMemory (some state.hpBase) }

def LoopState.missing (state : LoopState Config) : LoopState Config :=
  { state with
    memoryAccess := .processExitedOrReused
    profileMemory := .invalidRead }

/-- `loop { tokio::select! { .. } }` and what follows it: true when it has been left. -/
def runLoop (handle : Event Config Tick → LoopState Config → LoopM σ (Flow Config))
    (finish : LoopState Config → LoopM σ Unit) :
    List (Event Config Tick) → LoopState Config → LoopM σ Bool
  | [], _ => return false
  | event :: events, state => do
    match ← handle event state with
    | .again state => runLoop handle finish events state
    | .leave =>
      finish state
      return true

end Loop

/-! ## AutoPot -/

structure AutopotStatusEvent where
  active : Bool
  effectiveDelayMs : UInt64
  curHp : UInt32
  maxHp : UInt32
  curSp : UInt32
  maxSp : UInt32
  hpPercent : UInt32
  spPercent : UInt32
  characterName : String
  error : Option String
  memoryAccess : Option MemoryAccess
  profileMemory : Option ProfileMemory
  deriving DecidableEq

namespace Autopot

def idle : AutopotStatusEvent :=
  ⟨false, AutopotConfig.default.delayMs, 0, 0, 0, 0, AutopotConfig.default.hpPercent,
    AutopotConfig.default.spPercent, "", none, none, none⟩

/-- The fields that every status takes from the loop. -/
def shows (state : LoopState AutopotConfig) (active : Bool) (error : Option String)
    (base : AutopotStatusEvent) : AutopotStatusEvent :=
  { base with
    active
    effectiveDelayMs := state.current.delayMs
    hpPercent := state.current.hpPercent
    spPercent := state.current.spPercent
    error
    memoryAccess := some state.memoryAccess
    profileMemory := some state.profileMemory }

def onTick (state : LoopState AutopotConfig) (result : Except String AutopotTick) :
    LoopM AutopotStatusEvent Unit :=
  match state.unreadable with
  | some error => do
    let prev ← statement lock
    statement (emitStatusIfChanged (shows state true (some error) prev))
  | none =>
    match result with
    | .ok tick =>
      statement (emitStatusIfChanged (shows state true none
        { idle with
          curHp := tick.curHp
          maxHp := tick.maxHp
          curSp := tick.curSp
          maxSp := tick.maxSp
          characterName := tick.characterName }))
    | .error message => do
      let prev ← statement lock
      statement (emitStatusIfChanged (shows state true (some message) prev))

def handle : Event AutopotConfig AutopotTick → LoopState AutopotConfig →
    LoopM AutopotStatusEvent (Flow AutopotConfig)
  | .tick result, state => do
    onTick state result
    return .again state
  | .config (some config), state => return .again { state with current := config.clamped }
  | .config none, state => return .again state
  | .identity (some (some session)), state => return .again (state.found session)
  | .identity (some none), state => do
    -- `..status_arc.lock().unwrap().clone()` stands in the argument
    statement do
      let base ← lock
      emitStatusIfChanged (shows state.missing true (some MEMORY_SESSION_MISSING) base)
    return .again state.missing
  | .identity none, state => return .again state
  | .metrics, state => return .again state
  | .stop (some true), _ => return .leave
  | .stop _, state => return .again state

def finish (state : LoopState AutopotConfig) : LoopM AutopotStatusEvent Unit :=
  statement (emitStatusIfChanged (shows state false none idle))

def run : List (Event AutopotConfig AutopotTick) → LoopState AutopotConfig →
    LoopM AutopotStatusEvent Bool := runLoop handle finish

end Autopot

/-! ## AutoBuff -/

structure AutobuffStatusEvent where
  active : Bool
  activeStatuses : Nat
  lastAppliedRule : Option String
  delayMs : UInt64
  error : Option String
  memoryAccess : Option MemoryAccess
  profileMemory : Option ProfileMemory
  deriving DecidableEq

namespace Autobuff

/-- The status of a loop that shows these. -/
def shows (state : LoopState AutobuffConfig) (active : Bool) (activeStatuses : Nat)
    (lastAppliedRule error : Option String) : AutobuffStatusEvent :=
  ⟨active, activeStatuses, lastAppliedRule, state.current.delayMs, error, some state.memoryAccess,
    some state.profileMemory⟩

def onTick (state : LoopState AutobuffConfig) (result : Except String AutobuffTick) :
    LoopM AutobuffStatusEvent Unit :=
  match state.unreadable with
  | some error => statement (emitStatusIfChanged (shows state true 0 none (some error)))
  | none =>
    match result with
    | .ok tick => statement (emitStatusIfChanged (shows state true tick.activeStatuses tick.appliedRule none))
    | .error message => statement (emitStatusIfChanged (shows state true 0 none (some message)))

def handle : Event AutobuffConfig AutobuffTick → LoopState AutobuffConfig →
    LoopM AutobuffStatusEvent (Flow AutobuffConfig)
  | .tick result, state => do
    onTick state result
    return .again state
  | .config (some config), state => return .again { state with current := config }
  | .config none, state => return .again state
  | .identity (some (some session)), state => return .again (state.found session)
  | .identity (some none), state => do
    statement (emitStatusIfChanged (shows state.missing true 0 none (some MEMORY_SESSION_MISSING)))
    return .again state.missing
  | .identity none, state => return .again state
  | .metrics, state => return .again state
  | .stop (some true), _ => return .leave
  | .stop _, state => return .again state

def finish (state : LoopState AutobuffConfig) : LoopM AutobuffStatusEvent Unit :=
  statement (emitStatusIfChanged (shows state false 0 none none))

def run : List (Event AutobuffConfig AutobuffTick) → LoopState AutobuffConfig →
    LoopM AutobuffStatusEvent Bool := runLoop handle finish

end Autobuff

/-! ## What the loops wait for -/

namespace Event

variable {Config Tick : Type}

def stops : Event Config Tick → Bool
  | .stop (some true) => true
  | _ => false

/-- A hand-off to an identity whose session is gone. -/
def isLost : Event Config Tick → Bool
  | .identity (some none) => true
  | _ => false

end Event

/-- What arrives before the request to stop. -/
def beforeStop {Config Tick : Type} (events : List (Event Config Tick)) : List (Event Config Tick) :=
  events.takeWhile fun event => !event.stops

section Waiting

variable {Config Tick σ : Type}

theorem statement_lock {shared : Shared σ} (free : shared.held = false) :
    statement lock shared = some (shared.status, shared) := by
  obtain ⟨status, held, emitted⟩ := shared
  cases free
  rfl

/-- Reporting a status leaves it there, and drops the guard. -/
theorem statement_emit [DecidableEq σ] (event : σ) {shared : Shared σ} (free : shared.held = false) :
    ∃ after, statement (emitStatusIfChanged event) shared = some ((), after) ∧
      after.held = false ∧ after.status = event := by
  obtain ⟨status, held, emitted⟩ := shared
  cases free
  by_cases same : status = event
  · refine ⟨⟨status, false, emitted⟩, ?_, rfl, same⟩
    simp [statement, emitStatusIfChanged, lock, drop, bind, StateT.bind, same]
  · refine ⟨⟨event, false, emitted ++ [event]⟩, ?_, rfl, rfl⟩
    simp [statement, emitStatusIfChanged, lock, drop, store, emit, bind, StateT.bind, same]

/-- A status that is reported while a guard of the same statement lives waits for it. -/
theorem statement_lock_emit [DecidableEq σ] (event : σ → σ) (shared : Shared σ) :
    statement (lock >>= fun base => emitStatusIfChanged (event base)) shared = none := by
  obtain ⟨status, held, emitted⟩ := shared
  cases held with
  | false => rfl
  | true => rfl

/-- What an event does when the loop holds no guard: it is handled and drops every guard, and ends
the loop when it is the request to stop; or it waits for a guard of its own. -/
structure Handles (handle : Event Config Tick → LoopState Config → LoopM σ (Flow Config))
    (lost : Event Config Tick → Bool) : Prop where
  waits : ∀ event (state : LoopState Config) (shared : Shared σ), shared.held = false →
    lost event = true → handle event state shared = none
  stops : ∀ event (state : LoopState Config) (shared : Shared σ), shared.held = false →
    event.stops = true → ∃ after, handle event state shared = some (.leave, after) ∧ after.held = false
  goes : ∀ event (state : LoopState Config) (shared : Shared σ), shared.held = false →
    lost event = false → event.stops = false →
      ∃ state' after, handle event state shared = some (.again state', after) ∧ after.held = false

section Rounds

variable {handle : Event Config Tick → LoopState Config → LoopM σ (Flow Config)}
  {finish : LoopState Config → LoopM σ Unit} {event : Event Config Tick}
  {events : List (Event Config Tick)} {state state' : LoopState Config} {shared after : Shared σ}

theorem runLoop_waits (waiting : handle event state shared = none) :
    runLoop handle finish (event :: events) state shared = none := by
  show (handle event state shared).bind _ = none
  rw [waiting]
  rfl

theorem runLoop_again (handled : handle event state shared = some (.again state', after)) :
    runLoop handle finish (event :: events) state shared = runLoop handle finish events state' after := by
  show (handle event state shared).bind _ = _
  rw [handled]
  rfl

theorem runLoop_leave (handled : handle event state shared = some (.leave, after)) :
    runLoop handle finish (event :: events) state shared =
      (finish state after).map fun done => (true, done.2) := by
  show (handle event state shared).bind _ = _
  rw [handled]
  show (finish state after).bind _ = _
  cases finish state after with
  | none => rfl
  | some done => rfl

end Rounds

theorem beforeStop_stop {event : Event Config Tick} (events : List (Event Config Tick))
    (stop : event.stops = true) : beforeStop (event :: events) = [] := by
  rw [beforeStop, List.takeWhile_cons, stop]
  rfl

theorem beforeStop_other {event : Event Config Tick} (events : List (Event Config Tick))
    (other : event.stops = false) : beforeStop (event :: events) = event :: beforeStop events := by
  rw [beforeStop, List.takeWhile_cons, other]
  rfl

/-- **The loop** holds no guard between its events. -/
theorem runLoop_spec {handle : Event Config Tick → LoopState Config → LoopM σ (Flow Config)}
    {finish : LoopState Config → LoopM σ Unit} {lost : Event Config Tick → Bool}
    (left : σ → Prop) (handles : Handles handle lost)
    (finishes : ∀ state shared, shared.held = false → ∃ after, finish state shared = some ((), after) ∧
      after.held = false ∧ left after.status)
    (events : List (Event Config Tick)) (state : LoopState Config) {shared : Shared σ}
    (free : shared.held = false) :
    (runLoop handle finish events state shared = none ↔ ∃ event ∈ beforeStop events, lost event = true) ∧
      ∀ ended after, runLoop handle finish events state shared = some (ended, after) →
        after.held = false ∧ (ended = true ↔ ∃ event ∈ events, event.stops = true) ∧
          (ended = true → left after.status) := by
  induction events generalizing state shared with
  | nil =>
    refine ⟨iff_of_false (fun never => by cases never) ?_, fun ended after same => ?_⟩
    · rintro ⟨event, never, -⟩
      cases never
    · cases same
      refine ⟨free, iff_of_false Bool.false_ne_true ?_, fun never => by cases never⟩
      rintro ⟨event, never, -⟩
      cases never
  | cons event events ih =>
    cases stop : event.stops with
    | true =>
      obtain ⟨after, handled, dropped⟩ := handles.stops event state shared free stop
      obtain ⟨last, finished, free', inactive⟩ := finishes state after dropped
      rw [runLoop_leave handled, finished, beforeStop_stop events stop]
      refine ⟨iff_of_false (fun never => by cases never) ?_, fun ended shared' same => ?_⟩
      · rintro ⟨event, never, -⟩
        cases never
      · cases same
        exact ⟨free', iff_of_true rfl ⟨event, List.mem_cons_self .., stop⟩, fun _ => inactive⟩
    | false =>
      rw [beforeStop_other events stop]
      cases waiting : lost event with
      | true =>
        rw [runLoop_waits (handles.waits event state shared free waiting)]
        exact ⟨iff_of_true rfl ⟨event, List.mem_cons_self .., waiting⟩,
          fun ended after never => by cases never⟩
      | false =>
        obtain ⟨state', after, handled, dropped⟩ := handles.goes event state shared free waiting stop
        obtain ⟨blocked, done⟩ := ih state' dropped
        rw [runLoop_again handled, blocked]
        refine ⟨?_, fun ended shared' same => ?_⟩
        · simp only [List.mem_cons, exists_eq_or_imp, waiting, Bool.false_eq_true, false_or]
        · obtain ⟨free', stopped, left⟩ := done ended shared' same
          refine ⟨free', stopped.trans ?_, left⟩
          simp only [List.mem_cons, exists_eq_or_imp, stop, Bool.false_eq_true, false_or]

end Waiting

/-! ## The two loops -/

theorem Autopot.onTick_drops (state : LoopState AutopotConfig) (result : Except String AutopotTick)
    {shared : Shared AutopotStatusEvent} (free : shared.held = false) :
    ∃ after, Autopot.onTick state result shared = some ((), after) ∧ after.held = false := by
  -- the status is read in a statement of its own
  have rereads (event : AutopotStatusEvent → AutopotStatusEvent) : ∃ after,
      (statement lock >>= fun prev => statement (emitStatusIfChanged (event prev))) shared =
        some ((), after) ∧ after.held = false := by
    obtain ⟨after, done, dropped, -⟩ := statement_emit (event shared.status) free
    refine ⟨after, ?_, dropped⟩
    show (statement lock shared).bind _ = _
    rw [statement_lock free]
    exact done
  cases readable : state.unreadable with
  | some error =>
    unfold Autopot.onTick
    rw [readable]
    exact rereads fun prev => Autopot.shows state true (some error) prev
  | none =>
    cases result with
    | ok tick =>
      obtain ⟨after, done, dropped, -⟩ := statement_emit (Autopot.shows state true none
        { Autopot.idle with
          curHp := tick.curHp
          maxHp := tick.maxHp
          curSp := tick.curSp
          maxSp := tick.maxSp
          characterName := tick.characterName }) free
      unfold Autopot.onTick
      rw [readable]
      exact ⟨after, done, dropped⟩
    | error message =>
      unfold Autopot.onTick
      rw [readable]
      exact rereads fun prev => Autopot.shows state true (some message) prev

theorem Autobuff.onTick_drops (state : LoopState AutobuffConfig) (result : Except String AutobuffTick)
    {shared : Shared AutobuffStatusEvent} (free : shared.held = false) :
    ∃ after, Autobuff.onTick state result shared = some ((), after) ∧ after.held = false := by
  have emits (event : AutobuffStatusEvent) : ∃ after,
      statement (emitStatusIfChanged event) shared = some ((), after) ∧ after.held = false := by
    obtain ⟨after, done, dropped, -⟩ := statement_emit event free
    exact ⟨after, done, dropped⟩
  cases readable : state.unreadable with
  | some error =>
    unfold Autobuff.onTick
    rw [readable]
    exact emits _
  | none =>
    cases result with
    | ok tick =>
      unfold Autobuff.onTick
      rw [readable]
      exact emits _
    | error message =>
      unfold Autobuff.onTick
      rw [readable]
      exact emits _

theorem Autopot.handles : Handles Autopot.handle Event.isLost where
  waits event state shared free lost := by
    cases event with
    | identity changed =>
      cases changed with
      | some session =>
        cases session with
        | none =>
          show (statement _ shared).bind _ = none
          rw [statement_lock_emit fun base =>
            Autopot.shows state.missing true (some MEMORY_SESSION_MISSING) base]
          rfl
        | some session => cases lost
      | none => cases lost
    | tick | config | metrics | stop => cases lost
  stops event state shared free stop := by
    cases event with
    | stop changed =>
      cases changed with
      | some value =>
        cases value with
        | true => exact ⟨shared, rfl, free⟩
        | false => cases stop
      | none => cases stop
    | tick | config | metrics | identity => cases stop
  goes event state shared free lost stop := by
    cases event with
    | tick result =>
      obtain ⟨after, done, dropped⟩ := Autopot.onTick_drops state result free
      refine ⟨state, after, ?_, dropped⟩
      show (Autopot.onTick state result shared).bind _ = _
      rw [done]
      rfl
    | config changed =>
      cases changed with
      | some config => exact ⟨_, shared, rfl, free⟩
      | none => exact ⟨_, shared, rfl, free⟩
    | identity changed =>
      cases changed with
      | some session =>
        cases session with
        | some session => exact ⟨_, shared, rfl, free⟩
        | none => cases lost
      | none => exact ⟨_, shared, rfl, free⟩
    | metrics => exact ⟨_, shared, rfl, free⟩
    | stop changed =>
      cases changed with
      | some value =>
        cases value with
        | true => cases stop
        | false => exact ⟨_, shared, rfl, free⟩
      | none => exact ⟨_, shared, rfl, free⟩

theorem Autobuff.handles : Handles Autobuff.handle fun _ => false where
  waits event state shared free never := by cases never
  stops event state shared free stop := by
    cases event with
    | stop changed =>
      cases changed with
      | some value =>
        cases value with
        | true => exact ⟨shared, rfl, free⟩
        | false => cases stop
      | none => cases stop
    | tick | config | metrics | identity => cases stop
  goes event state shared free _ stop := by
    cases event with
    | tick result =>
      obtain ⟨after, done, dropped⟩ := Autobuff.onTick_drops state result free
      refine ⟨state, after, ?_, dropped⟩
      show (Autobuff.onTick state result shared).bind _ = _
      rw [done]
      rfl
    | config changed =>
      cases changed with
      | some config => exact ⟨_, shared, rfl, free⟩
      | none => exact ⟨_, shared, rfl, free⟩
    | identity changed =>
      cases changed with
      | some session =>
        cases session with
        | some session => exact ⟨_, shared, rfl, free⟩
        | none =>
          obtain ⟨after, done, dropped, -⟩ := statement_emit
            (Autobuff.shows state.missing true 0 none (some MEMORY_SESSION_MISSING)) free
          refine ⟨state.missing, after, ?_, dropped⟩
          show (statement _ shared).bind _ = _
          rw [done]
          rfl
      | none => exact ⟨_, shared, rfl, free⟩
    | metrics => exact ⟨_, shared, rfl, free⟩
    | stop changed =>
      cases changed with
      | some value =>
        cases value with
        | true => cases stop
        | false => exact ⟨_, shared, rfl, free⟩
      | none => exact ⟨_, shared, rfl, free⟩

theorem Autopot.finish_inactive (state : LoopState AutopotConfig) {shared : Shared AutopotStatusEvent}
    (free : shared.held = false) : ∃ after, Autopot.finish state shared = some ((), after) ∧
      after.held = false ∧ after.status.active = false := by
  obtain ⟨after, finished, dropped, same⟩ :=
    statement_emit (Autopot.shows state false none Autopot.idle) free
  refine ⟨after, finished, dropped, ?_⟩
  rw [same]
  rfl

theorem Autobuff.finish_inactive (state : LoopState AutobuffConfig) {shared : Shared AutobuffStatusEvent}
    (free : shared.held = false) : ∃ after, Autobuff.finish state shared = some ((), after) ∧
      after.held = false ∧ after.status.active = false := by
  obtain ⟨after, finished, dropped, same⟩ :=
    statement_emit (Autobuff.shows state false 0 none none) free
  refine ⟨after, finished, dropped, ?_⟩
  rw [same]
  rfl

/-- How a run of a loop ends that is not left waiting: it holds no guard, it has ended exactly when it
was asked to, and then its status is inactive. -/
structure Ends {Config Tick σ : Type} (events : List (Event Config Tick)) (active : σ → Bool)
    (ended : Bool) (after : Shared σ) : Prop where
  dropped : after.held = false
  asked : ended = true ↔ ∃ event ∈ events, event.stops = true
  inactive : ended = true → active after.status = false

/-- **The loops and their locks**: the loop of AutoPot waits for itself exactly when a hand-off to an
identity whose session is gone arrives before the request to stop; the loop of AutoBuff never does. -/
theorem loops_wait_only_for_lost (events : List (Event AutopotConfig AutopotTick))
    (state : LoopState AutopotConfig) (status : AutopotStatusEvent)
    (events' : List (Event AutobuffConfig AutobuffTick)) (state' : LoopState AutobuffConfig)
    (status' : AutobuffStatusEvent) :
    ((Autopot.run events state (.free status) = none ↔
        ∃ event ∈ beforeStop events, event.isLost = true) ∧
      ∀ ended after, Autopot.run events state (.free status) = some (ended, after) →
        Ends events AutopotStatusEvent.active ended after) ∧
      ∃ ended after, Autobuff.run events' state' (.free status') = some (ended, after) ∧
        Ends events' AutobuffStatusEvent.active ended after := by
  constructor
  · obtain ⟨waits, done⟩ := runLoop_spec (fun status => status.active = false) Autopot.handles
      (fun state _ free => Autopot.finish_inactive state free) events state (Shared.free_held status)
    refine ⟨waits, fun ended after same => ?_⟩
    obtain ⟨dropped, asked, inactive⟩ := done ended after same
    exact ⟨dropped, asked, inactive⟩
  · obtain ⟨waits, done⟩ := runLoop_spec (fun status => status.active = false) Autobuff.handles
      (fun state _ free => Autobuff.finish_inactive state free) events' state' (Shared.free_held status')
    cases result : Autobuff.run events' state' (.free status') with
    | none =>
      obtain ⟨event, -, never⟩ := waits.mp result
      cases never
    | some last =>
      obtain ⟨ended, after⟩ := last
      obtain ⟨dropped, asked, inactive⟩ := done ended after result
      exact ⟨ended, after, rfl, dropped, asked, inactive⟩

/-- A hand-off whose session is gone, and then the request to stop: the loop waits for itself. -/
theorem lost_handoff_waits : Autopot.run [.identity (some none), .stop (some true)]
    ⟨AutopotConfig.default, 0, .processVmReadv, .valid⟩ (.free Autopot.idle) = none := rfl

end RoLauncher.Combat
