import RoLauncher.Session.Supervisor
import Mathlib.Logic.Relation

/-!
# What a supervisor reports

`Books` is what the supervisor's tables, the kernel's children and the events
so far have to do with each other. Every step keeps the books, and from them
follows the trace law: each accepted launch exits exactly once, before
`Stopped`, and nothing else does.
-/

namespace RoLauncher.Session

open Tables

/-! ## Events about a request -/

/-- The acceptance and the exit of a request. -/
def SessionEvent.concerns (id : String) : SessionEvent → Bool
  | .launchAccepted requestId .. => requestId == id
  | .shutdownAccepted requestId => requestId == id
  | .controllerExited requestId .. => requestId == id
  | _ => false

def history (id : String) (events : List SessionEvent) : List SessionEvent :=
  events.filter (SessionEvent.concerns id)

theorem history_append (id : String) (events : List SessionEvent) (event : SessionEvent) :
    history id (events ++ [event]) =
      history id events ++ if event.concerns id then [event] else [] := by
  rw [history, List.filter_append, List.filter_singleton]
  cases event.concerns id <;> rfl

theorem history_other {id : String} {event : SessionEvent} (events : List SessionEvent)
    (h : event.concerns id = false) : history id (events ++ [event]) = history id events := by
  rw [history_append, h]
  exact List.append_nil _

/-- A request whose controller is gone, or that never had one. -/
def Settled (id : String) (events : List SessionEvent) : Prop :=
  history id events = [] ∨ history id events = [.shutdownAccepted id] ∨
    ∃ pid start code signal,
      history id events = [.launchAccepted id pid start, .controllerExited id pid code signal]

/-- A request whose controller is running. -/
def Open (id : String) (record : ControllerRecord) (events : List SessionEvent) : Prop :=
  if record.isShutdownController then history id events = [.shutdownAccepted id]
  else ∃ start, history id events = [.launchAccepted id record.controllerPid start]

/-! ## The books -/

structure Books (requestIds : List String) (inFlight : Nat) (pids : Table UInt32 String)
    (controllers : Table String ControllerRecord) (children : List UInt32)
    (events : List SessionEvent) : Prop where
  distinct : children.Nodup
  named : ∀ pid id, pids.lookup pid = some id →
    ∃ isShutdown, controllers.lookup id = some ⟨pid, isShutdown⟩
  mapped : ∀ id record, controllers.lookup id = some record →
    pids.lookup record.controllerPid = some id
  owned : ∀ pid id, pids.lookup pid = some id → pid ∈ children
  counted : inFlight = Table.count (fun record => !record.isShutdownController) controllers
  limited : inFlight ≤ MAX_IN_FLIGHT_LAUNCHES
  known : ∀ id record, controllers.lookup id = some record → id ∈ requestIds
  unknown : ∀ id, id ∉ requestIds → history id events = []
  running : ∀ id record, controllers.lookup id = some record → Open id record events
  settled : ∀ id, controllers.lookup id = none → Settled id events

namespace Books

variable {requestIds : List String} {inFlight : Nat} {pids : Table UInt32 String}
  {controllers : Table String ControllerRecord} {children : List UInt32}
  {events : List SessionEvent}

theorem empty : Books [] 0 ∅ ∅ [] [] where
  distinct := List.nodup_nil
  named _ _ here := by cases here
  mapped _ _ here := by cases here
  owned _ _ here := by cases here
  counted := rfl
  limited := Nat.zero_le _
  known _ _ here := by cases here
  unknown _ _ := rfl
  running _ _ here := by cases here
  settled _ _ := .inl rfl

/-- An event that is about no request. -/
theorem other (h : Books requestIds inFlight pids controllers children events)
    (event : SessionEvent) (none : ∀ id, event.concerns id = false) :
    Books requestIds inFlight pids controllers children (events ++ [event]) := by
  have same : ∀ id, history id (events ++ [event]) = history id events :=
    fun id => history_other events (none id)
  refine { h with unknown := fun id new => ?_, running := fun id record here => ?_,
                  settled := fun id gone => ?_ }
  · rw [same, h.unknown id new]
  · rw [Open, same]
    exact h.running id record here
  · rw [Settled, same]
    exact h.settled id gone

theorem request (h : Books requestIds inFlight pids controllers children events) (id : String) :
    Books (id :: requestIds) inFlight pids controllers children events :=
  { h with
    known := fun id' record here => List.mem_cons_of_mem _ (h.known id' record here)
    unknown := fun id' new => h.unknown id' fun old => new (List.mem_cons_of_mem _ old) }

theorem adopted (h : Books requestIds inFlight pids controllers children events) {pid : UInt32}
    (new : pid ∉ children) : Books requestIds inFlight pids controllers (pid :: children) events :=
  { h with
    distinct := List.nodup_cons.mpr ⟨new, h.distinct⟩
    owned := fun pid' id here => List.mem_cons_of_mem _ (h.owned pid' id here) }

/-- A new child for a new request: the launch in flight is counted with it. -/
theorem spawned (h : Books requestIds inFlight pids controllers children events) {pid : UInt32}
    {id : String} (new : pid ∉ children) (fresh : id ∉ requestIds) (isShutdown : Bool)
    (event : SessionEvent) {inFlight' : Nat}
    (count : inFlight' = inFlight + if !isShutdown then 1 else 0)
    (limit : inFlight' ≤ MAX_IN_FLIGHT_LAUNCHES)
    (about : ∀ id', event.concerns id' = (id == id'))
    (opens : Open id ⟨pid, isShutdown⟩ [event]) :
    Books (id :: requestIds) inFlight' (pids.insert pid id)
      (controllers.insert id ⟨pid, isShutdown⟩) (pid :: children) (events ++ [event]) := by
  have absent : controllers.lookup id = none := by
    rcases here : controllers.lookup id with _ | record
    · rfl
    · exact absurd (h.known id record here) fresh
  have free : pids.lookup pid = none := by
    rcases here : pids.lookup pid with _ | id'
    · rfl
    · exact absurd (h.owned pid id' here) new
  have own : history id (events ++ [event]) = history id [event] := by
    rw [history_append, h.unknown id fresh, about, BEq.rfl, history, List.filter_singleton, about,
      BEq.rfl]
    rfl
  have same : ∀ id', id' ≠ id → history id' (events ++ [event]) = history id' events := by
    intro id' ne
    exact history_other events (by rw [about]; exact beq_eq_false_iff_ne.mpr (Ne.symm ne))
  refine ⟨List.nodup_cons.mpr ⟨new, h.distinct⟩, fun pid' id' here => ?_, fun id' record here => ?_,
    fun pid' id' here => ?_, ?_, limit, fun id' record here => ?_, fun id' unknown => ?_,
    fun id' record here => ?_, fun id' gone => ?_⟩
  · rw [Table.lookup_insert_of] at here
    split at here
    next equal =>
      cases here
      exact ⟨isShutdown, by rw [equal, AList.lookup_insert]⟩
    next =>
      obtain ⟨flag, record⟩ := h.named pid' id' here
      refine ⟨flag, ?_⟩
      rw [Table.lookup_insert_of, if_neg, record]
      intro equal
      rw [equal, absent] at record
      cases record
  · rw [Table.lookup_insert_of] at here
    split at here
    next equal =>
      cases here
      rw [equal, AList.lookup_insert]
    next =>
      have known := h.mapped id' record here
      rw [Table.lookup_insert_of, if_neg, known]
      intro equal
      rw [equal, free] at known
      cases known
  · rw [Table.lookup_insert_of] at here
    split at here
    next equal => exact equal ▸ List.mem_cons_self
    next => exact List.mem_cons_of_mem _ (h.owned pid' id' here)
  · rw [Table.count_insert _ absent, count, h.counted]
  · rw [Table.lookup_insert_of] at here
    split at here
    next equal => exact equal ▸ List.mem_cons_self
    next => exact List.mem_cons_of_mem _ (h.known id' record here)
  · rw [List.mem_cons, not_or] at unknown
    rw [same id' unknown.1]
    exact h.unknown id' unknown.2
  · rw [Table.lookup_insert_of] at here
    split at here
    next equal =>
      cases here
      rw [equal, Open, own]
      exact opens
    next ne =>
      rw [Open, same id' ne]
      exact h.running id' record here
  · rw [Table.lookup_insert_of] at gone
    split at gone
    next => cases gone
    next ne =>
      rw [Settled, same id' ne]
      exact h.settled id' gone

/-- A child that is no controller is reaped. -/
theorem reaped_orphan (h : Books requestIds inFlight pids controllers children events)
    {pid : UInt32} (none : pids.lookup pid = none) :
    Books requestIds inFlight pids controllers (children.erase pid) events := by
  refine { h with distinct := h.distinct.erase pid, owned := fun pid' id here => ?_ }
  refine (List.mem_erase_of_ne fun same => ?_).mpr (h.owned pid' id here)
  rw [same, none] at here
  cases here

/-- A controller is reaped, which ends its request. -/
theorem reaped (h : Books requestIds inFlight pids controllers children events) {pid : UInt32}
    {id : String} {isShutdown : Bool} (here : pids.lookup pid = some id)
    (record : controllers.lookup id = some ⟨pid, isShutdown⟩) {events' : List SessionEvent}
    (ends : Settled id events')
    (same : ∀ id', id' ≠ id → history id' events' = history id' events) :
    Books requestIds (if isShutdown then inFlight else inFlight - 1) (pids.erase pid)
      (controllers.erase id) (children.erase pid) events' := by
  have own : ∀ pid', pids.lookup pid' = some id → pid' = pid := by
    intro pid' other
    obtain ⟨flag, record'⟩ := h.named pid' id other
    cases record.symm.trans record'
    rfl
  have counted := h.counted
  rw [Table.count_erase record] at counted
  have request := h.known id _ record
  refine ⟨h.distinct.erase pid, fun pid' id' at' => ?_, fun id' record' at' => ?_,
    fun pid' id' at' => ?_, ?_, ?_, fun id' record' at' => ?_, fun id' new => ?_,
    fun id' record' at' => ?_, fun id' gone => ?_⟩
  · rw [Table.lookup_erase_of] at at'
    split at at'
    next => cases at'
    next ne =>
      obtain ⟨flag, record'⟩ := h.named pid' id' at'
      refine ⟨flag, ?_⟩
      rw [Table.lookup_erase_of, if_neg, record']
      intro equal
      exact ne (own pid' (equal ▸ at'))
  · rw [Table.lookup_erase_of] at at'
    split at at'
    next => cases at'
    next ne =>
      have mapped := h.mapped id' record' at'
      rw [Table.lookup_erase_of, if_neg, mapped]
      intro equal
      rw [equal, here] at mapped
      exact ne (Option.some.inj mapped).symm
  · rw [Table.lookup_erase_of] at at'
    split at at'
    next => cases at'
    next ne => exact (List.mem_erase_of_ne ne).mpr (h.owned pid' id' at')
  · cases isShutdown with
    | true => exact counted
    | false =>
      rw [counted]
      exact Nat.add_sub_cancel _ _
  · have := h.limited
    split <;> omega
  · rw [Table.lookup_erase_of] at at'
    split at at'
    next => cases at'
    next => exact h.known id' record' at'
  · rw [same id' fun equal => new (equal ▸ request)]
    exact h.unknown id' new
  · rw [Table.lookup_erase_of] at at'
    split at at'
    next => cases at'
    next ne =>
      rw [Open, same id' ne]
      exact h.running id' record' at'
  · rw [Table.lookup_erase_of] at gone
    split at gone
    next equal => exact equal ▸ ends
    next ne =>
      rw [Settled, same id' ne]
      exact h.settled id' gone

end Books

/-! ## Steps -/

/-- What the kernel can do from these children on, until `waitpid` has nothing
more to return: an orphan comes from under a child, a process that is reaped was
one, and `ECHILD` means that there is none. -/
def Possible : List UInt32 → List Reaping → Prop
  | children, .adopted pid :: reapings =>
    children ≠ [] ∧ pid ∉ children ∧ Possible (pid :: children) reapings
  | children, .reaped pid _ _ :: reapings => pid ∈ children ∧ Possible (children.erase pid) reapings
  | _, [.nothing] => True
  | children, [.echild] => children = []
  | _, _ => False

namespace Supervisor

/-- What happens to a supervisor: a line (the identity of a new child can be
read), the end of the input, a signal or the loss of the parent, a drain, a turn
of the shutdown, an orphan, a message of the main loop, and its end. -/
inductive Action (sup : Supervisor) : Supervisor → Prop
  | line (request : Except String SessionRequest) (outcome : Outcome) :
      (∀ pid, outcome.forked = .ok pid → pid ∉ sup.children) → outcome.startTime.isSome →
      Action sup (sup.readLine request outcome)
  | forced (now : Nat) : Action sup (sup.beginForcedShutdown now)
  | drain {reapings : List Reaping} : Possible sup.children reapings →
      Action sup (drainReapEvents reapings sup)
  | advance {before behind : List Reaping} (now later : Nat) : Possible sup.children before →
      Possible (drainReapEvents before sup).children behind →
      Action sup (sup.advanceShutdown before now later behind)
  | adopted {pid : UInt32} : sup.children ≠ [] → pid ∉ sup.children →
      Action sup { sup with children := pid :: sup.children }
  | reported (message : String) : Action sup (sup.emit (.error none "protocol" none message))
  | exit : sup.phase = .stopped → Action sup (sup.emit .stopped)

/-- A step of a supervisor that has not ended. -/
def Step (sup sup' : Supervisor) : Prop := .stopped ∉ sup.events ∧ Action sup sup'

abbrev Run : Supervisor → Supervisor → Prop := Relation.ReflTransGen Step

/-- The books of a supervisor. -/
abbrev InOrder (sup : Supervisor) : Prop :=
  Books sup.requestIds sup.inFlight sup.pidToRequest sup.controllers sup.children sup.events

theorem beginForcedShutdown_inOrder {sup : Supervisor} (h : sup.InOrder) (now : Nat) :
    (sup.beginForcedShutdown now).InOrder := by
  unfold beginForcedShutdown
  split
  next => exact h
  next => exact h

theorem beginForcedShutdown_children (sup : Supervisor) (now : Nat) :
    (sup.beginForcedShutdown now).children = sup.children := by
  unfold beginForcedShutdown
  split <;> rfl

theorem handleLaunch_inOrder {sup : Supervisor} (h : sup.InOrder) (requestId : String)
    {outcome : Outcome} (fresh : ∀ pid, outcome.forked = .ok pid → pid ∉ sup.children)
    (readable : outcome.startTime.isSome) : (sup.handleLaunch requestId outcome).2.InOrder := by
  unfold handleLaunch
  split
  next => exact h.other _ fun _ => rfl
  split
  next => exact h.other _ fun _ => rfl
  next new =>
    have known := h.request requestId
    dsimp only
    split
    next => exact known.other _ fun _ => rfl
    next room =>
      split
      next => exact known.other _ fun _ => rfl
      next =>
        split
        next => exact known.other _ fun _ => rfl
        next pid forked =>
          split
          next unreadable =>
            rw [unreadable] at readable
            cases readable
          next start _ =>
            exact h.spawned (fresh pid forked) new false (.launchAccepted requestId pid start)
              rfl (Nat.lt_of_not_le room) (fun _ => rfl) ⟨start, by simp [history, SessionEvent.concerns]⟩

theorem handleShutdown_inOrder {sup : Supervisor} (h : sup.InOrder) (requestId : String)
    (graceMs : Nat) {outcome : Outcome}
    (fresh : ∀ pid, outcome.forked = .ok pid → pid ∉ sup.children) :
    (sup.handleShutdown requestId graceMs outcome).2.InOrder := by
  unfold handleShutdown
  split
  next => exact h.other _ fun _ => rfl
  split
  next => exact h.other _ fun _ => rfl
  split
  next => exact h.other _ fun _ => rfl
  next new =>
    have known := h.request requestId
    dsimp only
    split
    next =>
      exact beginForcedShutdown_inOrder (known.other (.error (some requestId) "shutdown" none _)
        fun _ => rfl) _
    next =>
      split
      next => exact known
      next =>
        split
        next pid forked =>
          exact h.spawned (fresh pid forked) new true (.shutdownAccepted requestId)
            rfl h.limited (fun _ => rfl) (by simp [Open, history, SessionEvent.concerns])
        next =>
          exact beginForcedShutdown_inOrder (known.other
            (.error (some requestId) "shutdown" _ _) fun _ => rfl) _

theorem readLine_inOrder {sup : Supervisor} (h : sup.InOrder)
    (request : Except String SessionRequest) {outcome : Outcome}
    (fresh : ∀ pid, outcome.forked = .ok pid → pid ∉ sup.children)
    (readable : outcome.startTime.isSome) : (sup.readLine request outcome).InOrder := by
  have handled : (sup.handleLine request outcome).2.InOrder := by
    unfold handleLine
    split
    next => exact h
    next =>
      exact beginForcedShutdown_inOrder (h.other (.error none "validation" none _)
        fun _ => rfl) _
    next => exact handleLaunch_inOrder h _ fresh readable
    next => exact handleShutdown_inOrder h _ _ fresh
  unfold readLine
  split
  next kept =>
    rw [kept] at handled
    exact handled
  next failed =>
    rw [failed] at handled
    exact handled.other _ fun _ => rfl

theorem reap_inOrder {sup : Supervisor} (h : sup.InOrder) (pid : UInt32)
    (exitCode signal : Option Int) : (sup.reap pid exitCode signal).InOrder := by
  unfold reap
  dsimp only
  split
  next none => exact h.reaped_orphan none
  next id here =>
    obtain ⟨isShutdown, record⟩ := h.named pid id here
    have running := h.running id _ record
    rw [record]
    cases isShutdown with
    | true => exact h.reaped here record (.inr (.inl running)) fun _ _ => rfl
    | false =>
      obtain ⟨start, accepted⟩ := running
      have ended : history id (sup.events ++ [.controllerExited id pid exitCode signal]) =
          [.launchAccepted id pid start, .controllerExited id pid exitCode signal] := by
        rw [history_append, accepted]
        simp [SessionEvent.concerns]
      exact h.reaped here record (.inr (.inr ⟨pid, start, exitCode, signal, ended⟩)) fun id' ne =>
        history_other _ (beq_eq_false_iff_ne.mpr (Ne.symm ne))

theorem reap_children (sup : Supervisor) (pid : UInt32) (exitCode signal : Option Int) :
    (sup.reap pid exitCode signal).children = sup.children.erase pid := by
  unfold reap
  dsimp only
  split
  next => rfl
  next => split <;> rfl

theorem drain_inOrder {reapings : List Reaping} {sup : Supervisor} (h : sup.InOrder)
    (possible : Possible sup.children reapings) : (drainReapEvents reapings sup).InOrder := by
  induction reapings generalizing sup with
  | nil => exact h
  | cons reaping reapings ih =>
    cases reaping with
    | adopted pid => exact ih (h.adopted possible.2.1) possible.2.2
    | reaped pid exitCode signal =>
      refine ih (reap_inOrder h pid exitCode signal) ?_
      rw [reap_children]
      exact possible.2
    | nothing => exact h
    | echild => exact h

theorem advance_inOrder {before behind : List Reaping} {sup : Supervisor} (h : sup.InOrder)
    (now later : Nat) (possible : Possible sup.children before)
    (possible' : Possible (drainReapEvents before sup).children behind) :
    (sup.advanceShutdown before now later behind).InOrder := by
  have drained := drain_inOrder h possible
  unfold advanceShutdown
  split
  next => exact h
  dsimp only
  split
  next => exact drained
  next =>
    -- The clock and the signals change nothing that the books are about.
    have signalled : ∀ sup' : Supervisor, sup'.InOrder → sup'.children =
        (drainReapEvents before sup).children → (drainReapEvents behind sup').InOrder :=
      fun sup' h' same => drain_inOrder h' (by rw [same]; exact possible')
    have last : ∀ sup' : Supervisor, sup'.InOrder →
        (if sup'.termSentAt.isSome ∧ sup'.lastWaitEchild then { sup' with phase := .stopped }
          else sup').InOrder := by
      intro sup' h'
      split
      next => exact h'
      next => exact h'
    refine last _ (signalled _ ?_ ?_)
    · split <;> split <;> exact drained
    · split <;> split <;> rfl

theorem Action.inOrder {sup sup' : Supervisor} (action : sup.Action sup') (h : sup.InOrder) :
    sup'.InOrder := by
  cases action with
  | line request outcome fresh readable => exact readLine_inOrder h request fresh readable
  | forced now => exact beginForcedShutdown_inOrder h now
  | drain possible => exact drain_inOrder h possible
  | advance now later possible possible' => exact advance_inOrder h now later possible possible'
  | adopted some new => exact h.adopted new
  | reported => exact h.other _ fun _ => rfl
  | exit => exact h.other _ fun _ => rfl

/-! ## Phases -/

/-- The phase stays, or goes one further; `Stopped` is entered without children. -/
inductive Moves (sup sup' : Supervisor) : Prop
  | stays : sup'.phase = sup.phase → Moves sup sup'
  | stopping : sup.phase = .ready → sup'.phase = .stopping → Moves sup sup'
  | stopped : sup.phase = .stopping → sup'.phase = .stopped → sup'.children = [] → Moves sup sup'

/-- What a step adds to the events: never `Stopped`, and the acceptance of a
launch only in the phase `Ready`. -/
def Adds (sup sup' : Supervisor) : Prop :=
  ∃ added, sup'.events = sup.events ++ added ∧ ∀ event ∈ added, event ≠ .stopped ∧
    ∀ id pid start, event = .launchAccepted id pid start → sup.phase = .ready

theorem Adds.refl (sup : Supervisor) : Adds sup sup := ⟨[], (List.append_nil _).symm, nofun⟩

theorem Adds.one {sup sup' : Supervisor} {event : SessionEvent}
    (added : sup'.events = sup.events ++ [event]) (other : event ≠ .stopped)
    (ready : ∀ id pid start, event = .launchAccepted id pid start → sup.phase = .ready) :
    Adds sup sup' := by
  refine ⟨[event], added, fun event' mem => ?_⟩
  rw [List.mem_singleton.mp mem]
  exact ⟨other, ready⟩

theorem Adds.trans {sup sup' sup'' : Supervisor} (first : Adds sup sup') (second : Adds sup' sup'')
    (phase : sup'.phase = sup.phase) : Adds sup sup'' := by
  obtain ⟨added, same, only⟩ := first
  obtain ⟨more, same', only'⟩ := second
  refine ⟨added ++ more, by rw [same', same, List.append_assoc], fun event mem => ?_⟩
  rcases List.mem_append.mp mem with mem | mem
  · exact only event mem
  · rw [← phase]
    exact only' event mem

theorem beginForcedShutdown_moves (sup : Supervisor) (now : Nat) :
    Moves sup (sup.beginForcedShutdown now) ∧ Adds sup (sup.beginForcedShutdown now) := by
  unfold beginForcedShutdown
  split
  next => exact ⟨.stays rfl, .refl sup⟩
  next running =>
    refine ⟨?_, .refl sup⟩
    cases phase : sup.phase with
    | ready => exact .stopping phase rfl
    | stopping => exact .stays phase.symm
    | stopped => exact absurd phase running

theorem handleLaunch_moves (sup : Supervisor) (requestId : String) (outcome : Outcome) :
    (sup.handleLaunch requestId outcome).2.phase = sup.phase ∧
      Adds sup (sup.handleLaunch requestId outcome).2 := by
  unfold handleLaunch
  split
  next => exact ⟨rfl, .one rfl (by simp) (by simp)⟩
  next ready =>
    split
    next => exact ⟨rfl, .one rfl (by simp) (by simp)⟩
    dsimp only
    split
    next => exact ⟨rfl, .one rfl (by simp) (by simp)⟩
    split
    next => exact ⟨rfl, .one rfl (by simp) (by simp)⟩
    split
    next => exact ⟨rfl, .one rfl (by simp) (by simp)⟩
    split
    next => exact ⟨rfl, .refl sup⟩
    next => exact ⟨rfl, .one rfl nofun fun _ _ _ _ => not_not.mp ready⟩

theorem handleShutdown_moves (sup : Supervisor) (requestId : String) (graceMs : Nat)
    (outcome : Outcome) :
    Moves sup (sup.handleShutdown requestId graceMs outcome).2 ∧
      Adds sup (sup.handleShutdown requestId graceMs outcome).2 := by
  unfold handleShutdown
  split
  next => exact ⟨.stays rfl, .one rfl nofun nofun⟩
  split
  next => exact ⟨.stays rfl, .one rfl nofun nofun⟩
  next ready =>
    split
    next => exact ⟨.stays rfl, .one rfl nofun nofun⟩
    dsimp only
    split
    next => exact ⟨.stopping (not_not.mp ready) rfl, .one rfl nofun nofun⟩
    split
    next => exact ⟨.stopping (not_not.mp ready) rfl, .refl sup⟩
    split
    next => exact ⟨.stopping (not_not.mp ready) rfl, .one rfl nofun nofun⟩
    next => exact ⟨.stopping (not_not.mp ready) rfl, .one rfl nofun nofun⟩

theorem readLine_moves (sup : Supervisor) (request : Except String SessionRequest)
    (outcome : Outcome) :
    Moves sup (sup.readLine request outcome) ∧ Adds sup (sup.readLine request outcome) := by
  have handled : Moves sup (sup.handleLine request outcome).2 ∧
      Adds sup (sup.handleLine request outcome).2 := by
    unfold handleLine
    split
    next => exact ⟨.stays rfl, .refl sup⟩
    next =>
      have spoken : Adds sup (sup.emitValidationError none "second Hello rejected") :=
        .one rfl nofun nofun
      obtain ⟨moves, adds⟩ := beginForcedShutdown_moves
        (sup.emitValidationError none "second Hello rejected") outcome.now
      refine ⟨?_, spoken.trans adds rfl⟩
      cases moves with
      | stays same => exact .stays same
      | stopping before behind => exact .stopping before behind
      | stopped before behind none => exact .stopped before behind none
    next =>
      obtain ⟨phase, adds⟩ := handleLaunch_moves sup _ outcome
      exact ⟨.stays phase, adds⟩
    next => exact handleShutdown_moves sup _ _ outcome
  unfold readLine
  split
  next kept =>
    rw [kept] at handled
    exact handled
  next e sup' failed =>
    rw [failed] at handled
    obtain ⟨moves, added, same, only⟩ := handled
    refine ⟨?_, added ++ [.error none "protocol" none ("invalid request: " ++ e)], ?_, fun event mem => ?_⟩
    · cases moves with
      | stays phase => exact .stays phase
      | stopping before behind => exact .stopping before behind
      | stopped before behind none => exact .stopped before behind none
    · rw [emit, same, List.append_assoc]
    · rcases List.mem_append.mp mem with mem | mem
      · exact only event mem
      · cases List.mem_singleton.mp mem
        exact ⟨nofun, nofun⟩

theorem reap_moves (sup : Supervisor) (pid : UInt32) (exitCode signal : Option Int) :
    (sup.reap pid exitCode signal).phase = sup.phase ∧
      Adds sup (sup.reap pid exitCode signal) := by
  unfold reap
  dsimp only
  split
  next => exact ⟨rfl, .refl sup⟩
  next =>
    split
    next => exact ⟨rfl, .refl sup⟩
    next => exact ⟨rfl, .one rfl (by simp) (by simp)⟩

theorem drain_moves (reapings : List Reaping) (sup : Supervisor) :
    (drainReapEvents reapings sup).phase = sup.phase ∧
      Adds sup (drainReapEvents reapings sup) := by
  induction reapings generalizing sup with
  | nil => exact ⟨rfl, .refl sup⟩
  | cons reaping reapings ih =>
    cases reaping with
    | adopted pid => exact ih { sup with children := pid :: sup.children }
    | reaped pid exitCode signal =>
      obtain ⟨phase, adds⟩ := reap_moves sup pid exitCode signal
      obtain ⟨phase', adds'⟩ := ih (sup.reap pid exitCode signal)
      exact ⟨phase'.trans phase, adds.trans adds' phase⟩
    | nothing => exact ⟨rfl, .refl sup⟩
    | echild => exact ⟨rfl, .refl sup⟩

/-- `ECHILD` is the last thing a drain meets, and then there is no child. -/
theorem drain_echild {reapings : List Reaping} {sup : Supervisor}
    (possible : Possible sup.children reapings)
    (echild : (drainReapEvents reapings sup).lastWaitEchild = true) :
    (drainReapEvents reapings sup).children = [] := by
  induction reapings generalizing sup with
  | nil => exact possible.elim
  | cons reaping reapings ih =>
    cases reaping with
    | adopted pid => exact ih possible.2.2 echild
    | reaped pid exitCode signal =>
      refine ih ?_ echild
      rw [reap_children]
      exact possible.2
    | nothing => cases echild
    | echild =>
      cases reapings with
      | nil => exact possible
      | cons => exact possible.elim

/-- Where there is no child there is none after a drain. -/
theorem drain_idle {reapings : List Reaping} {sup : Supervisor}
    (possible : Possible sup.children reapings) (idle : sup.children = []) :
    (drainReapEvents reapings sup).children = [] := by
  cases reapings with
  | nil => exact possible.elim
  | cons reaping reapings =>
    cases reaping with
    | adopted pid => exact absurd idle possible.1
    | reaped pid exitCode signal =>
      have mem := possible.1
      rw [idle] at mem
      cases mem
    | nothing => exact idle
    | echild => exact idle

theorem advance_moves {before behind : List Reaping} (sup : Supervisor) (now later : Nat)
    (possible : Possible sup.children before)
    (possible' : Possible (drainReapEvents before sup).children behind) :
    Moves sup (sup.advanceShutdown before now later behind) ∧
      Adds sup (sup.advanceShutdown before now later behind) := by
  obtain ⟨phase, adds⟩ := drain_moves before sup
  unfold advanceShutdown
  split
  next => exact ⟨.stays rfl, .refl sup⟩
  next stopping =>
    have stopping := not_not.mp stopping
    dsimp only
    split
    next echild => exact ⟨.stopped stopping rfl (drain_echild possible echild), adds⟩
    next =>
      -- The second drain starts where the first one left the children and the events.
      have second : ∀ sup' : Supervisor, sup'.phase = (drainReapEvents before sup).phase →
          sup'.events = (drainReapEvents before sup).events →
          sup'.children = (drainReapEvents before sup).children →
          ∀ sup'', sup'' = drainReapEvents behind sup' →
          Moves sup (if sup''.termSentAt.isSome ∧ sup''.lastWaitEchild then
            { sup'' with phase := .stopped } else sup'') ∧
          Adds sup (if sup''.termSentAt.isSome ∧ sup''.lastWaitEchild then
            { sup'' with phase := .stopped } else sup'') := by
        rintro sup' phase' events' children' _ rfl
        obtain ⟨phase'', added, same, only⟩ := drain_moves behind sup'
        rw [phase', phase] at phase''
        rw [events'] at same
        rw [phase', phase] at only
        obtain ⟨added', same', only'⟩ := adds
        have all : Adds sup (drainReapEvents behind sup') := by
          refine ⟨added' ++ added, by rw [same, same', List.append_assoc], fun event mem => ?_⟩
          rcases List.mem_append.mp mem with mem | mem
          · exact only' event mem
          · exact only event mem
        split
        next ended =>
          exact ⟨.stopped stopping rfl (drain_echild (by rw [children']; exact possible') ended.2),
            all⟩
        next => exact ⟨.stays phase'', all⟩
      refine second _ ?_ ?_ ?_ _ rfl
      · split <;> split <;> rfl
      · split <;> split <;> rfl
      · split <;> split <;> rfl

theorem readLine_stopped {sup : Supervisor} (stopped : sup.phase = .stopped)
    (request : Except String SessionRequest) (outcome : Outcome) :
    (sup.readLine request outcome).children = sup.children := by
  have handled : (sup.handleLine request outcome).2.children = sup.children := by
    unfold handleLine
    split
    next => rfl
    next => exact beginForcedShutdown_children _ _
    next =>
      rw [handleLaunch, if_pos (by rw [stopped]; exact nofun)]
      rfl
    next =>
      rw [handleShutdown, if_neg (by rw [stopped]; exact nofun),
        if_pos (by rw [stopped]; exact nofun)]
      rfl
  unfold readLine
  split
  next kept =>
    rw [kept] at handled
    exact handled
  next failed =>
    rw [failed] at handled
    exact handled

/-- What every step does to the phase and to the children of a stopped supervisor. -/
theorem Action.moves {sup sup' : Supervisor} (action : sup.Action sup') :
    Moves sup sup' ∧ (sup.phase = .stopped → sup.children = [] → sup'.children = []) ∧
      (Adds sup sup' ∨ sup.phase = .stopped ∧ sup' = sup.emit .stopped) := by
  cases action with
  | line request outcome =>
    obtain ⟨moves, adds⟩ := readLine_moves sup request outcome
    exact ⟨moves, fun stopped idle => (readLine_stopped stopped request outcome).trans idle,
      .inl adds⟩
  | forced now =>
    obtain ⟨moves, adds⟩ := beginForcedShutdown_moves sup now
    exact ⟨moves, fun _ idle => (beginForcedShutdown_children sup now).trans idle, .inl adds⟩
  | @drain reapings possible =>
    obtain ⟨phase, adds⟩ := drain_moves reapings sup
    exact ⟨.stays phase, fun _ idle => drain_idle possible idle, .inl adds⟩
  | advance now later possible possible' =>
    obtain ⟨moves, adds⟩ := advance_moves sup now later possible possible'
    refine ⟨moves, fun stopped idle => ?_, .inl adds⟩
    rw [advanceShutdown, if_pos (by rw [stopped]; exact nofun)]
    exact idle
  | adopted some new =>
    exact ⟨.stays rfl, fun _ idle => absurd idle some, .inl ⟨[], (List.append_nil _).symm, nofun⟩⟩
  | reported => exact ⟨.stays rfl, fun _ idle => idle, .inl (.one rfl nofun nofun)⟩
  | exit stopped => exact ⟨.stays rfl, fun _ idle => idle, .inr ⟨stopped, rfl⟩⟩

/-! ## The trace law -/

/-- What holds of every supervisor that the steps lead to. -/
structure Lawful (sup : Supervisor) : Prop where
  books : sup.InOrder
  quiet : sup.phase = .stopped → sup.children = []
  ended : .stopped ∈ sup.events → sup.phase = .stopped ∧
    ∃ earlier, sup.events = earlier ++ [.stopped] ∧ .stopped ∉ earlier

theorem lawful_new : Lawful new := ⟨.empty, nofun, nofun⟩

theorem Step.lawful {sup sup' : Supervisor} (step : sup.Step sup') (h : sup.Lawful) :
    sup'.Lawful := by
  obtain ⟨running, action⟩ := step
  obtain ⟨moves, quiet, adds⟩ := action.moves
  refine ⟨action.inOrder h.books, fun stopped => ?_, fun ended => ?_⟩
  · cases moves with
    | stays phase => exact quiet (phase.symm.trans stopped) (h.quiet (phase.symm.trans stopped))
    | stopping _ stopping => cases stopping.symm.trans stopped
    | stopped _ _ none => exact none
  · rcases adds with ⟨added, same, only⟩ | ⟨stopped, rfl⟩
    · rw [same] at ended
      rcases List.mem_append.mp ended with old | new
      · exact absurd old running
      · exact absurd rfl (only _ new).1
    · exact ⟨stopped, sup.events, rfl, running⟩

theorem lawful_of_run {sup sup' : Supervisor} (run : Run sup sup') (h : sup.Lawful) :
    sup'.Lawful := by
  induction run with
  | refl => exact h
  | tail _ step ih => exact step.lawful ih

/-- Out of `Ready` no launch is accepted any more. -/
theorem launches_of_run {sup sup' : Supervisor} (run : Run sup sup') (left : sup.phase ≠ .ready) :
    sup'.phase ≠ .ready ∧ ∀ id pid start, .launchAccepted id pid start ∈ sup'.events →
      .launchAccepted id pid start ∈ sup.events := by
  induction run with
  | refl => exact ⟨left, fun _ _ _ mem => mem⟩
  | tail _ step ih =>
    obtain ⟨gone, before⟩ := ih
    obtain ⟨moves, -, adds⟩ := step.2.moves
    refine ⟨?_, fun id pid start mem => ?_⟩
    · cases moves with
      | stays phase => rwa [phase]
      | stopping ready => exact absurd ready gone
      | stopped _ stopped => rw [stopped]; exact nofun
    · rcases adds with ⟨added, same, only⟩ | ⟨_, rfl⟩
      · rw [same] at mem
        rcases List.mem_append.mp mem with old | new
        · exact before id pid start old
        · exact absurd ((only _ new).2 id pid start rfl) gone
      · rcases List.mem_append.mp mem with old | new
        · exact before id pid start old
        · cases List.mem_singleton.mp new

/-- **The trace law.** After any run of a supervisor:
the events about a request are none, its acceptance while its controller is
running, the acceptance of a launch and one exit, or the acceptance of the
shutdown; the launches in flight are the controllers of launches that are running,
within the limit, where every controller is a child of its own whose request is
open; `Stopped` comes last, without children, when every request is settled;
the phase goes from `Ready` over `Stopping` to `Stopped`, and out of `Ready` no
launch is accepted. -/
theorem supervisor_trace {sup : Supervisor} (run : Run new sup) :
    (∀ id, Settled id sup.events ∨ ∃ record, sup.controllers.lookup id = some record ∧
      record.controllerPid ∈ sup.children ∧ Open id record sup.events) ∧
    (sup.inFlight = Table.count (fun record => !record.isShutdownController) sup.controllers ∧
      sup.inFlight ≤ MAX_IN_FLIGHT_LAUNCHES) ∧
    (sup.children.Nodup ∧ ∀ id record, sup.controllers.lookup id = some record →
      record.controllerPid ∈ sup.children ∧ Open id record sup.events ∧
        ∀ id' record', sup.controllers.lookup id' = some record' →
          record'.controllerPid = record.controllerPid → id' = id) ∧
    (.stopped ∈ sup.events → ∃ earlier, sup.events = earlier ++ [.stopped] ∧ .stopped ∉ earlier ∧
      sup.children = [] ∧ ∀ id, Settled id earlier) ∧
    (∀ sup', sup.Step sup' → Moves sup sup') ∧
    (sup.phase ≠ .ready → ∀ sup', Run sup sup' → ∀ id pid start,
      .launchAccepted id pid start ∈ sup'.events → .launchAccepted id pid start ∈ sup.events) := by
  have lawful := lawful_of_run run lawful_new
  have books := lawful.books
  have live : ∀ id record, sup.controllers.lookup id = some record →
      record.controllerPid ∈ sup.children ∧ Open id record sup.events := fun id record here =>
    ⟨books.owned _ id (books.mapped id record here), books.running id record here⟩
  have requests : ∀ id, Settled id sup.events ∨ ∃ record,
      sup.controllers.lookup id = some record ∧ record.controllerPid ∈ sup.children ∧
        Open id record sup.events := by
    intro id
    cases here : sup.controllers.lookup id with
    | none => exact .inl (books.settled id here)
    | some record => exact .inr ⟨record, rfl, live id record here⟩
  have apart : ∀ id record id' record', sup.controllers.lookup id = some record →
      sup.controllers.lookup id' = some record' → record'.controllerPid = record.controllerPid →
        id' = id := by
    intro id record id' record' here there same
    have mapped := books.mapped id' record' there
    rw [same, books.mapped id record here] at mapped
    exact (Option.some.inj mapped).symm
  refine ⟨requests, ⟨books.counted, books.limited⟩, ⟨books.distinct, fun id record here =>
    ⟨(live id record here).1, (live id record here).2,
      fun id' record' there => apart id record id' record' here there⟩⟩, fun ended => ?_,
    fun sup' step => step.2.moves.1, fun left sup' later => (launches_of_run later left).2⟩
  obtain ⟨stopped, earlier, events, unended⟩ := lawful.ended ended
  have idle := lawful.quiet stopped
  refine ⟨earlier, events, unended, idle, fun id => ?_⟩
  have same : history id sup.events = history id earlier := by
    rw [events]
    exact history_other earlier rfl
  rcases requests id with settled | ⟨record, _, child, _⟩
  · rwa [Settled, same] at settled
  · rw [idle] at child
    cases child

/-- A launch, and the end of the input. -/
def endingSupervisor : Supervisor :=
  (new.readLine (.ok (.launch "request")) ⟨.ok (), .ok (), .ok 7, some 1, 0⟩).beginForcedShutdown 0

/-- The turn of the shutdown that reaps the controller, and `Stopped`. -/
def endedSupervisor : Supervisor :=
  (endingSupervisor.advanceShutdown [.reaped 7 (some 0) none, .echild] 0 0 [.nothing]).emit .stopped

theorem supervisor_trace_endedSupervisor : ∃ earlier,
    endedSupervisor.events = earlier ++ [.stopped] ∧ .stopped ∉ earlier ∧
      endedSupervisor.children = [] ∧ ∀ id, Settled id earlier := by
  have start : Run new endingSupervisor :=
    .tail (.single ⟨by decide, .line _ _ (fun _ _ => List.not_mem_nil) rfl⟩) ⟨by decide, .forced 0⟩
  have reaped : Possible endingSupervisor.children [.reaped 7 (some 0) none, .echild] :=
    ⟨by decide, rfl⟩
  have idle : Possible (drainReapEvents [.reaped 7 (some 0) none, .echild]
      endingSupervisor).children [.nothing] := trivial
  have run : Run new endedSupervisor :=
    .tail (.tail start ⟨by decide, .advance 0 0 reaped idle⟩) ⟨by decide, .exit rfl⟩
  exact (supervisor_trace run).2.2.2.1 (by decide)

end Supervisor

end RoLauncher.Session
