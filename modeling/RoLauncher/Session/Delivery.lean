import RoLauncher.Session.Protocol
import Mathlib.Data.List.Infix

/-!
# What callers are told of an exit

An exit is told for the request it was recorded for, in every run. As long as a
request exits once, a recorded exit stays until a caller has it. That the exit
wins over a failure is not so in every run: the two are looked up one after
the other, and a failure can be on its way to a caller when the exit is recorded.
-/

namespace RoLauncher.Session

namespace SessionProtocol

variable {s s' : SessionProtocol} {call other : Nat} {entry : ExitCall} {request id : String}
  {exit : ControllerExit} {act : ProtocolAct}

/-! ## Look-ups -/

theorem put_own : (s.put call entry).calls call = some entry := Function.update_self ..

@[simp] theorem put_history : (s.put call entry).history = s.history := rfl

@[simp] theorem put_dispatching : (s.put call entry).dispatching = s.dispatching := rfl

@[simp] theorem put_completedExits : (s.put call entry).completedExits = s.completedExits := rfl

@[simp] theorem put_exitWaiters : (s.put call entry).exitWaiters = s.exitWaiters := rfl

@[simp] theorem forget_history : (s.forget request).history = s.history := rfl

@[simp] theorem forget_dispatching : (s.forget request).dispatching = s.dispatching := rfl

@[simp] theorem forget_exitWaiters : (s.forget request).exitWaiters = s.exitWaiters := rfl

@[simp] theorem forget_calls : (s.forget request).calls = s.calls := rfl

@[simp] theorem onChannel_history (use : Oneshot WaitResult → Oneshot WaitResult) :
    (s.onChannel call use).history = s.history := rfl

@[simp] theorem onChannel_completedExits (use : Oneshot WaitResult → Oneshot WaitResult) :
    (s.onChannel call use).completedExits = s.completedExits := rfl

@[simp] theorem onChannel_exitWaiters (use : Oneshot WaitResult → Oneshot WaitResult) :
    (s.onChannel call use).exitWaiters = s.exitWaiters := rfl

@[simp] theorem onChannel_dispatching (use : Oneshot WaitResult → Oneshot WaitResult) :
    (s.onChannel call use).dispatching = s.dispatching := rfl

@[simp, grind =] theorem put_calls : (s.put call entry).calls other =
    if other = call then some entry else s.calls other :=
  Function.update_apply ..

@[simp, grind =] theorem onChannel_calls (use : Oneshot WaitResult → Oneshot WaitResult) :
    (s.onChannel call use).calls other = (s.calls other).map fun entry =>
      if other = call then { entry with channel := use entry.channel } else entry := by
  by_cases same : other = call
  · simp [onChannel, same]
  · simp [onChannel, same]

@[simp, grind =] theorem dropWaiter_calls :
    (s.dropWaiter request).calls other = (s.calls other).map fun entry =>
      if s.exitWaiters request = some other then
        { entry with channel := entry.channel.dropSender } else entry := by
  unfold dropWaiter
  split
  next call held => simp [held, eq_comm]
  next none => simp [none]

@[simp, grind =] theorem drain_calls {error : SessionError} :
    (s.drain error).calls other = (s.calls other).map fun entry =>
      if s.exitWaiters entry.request = some other then
        { entry with channel := entry.channel.send (.error error) } else entry := rfl

@[simp] theorem dropWaiter_exitWaiters : (s.dropWaiter request).exitWaiters id =
    if id = request then none else s.exitWaiters id := by
  unfold dropWaiter
  split
  next => exact Function.update_apply ..
  next none =>
    split
    next same => rw [same, none]
    next => rfl

@[simp] theorem dropWaiter_completedExits :
    (s.dropWaiter request).completedExits = s.completedExits := by
  unfold dropWaiter
  split <;> rfl

@[simp] theorem dropWaiter_dispatching : (s.dropWaiter request).dispatching = s.dispatching := by
  unfold dropWaiter
  split <;> rfl

@[simp] theorem dropWaiter_history : (s.dropWaiter request).history = s.history := by
  unfold dropWaiter
  split <;> rfl

@[simp] theorem forget_completedExits : (s.forget request).completedExits id =
    if id = request then none else s.completedExits id :=
  Function.update_apply ..

end SessionProtocol

/-! ## In every run -/

open SessionProtocol

/-- What the answers of a history fit, each with what had happened before. -/
def Answers (Fit : List Happening → String → Answer → Prop) : List Happening → Prop
  | [] => True
  | .recorded _ _ :: older => Answers Fit older
  | .answered request answer :: older => Fit older request answer ∧ Answers Fit older

/-- The exit that a call has been handed. -/
@[grind] def ExitCall.Holds (entry : ExitCall) (exit : ControllerExit) : Prop :=
  entry.channel = .sent (.ok exit) ∨ entry.phase = .removing (.ok exit) ∨
    entry.phase = .received exit

/-- An exit is answered only for the request it was recorded for. -/
@[grind] def Attributed (older : List Happening) (request : String) (answer : Answer) : Prop :=
  ∀ exit, answer = .exit exit → .recorded request exit ∈ older

/-- Whatever names an exit names one that was recorded for the request. -/
structure Sourced (s : SessionProtocol) : Prop where
  completed : ∀ id exit, s.completedExits id = some exit → .recorded id exit ∈ s.history
  removing : ∀ id exit, s.dispatching = some (.removing id (.ok exit)) →
    .recorded id exit ∈ s.history
  sending : ∀ call exit, s.dispatching = some (.sending call (.ok exit)) →
    ∃ entry, s.calls call = some entry ∧ .recorded entry.request exit ∈ s.history
  waiters : ∀ id call, s.exitWaiters id = some call →
    ∃ entry, s.calls call = some entry ∧ entry.request = id
  held : ∀ call entry exit, s.calls call = some entry → entry.Holds exit →
    .recorded entry.request exit ∈ s.history
  answered : Answers Attributed s.history

theorem sourced_new : Sourced new := by
  constructor <;> simp [new, Answers]

theorem request_of_calls {s : SessionProtocol} {call : Nat} {entry : ExitCall}
    (here : s.calls call = some entry) :
    ∀ before, s.calls call = some before → entry.request = before.request := by
  intro before there
  rw [here] at there
  cases there
  rfl

namespace Sourced

variable {s : SessionProtocol} {call : Nat} {entry entry' : ExitCall} {request : String}

theorem put (h : Sourced s)
    (same : ∀ before, s.calls call = some before → entry'.request = before.request)
    (holds : ∀ exit, entry'.Holds exit → .recorded entry'.request exit ∈ s.history) :
    Sourced (s.put call entry') := by
  obtain ⟨completed, removing, sending, waiters, held, answered⟩ := h
  constructor
  · exact completed
  · exact removing
  · intro other exit sends
    obtain ⟨before, here, recorded⟩ := sending other exit sends
    rw [put_calls]
    split
    next own => 
      rw [own] at here
      exact ⟨entry', rfl, same before here ▸ recorded⟩
    next => exact ⟨before, here, recorded⟩
  · intro id other waits
    obtain ⟨before, here, asked⟩ := waiters id other waits
    rw [put_calls]
    split
    next own =>
      rw [own] at here
      exact ⟨entry', rfl, (same before here).trans asked⟩
    next => exact ⟨before, here, asked⟩
  · intro other after exit here holds'
    rw [put_calls] at here
    split at here
    next =>
      cases here
      exact holds exit holds'
    next => exact held other after exit here holds'
  · exact answered

theorem told (h : Sourced s) {answer : Answer} (attributed : Attributed s.history request answer) :
    Sourced { s with history := .answered request answer :: s.history } := by
  obtain ⟨completed, removing, sending, waiters, held, answered⟩ := h
  constructor
  · intro id exit done
    exact List.mem_cons_of_mem _ (completed id exit done)
  · intro id exit busy
    exact List.mem_cons_of_mem _ (removing id exit busy)
  · intro call exit sends
    obtain ⟨entry, here, recorded⟩ := sending call exit sends
    exact ⟨entry, here, List.mem_cons_of_mem _ recorded⟩
  · exact waiters
  · intro call entry exit here holds
    exact List.mem_cons_of_mem _ (held call entry exit here holds)
  · exact ⟨attributed, answered⟩

theorem answer (h : Sourced s) {answer : Answer}
    (same : ∀ before, s.calls call = some before → entry.request = before.request)
    (held : ∀ exit, entry.channel = .sent (.ok exit) → .recorded entry.request exit ∈ s.history)
    (attributed : Attributed s.history entry.request answer) :
    Sourced (s.answer call entry answer) := by
  have left : Sourced (s.put call { entry with phase := .gone }) := by
    refine h.put same ?_
    rintro exit (sent | gone | gone)
    · exact held exit sent
    · cases gone
    · cases gone
  exact left.told attributed

theorem forget (h : Sourced s) : Sourced (s.forget request) := by
  obtain ⟨completed, removing, sending, waiters, held, answered⟩ := h
  refine ⟨?_, removing, sending, waiters, held, answered⟩
  intro id exit done
  rw [forget_completedExits] at done
  split at done
  · cases done
  · exact completed id exit done

theorem dropWaiter (h : Sourced s) : Sourced (s.dropWaiter request) := by
  obtain ⟨completed, removing, sending, waiters, held, answered⟩ := h
  constructor <;> simp <;> grind [Option.map_eq_some_iff]

/-- The sender a call registers takes the place of the one before. -/
theorem register (h : Sourced s) (here : s.calls call = some entry) :
    Sourced (s.register call entry) := by
  obtain ⟨completed, removing, sending, waiters, held, answered⟩ := h
  constructor <;> simp [SessionProtocol.register] <;> grind [Option.map_eq_some_iff]

end Sourced

/-- A step never names an exit of its own, or one of another request. -/
theorem Sourced.move {s s' : SessionProtocol} {act : ProtocolAct} (h : Sourced s)
    (move : Moves s act s') : Sourced s' := by
  cases move with
  | recorded idle =>
    obtain ⟨completed, removing, sending, waiters, held, answered⟩ := h
    constructor <;> simp [record, Answers] <;> grind [Option.map_eq_some_iff]
  | error idle =>
    obtain ⟨completed, removing, sending, waiters, held, answered⟩ := h
    refine ⟨completed, ?_, ?_, waiters, held, answered⟩
    · intro id exit busy
      cases busy
    · intro call exit busy
      cases busy
  | unhooked busy =>
    obtain ⟨completed, removing, sending, waiters, held, answered⟩ := h
    constructor <;> simp [unhook] <;> grind
  | sent busy =>
    obtain ⟨completed, removing, sending, waiters, held, answered⟩ := h
    constructor <;> simp <;> grind [Option.map_eq_some_iff]
  | fatal | closed =>
    obtain ⟨completed, removing, sending, waiters, held, answered⟩ := h
    exact ⟨completed, removing, sending, waiters, held, answered⟩
  | drained failing =>
    obtain ⟨completed, removing, sending, waiters, held, answered⟩ := h
    constructor <;> simp [drain] <;> grind [Option.map_eq_some_iff]
  | started fresh =>
    apply h.put
    · intro before here
      rw [fresh] at here
      cases here
    · rintro exit (sent | gone | gone)
      · cases sent
      · cases gone
      · cases gone
  | @cancelled call entry here phase =>
    have same := request_of_calls here
    refine h.put same ?_
    rintro exit (sent | gone | gone)
    · exact h.held call entry exit here (.inl sent)
    · cases gone
    · cases gone
  | @passed call entry next here passes =>
    have same := request_of_calls here
    refine h.put same ?_
    intro exit holds
    apply h.held call entry exit here
    cases passes <;> grind
  | told here tells =>
    apply h.answer (request_of_calls here) fun exit sent => h.held _ _ exit here (.inl sent)
    intro exit same
    cases tells <;> cases same
  | took here phase done =>
    apply h.forget.answer (request_of_calls here) fun exit sent => h.held _ _ exit here (.inl sent)
    intro exit same
    cases same
    exact h.completed _ _ done
  | registered here phase => exact h.register here
  | @retook call entry done_ here phase done =>
    have same := request_of_calls here
    refine h.forget.put same ?_
    rintro exit (sent | removing | received)
    · exact h.held call entry exit here (.inl sent)
    · cases removing
      exact h.completed _ _ done
    · cases received
  | @removed call entry result here phase =>
    apply h.dropWaiter.answer
    · intro before there
      rw [dropWaiter_calls, here] at there
      cases there
      split <;> rfl
    · intro exit sent
      rw [dropWaiter_history]
      exact h.held call entry exit here (.inl sent)
    · intro exit same
      rw [dropWaiter_history]
      apply h.held call entry exit here
      right
      left
      cases result with
      | ok value =>
        cases same
        exact phase
      | error error => cases same
  | received here phase =>
    apply h.forget.answer (request_of_calls here) fun exit sent => h.held _ _ exit here (.inl sent)
    intro exit same
    cases same
    exact h.held _ _ _ here (.inr (.inr phase))

/-! ## While a request exits once -/

/-- The exit of a request is recorded at most once. -/
def ExitsOnce (s : SessionProtocol) : ProtocolAct → Prop
  | .controllerExited request _ => ∀ exit, .recorded request exit ∉ s.history
  | _ => True

/-- A recorded exit waits in the map, is in the hands of a call that only has to return, or was
answered. -/
def Kept (s : SessionProtocol) (request : String) (exit : ControllerExit) : Prop :=
  s.completedExits request = some exit ∨
    (∃ call entry, s.calls call = some entry ∧ entry.request = request ∧
      entry.phase = .removing (.ok exit)) ∨
    .answered request (.exit exit) ∈ s.history

/-- What only touches channels keeps an exit where it is. -/
theorem Kept.sameCalls {s s' : SessionProtocol} {request : String} {exit : ControllerExit}
    (h : Kept s request exit) (completed : s'.completedExits = s.completedExits)
    (history : s'.history = s.history)
    (calls : ∀ call entry, s.calls call = some entry → ∃ after, s'.calls call = some after ∧
      after.request = entry.request ∧ after.phase = entry.phase) : Kept s' request exit := by
  obtain waits | ⟨call, entry, here, same, phase⟩ | answered := h
  · exact .inl (completed ▸ waits)
  · obtain ⟨after, there, request, next⟩ := calls call entry here
    exact .inr (.inl ⟨call, after, there, request.trans same, next.trans phase⟩)
  · exact .inr (.inr (history ▸ answered))

/-- So does a call that has no exit in its hands. -/
theorem Kept.put {s : SessionProtocol} {request : String} {exit : ControllerExit} {call : Nat}
    {entry' : ExitCall} (h : Kept s request exit)
    (idle : ∀ entry, s.calls call = some entry → ∀ exit, entry.phase ≠ .removing (.ok exit)) :
    Kept (s.put call entry') request exit := by
  obtain waits | ⟨other, entry, here, same, phase⟩ | answered := h
  · exact .inl waits
  · refine .inr (.inl ⟨other, entry, ?_, same, phase⟩)
    rw [put_calls, if_neg]
    · exact here
    · rintro rfl
      exact idle entry here exit phase
  · exact .inr (.inr answered)

theorem Kept.told {s : SessionProtocol} {request asked : String} {exit : ControllerExit}
    {answer : Answer} (h : Kept s request exit) :
    Kept { s with history := .answered asked answer :: s.history } request exit := by
  obtain waits | held | answered := h
  · exact .inl waits
  · exact .inr (.inl held)
  · exact .inr (.inr (List.mem_cons_of_mem _ answered))

structure Lasting (s : SessionProtocol) : Prop where
  once : ∀ id exit other, .recorded id exit ∈ s.history → .recorded id other ∈ s.history →
    exit = other
  kept : ∀ id exit, .recorded id exit ∈ s.history → Kept s id exit

theorem lasting_new : Lasting new := by
  constructor <;> simp [new]

theorem Lasting.put {s : SessionProtocol} {call : Nat} {entry' : ExitCall} (h : Lasting s)
    (idle : ∀ entry, s.calls call = some entry → ∀ exit, entry.phase ≠ .removing (.ok exit)) :
    Lasting (s.put call entry') :=
  ⟨h.once, fun id exit recorded => (h.kept id exit recorded).put idle⟩

theorem recorded_of_told {history : List Happening} {id asked : String} {exit : ControllerExit}
    {answer : Answer} (mem : .recorded id exit ∈ .answered asked answer :: history) :
    .recorded id exit ∈ history := by
  rcases List.mem_cons.mp mem with same | older
  · cases same
  · exact older

theorem Lasting.told {s : SessionProtocol} {asked : String} {answer : Answer} (h : Lasting s) :
    Lasting { s with history := .answered asked answer :: s.history } where
  once id exit other first second :=
    h.once id exit other (recorded_of_told first) (recorded_of_told second)
  kept id exit recorded := (h.kept id exit (recorded_of_told recorded)).told

/-- A call in one of these phases has no exit in its hands. -/
theorem idle_of_phase {s : SessionProtocol} {call : Nat} {entry : ExitCall}
    (here : s.calls call = some entry) (idle : ∀ exit, entry.phase ≠ .removing (.ok exit)) :
    ∀ entry, s.calls call = some entry → ∀ exit, entry.phase ≠ .removing (.ok exit) := by
  intro found there
  rw [here] at there
  cases there
  exact idle

theorem Lasting.move {s s' : SessionProtocol} {act : ProtocolAct} (sourced : Sourced s)
    (h : Lasting s) (allowed : ExitsOnce s act) (move : Moves s act s') : Lasting s' := by
  have once := h.once
  have kept := h.kept
  cases move with
  | recorded idle => constructor <;> simp [record, Kept] <;> grind [Kept, ExitsOnce]
  | error idle | fatal | closed => constructor <;> assumption
  | unhooked busy => constructor <;> simpa [unhook, Kept]
  | sent busy =>
    refine ⟨once, fun id exit recorded => (kept id exit recorded).sameCalls rfl rfl ?_⟩
    intro call entry here
    exact ⟨_, by rw [onChannel_calls, here]; rfl, by dsimp only; split <;> exact ⟨rfl, rfl⟩⟩
  | drained failing =>
    refine ⟨once, fun id exit recorded => (kept id exit recorded).sameCalls rfl rfl ?_⟩
    intro call entry here
    exact ⟨_, by rw [drain_calls, here]; rfl, by dsimp only; split <;> exact ⟨rfl, rfl⟩⟩
  | started fresh =>
    apply h.put
    intro entry here
    rw [fresh] at here
    cases here
  | cancelled here phase => exact h.put (idle_of_phase here (by simp [phase]))
  | passed here passes =>
    apply h.put (idle_of_phase here _)
    cases passes <;> simp [*]
  | told here tells =>
    apply (h.put (idle_of_phase here _)).told
    cases tells <;> simp [*]
  | took here phase done =>
    constructor <;> simp [answer, Kept] <;> grind [Kept]
  | registered here phase => constructor <;> simp [register, Kept] <;> grind [Kept]
  | retook here phase done => constructor <;> simp [Kept] <;> grind [Kept]
  | @removed _ _ result here phase =>
    cases result <;> constructor <;> simp [answer, Answer.ofResult, Kept] <;> grind [Kept]
  | received here phase =>
    have recorded := sourced.held _ _ _ here (.inr (.inr phase))
    constructor <;> simp [answer, Kept] <;> grind [Kept]

/-! ## While nothing cuts in -/

def ExitCall.InFlight (entry : ExitCall) : Prop := entry.phase ≠ .gone

/-- A call that has looked for the exit for the last time, and can only be told. -/
def ExitCall.PastLook (entry : ExitCall) : Prop :=
  entry.phase = .rechecking ∨ entry.phase = .awaiting

/-- A call on its way to answer a failure. -/
def ExitCall.Fails (entry : ExitCall) : Prop :=
  (entry.PastLook ∧ ∃ error, entry.channel = .sent (.error error)) ∨
    ∃ error, entry.phase = .removing (.error error)

/-- An exit is recorded once, and not while a failure is on its way to a call of the request. A
failure is read or sent only while no exit is recorded for the call it reaches. A call starts when
no other call of the request is in flight and none has answered the exit. -/
def Undivided (s : SessionProtocol) : ProtocolAct → Prop
  | .controllerExited request _ => (∀ exit, .recorded request exit ∉ s.history) ∧
      ∀ call entry, s.calls call = some entry → entry.request = request → ¬ entry.Fails
  | .dispatch => ∀ call error entry, s.dispatching = some (.sending call (.error error)) →
      s.calls call = some entry → entry.PastLook → s.completedExits entry.request = none
  | .failPendingWaiters _ => ∀ request call entry, s.exitWaiters request = some call →
      s.calls call = some entry → entry.PastLook → s.completedExits request = none
  | .start _ _ request => (∀ call entry, s.calls call = some entry → entry.request = request →
      ¬ entry.InFlight) ∧ ∀ exit, .answered request (.exit exit) ∉ s.history
  | .advance call => ∀ entry error, s.calls call = some entry →
      entry.phase = .checking ∨ entry.phase = .rechecking → s.fatal = some error →
      s.completedExits entry.request = none
  | _ => True

/-- An exit is answered once, and nothing else is answered once it is recorded: only
`try_controller_exit` can have looked too early to know. -/
def Delivered (older : List Happening) (request : String) : Answer → Prop
  | .exit exit => .recorded request exit ∈ older ∧ ∀ other, .answered request (.exit other) ∉ older
  | .running => True
  | .standIn | .failed _ => ∀ exit, .recorded request exit ∉ older

structure Orderly (s : SessionProtocol) : Prop where
  alone : ∀ call other entry next, s.calls call = some entry → s.calls other = some next →
    entry.request = next.request → entry.InFlight → next.InFlight → call = other
  attached : ∀ call entry, s.calls call = some entry → entry.InFlight → entry.channel ≠ .dropped
  unanswered : ∀ call entry exit, s.calls call = some entry → entry.InFlight →
    .answered entry.request (.exit exit) ∉ s.history
  failing : ∀ call entry, s.calls call = some entry → entry.Fails →
    s.completedExits entry.request = none

theorem orderly_new : Orderly new := by
  constructor <;> simp [new]

theorem ExitCall.InFlight.of {entry : ExitCall} {phase : CallPhase} (h : entry.phase = phase)
    (notGone : phase ≠ .gone) : entry.InFlight :=
  fun gone => notGone (h.symm.trans gone)

theorem ExitCall.Fails.inFlight {entry : ExitCall} (h : entry.Fails) : entry.InFlight := by
  rintro gone
  rw [ExitCall.Fails, ExitCall.PastLook, gone] at h
  simp at h

/-- A call in flight that has not taken the exit finds it in the map. -/
theorem Orderly.waits {s : SessionProtocol} (h : Orderly s) (lasting : Lasting s) {call : Nat}
    {entry : ExitCall} {exit : ControllerExit} (here : s.calls call = some entry)
    (flying : entry.InFlight) (notTaken : entry.phase ≠ .removing (.ok exit))
    (recorded : .recorded entry.request exit ∈ s.history) :
    s.completedExits entry.request = some exit := by
  obtain waits | ⟨other, next, there, same, phase⟩ | answered := lasting.kept _ _ recorded
  · exact waits
  · have flies : next.InFlight := by rw [ExitCall.InFlight, phase]; simp
    have := h.alone call other entry next here there same.symm flying flies
    subst this
    cases here.symm.trans there
    exact absurd phase notTaken
  · exact absurd answered (h.unanswered call entry exit here flying)

/-- A call moves on: nothing of the other calls in flight changes, and if it answers it is gone. -/
theorem Orderly.moveOn {s s' : SessionProtocol} (h : Orderly s) {call : Nat} {entry : ExitCall}
    {next : CallPhase} (here : s.calls call = some entry) (flying : entry.InFlight)
    (own : s'.calls call = some { entry with phase := next })
    (fails : ExitCall.Fails { entry with phase := next } → s.completedExits entry.request = none)
    (others : ∀ other after, other ≠ call → s'.calls other = some after → after.InFlight →
      s.calls other = some after)
    (completed : ∀ id, s.completedExits id = none → s'.completedExits id = none)
    (history : ∀ id exit, .answered id (.exit exit) ∈ s'.history →
      .answered id (.exit exit) ∈ s.history ∨ (id = entry.request ∧ next = .gone)) :
    Orderly s' := by
  -- Every call in flight was in flight, and a call of this request is this one.
  have before : ∀ other after, s'.calls other = some after → after.InFlight →
      ∃ old, s.calls other = some old ∧ old.InFlight ∧ old.request = after.request ∧
        old.channel = after.channel ∧ (after.Fails → s.completedExits after.request = none) := by
    intro other after there flies
    by_cases isCall : other = call
    · subst isCall
      cases own.symm.trans there
      exact ⟨entry, here, flying, rfl, rfl, fails⟩
    · have old := others other after isCall there flies
      exact ⟨after, old, flies, rfl, rfl, h.failing other after old⟩
  constructor
  · intro first second one two there there' request flies flies'
    obtain ⟨one', at1, f1, r1, -⟩ := before first one there flies
    obtain ⟨two', at2, f2, r2, -⟩ := before second two there' flies'
    exact h.alone first second one' two' at1 at2 (r1.trans (request.trans r2.symm)) f1 f2
  · intro other after there flies
    obtain ⟨old, was, flew, -, channel, -⟩ := before other after there flies
    exact channel ▸ h.attached other old was flew
  · intro other after exit there flies answered
    obtain ⟨old, was, flew, request, -⟩ := before other after there flies
    obtain earlier | ⟨isRequest, gone⟩ := history _ _ answered
    · exact h.unanswered other old exit was flew (request ▸ earlier)
    · have isCall := h.alone other call old entry was here (request.trans isRequest) flew flying
      subst isCall
      cases own.symm.trans there
      exact flies gone
  · intro other after there fails
    obtain ⟨old, was, -, -, -, none⟩ := before other after there fails.inFlight
    exact completed _ (none fails)

/-- Something is sent to calls; what fails now finds no exit. -/
theorem Orderly.sent {s s' : SessionProtocol} (h : Orderly s)
    (calls : ∀ call after, s'.calls call = some after → ∃ entry, s.calls call = some entry ∧
      after.request = entry.request ∧ after.phase = entry.phase ∧
      (entry.channel ≠ .dropped → after.channel ≠ .dropped) ∧
      (after.Fails → entry.Fails ∨ s.completedExits entry.request = none))
    (completed : s'.completedExits = s.completedExits) (history : s'.history = s.history) :
    Orderly s' := by
  constructor
  · intro first second one two at1 at2 same f1 f2
    obtain ⟨one', was1, r1, p1, -⟩ := calls first one at1
    obtain ⟨two', was2, r2, p2, -⟩ := calls second two at2
    rw [r1, r2] at same
    exact h.alone first second one' two' was1 was2 same (fun gone => f1 (p1.trans gone))
      fun gone => f2 (p2.trans gone)
  · intro call after there flies
    obtain ⟨entry, was, -, phase, channel, -⟩ := calls call after there
    exact channel (h.attached call entry was fun gone => flies (phase.trans gone))
  · intro call after exit there flies
    obtain ⟨entry, was, request, phase, -⟩ := calls call after there
    rw [history, request]
    exact h.unanswered call entry exit was fun gone => flies (phase.trans gone)
  · intro call after there fails
    obtain ⟨entry, was, request, -, -, failing⟩ := calls call after there
    rw [completed, request]
    exact (failing fails).elim (h.failing call entry was) id

theorem put_others {s : SessionProtocol} {call other : Nat} {entry after : ExitCall}
    (isOther : other ≠ call) (there : (s.put call entry).calls other = some after) :
    s.calls other = some after := by
  rwa [put_calls, if_neg isOther] at there

/-- The sender that goes away belongs to this call, or to one that is not in flight. -/
theorem Orderly.dropWaiter_others {s : SessionProtocol} (h : Orderly s) (sourced : Sourced s)
    {call other : Nat} {entry after next : ExitCall} (here : s.calls call = some entry)
    (flying : entry.InFlight) (isOther : other ≠ call)
    (there : ((s.dropWaiter entry.request).put call next).calls other = some after)
    (flies : after.InFlight) : s.calls other = some after := by
  have left := put_others isOther there
  rw [dropWaiter_calls, Option.map_eq_some_iff] at left
  obtain ⟨old, was, became⟩ := left
  split at became
  next held =>
    obtain ⟨same, was', request⟩ := sourced.waiters _ _ held
    cases was.symm.trans was'
    have flew : old.InFlight := by
      subst became
      exact flies
    exact absurd (h.alone other call old entry was here request flew flying) isOther
  next => rwa [became] at was

theorem SessionProtocol.Passes.inFlight {s : SessionProtocol} {entry : ExitCall} {next : CallPhase}
    (h : Passes s entry next) : entry.InFlight := by
  cases h <;> simp [ExitCall.InFlight, *]

theorem SessionProtocol.Tells.inFlight {s : SessionProtocol} {entry : ExitCall} {answer : Answer}
    (h : Tells s entry answer) : entry.InFlight := by
  cases h <;> simp [ExitCall.InFlight, *]

theorem SessionProtocol.Tells.notTaken {s : SessionProtocol} {entry : ExitCall} {answer : Answer}
    (h : Tells s entry answer) (exit : ControllerExit) : entry.phase ≠ .removing (.ok exit) := by
  cases h <;> simp [*]

theorem SessionProtocol.Tells.ne_exit {s : SessionProtocol} {entry : ExitCall}
    {exit : ControllerExit} : ¬ Tells s entry (.exit exit) := nofun

theorem forget_none {s : SessionProtocol} {request id : String}
    (h : s.completedExits id = none) : (s.forget request).completedExits id = none := by
  rw [forget_completedExits]
  split
  · rfl
  · exact h

theorem ExitCall.Fails.of_send {entry : ExitCall} {result : WaitResult}
    (h : ExitCall.Fails { entry with channel := entry.channel.send result }) :
    entry.Fails ∨ (entry.PastLook ∧ ∃ error, result = .error error) := by
  obtain ⟨pastLook, error, sent⟩ | removing := h
  · obtain already | ⟨-, now⟩ := Oneshot.send_eq_sent.mp sent
    · exact .inl (.inl ⟨pastLook, error, already⟩)
    · exact .inr ⟨pastLook, error, now⟩
  · exact .inl (.inr removing)

theorem answered_cons {history : List Happening} {request id : String}
    {exit other : ControllerExit}
    (h : .answered id (.exit other) ∈ Happening.answered request (.exit exit) :: history) :
    .answered id (.exit other) ∈ history ∨ (id = request ∧ CallPhase.gone = .gone) := by
  cases h with
  | head => exact .inr ⟨rfl, rfl⟩
  | tail _ earlier => exact .inl earlier

theorem Orderly.move {s s' : SessionProtocol} {act : ProtocolAct} (sourced : Sourced s)
    (h : Orderly s) (allowed : Undivided s act) (move : Moves s act s') : Orderly s' := by
  cases move with
  | @recorded request exit idle =>
    refine ⟨h.alone, h.attached, fun call entry other here flies answered => ?_, ?_⟩
    · exact h.unanswered call entry other here flies (by simpa [record] using answered)
    · intro call entry here fails
      have other : entry.request ≠ request := fun same => allowed.2 call entry here same fails
      simpa [record, other] using h.failing call entry here fails
  | error | fatal | closed | unhooked => exact ⟨h.alone, h.attached, h.unanswered, h.failing⟩
  | @sent call result busy =>
    refine h.sent (fun other after there => ?_) rfl rfl
    obtain ⟨entry, here, became⟩ := Option.map_eq_some_iff.mp ((onChannel_calls _).symm.trans there)
    subst became
    refine ⟨entry, here, by split <;> rfl, by split <;> rfl, fun open_ => ?_, fun fails => ?_⟩
    · split
      · exact Oneshot.send_ne_dropped open_
      · exact open_
    · split at fails
      next same =>
        subst same
        refine fails.of_send.imp_right fun ⟨pastLook, error, isError⟩ => ?_
        exact allowed other error entry (isError ▸ busy) here pastLook
      next => exact .inl fails
  | drained failing =>
    refine h.sent (fun other after there => ?_) rfl rfl
    obtain ⟨entry, here, became⟩ := Option.map_eq_some_iff.mp (drain_calls.symm.trans there)
    subst became
    refine ⟨entry, here, by split <;> rfl, by split <;> rfl, fun open_ => ?_, fun fails => ?_⟩
    · split
      · exact Oneshot.send_ne_dropped open_
      · exact open_
    · split at fails
      next held =>
        exact fails.of_send.imp_right fun ⟨pastLook, _⟩ => allowed _ _ _ held here pastLook
      next => exact .inl fails
  | @started call ask request fresh =>
    have old : ∀ other entry, (s.put call (.start ask request)).calls other = some entry →
        s.calls other = some entry ∨ (other = call ∧ entry = .start ask request) := by
      intro other entry there
      rw [put_calls] at there
      split at there
      next same => exact .inr ⟨same, (Option.some.inj there).symm⟩
      next => exact .inl there
    have lonely := allowed.1
    constructor
    · intro first second one two there there' same flies flies'
      obtain was | ⟨isCall, rfl⟩ := old first one there
      · obtain was' | ⟨-, rfl⟩ := old second two there'
        · exact h.alone first second one two was was' same flies flies'
        · exact absurd flies (lonely first one was same)
      · obtain was' | ⟨isCall', -⟩ := old second two there'
        · exact absurd flies' (lonely second two was' same.symm)
        · exact isCall.trans isCall'.symm
    · intro other entry there flies
      obtain was | ⟨-, rfl⟩ := old other entry there
      · exact h.attached other entry was flies
      · nofun
    · intro other entry exit there flies
      obtain was | ⟨-, rfl⟩ := old other entry there
      · exact h.unanswered other entry exit was flies
      · exact allowed.2 exit
    · intro other entry there fails
      obtain was | ⟨-, rfl⟩ := old other entry there
      · exact h.failing other entry was fails
      · simp [ExitCall.start, ExitCall.Fails, ExitCall.PastLook] at fails
  | @cancelled call entry here phase =>
    exact h.moveOn here (.of phase nofun) put_own (fun fails => absurd rfl fails.inFlight)
      (fun _ _ isOther there _ => put_others isOther there) (fun _ => id) (fun _ _ => .inl)
  | passed here passes =>
    refine h.moveOn here passes.inFlight put_own (fun fails => ?_)
      (fun _ _ isOther there _ => put_others isOther there) (fun _ => id) (fun _ _ => .inl)
    cases passes with
    | missed | healthy | woken => simp [ExitCall.Fails, ExitCall.PastLook] at fails
    | missedAgain _ none => exact none
    | fatalAgain phase fatal => exact allowed _ _ here (.inr phase) fatal
    | stillHealthy phase _ =>
      obtain ⟨-, sent⟩ | ⟨error, removing⟩ := fails
      · exact h.failing _ _ here (.inl ⟨.inl phase, sent⟩)
      · cases removing
  | told here tells =>
    refine h.moveOn here tells.inFlight put_own (fun fails => absurd rfl fails.inFlight)
      (fun _ _ isOther there _ => put_others isOther there) (fun _ => id) ?_
    rintro id exit (_ | ⟨_, earlier⟩)
    · exact absurd tells SessionProtocol.Tells.ne_exit
    · exact .inl earlier
  | took here phase done =>
    exact h.moveOn here (.of phase nofun) put_own (fun fails => absurd rfl fails.inFlight)
      (fun _ _ isOther there _ => put_others isOther there) (fun _ => forget_none)
      fun _ _ => answered_cons
  | @registered call entry here phase =>
    refine h.moveOn here (.of phase nofun) put_own (fun fails => ?_)
      (fun _ _ isOther there =>
        h.dropWaiter_others sourced here (.of phase nofun) isOther there)
      (fun _ none => ?_) fun _ _ answered => .inl ?_
    · simp [ExitCall.Fails, ExitCall.PastLook] at fails
    · rwa [← dropWaiter_completedExits] at none
    · rwa [← @dropWaiter_history _ entry.request]
  | retook here phase done =>
    refine h.moveOn here (.of phase nofun) put_own (fun fails => ?_)
      (fun _ _ isOther there _ => put_others isOther there) (fun _ => forget_none) (fun _ _ => .inl)
    simp [ExitCall.Fails, ExitCall.PastLook] at fails
  | @removed _ _ result here phase =>
    refine h.moveOn here (.of phase nofun) put_own (fun fails => absurd rfl fails.inFlight)
      (fun _ _ isOther there =>
        h.dropWaiter_others sourced here (.of phase nofun) isOther there)
      (fun _ none => ?_) fun id exit answered => ?_
    · rwa [← dropWaiter_completedExits] at none
    · rw [answer, dropWaiter_history] at answered
      cases result with
      | ok => exact answered_cons answered
      | error =>
        obtain _ | ⟨_, earlier⟩ := answered
        exact .inl earlier
  | received here phase =>
    exact h.moveOn here (.of phase nofun) put_own (fun fails => absurd rfl fails.inFlight)
      (fun _ _ isOther there _ => put_others isOther there) (fun _ => forget_none)
      fun _ _ => answered_cons

/-- A failure is told only to a call that finds no exit in the map. -/
theorem Orderly.told {s : SessionProtocol} {call : Nat} {entry : ExitCall} {answer : Answer}
    (h : Orderly s) (allowed : Undivided s (.advance call)) (here : s.calls call = some entry)
    (tells : Tells s entry answer) :
    answer = .running ∨ s.completedExits entry.request = none := by
  cases tells with
  | standIn phase _ fatal =>
    obtain ⟨error, fatal⟩ := Option.isSome_iff_exists.mp fatal
    exact .inr (allowed entry error here (.inl phase) fatal)
  | running => exact .inl rfl
  | fatal phase _ fatal => exact .inr (allowed entry _ here (.inl phase) fatal)
  | woken phase sent => exact .inr (h.failing call entry here (.inl ⟨.inr phase, _, sent⟩))
  | dropped phase dropped => exact absurd dropped (h.attached call entry here (.of phase nofun))

theorem Orderly.delivered {s s' : SessionProtocol} {act : ProtocolAct} (sourced : Sourced s)
    (lasting : Lasting s) (h : Orderly s) (allowed : Undivided s act) (move : Moves s act s')
    (answered : Answers Delivered s.history) : Answers Delivered s'.history := by
  -- No exit is recorded for a call that finds none in the map, unless it has taken it.
  have missing : ∀ {call entry}, s.calls call = some entry → entry.InFlight →
      (∀ exit, entry.phase ≠ .removing (.ok exit)) → s.completedExits entry.request = none →
      ∀ exit, .recorded entry.request exit ∉ s.history := by
    intro call entry here flying notTaken none exit recorded
    cases none.symm.trans (h.waits lasting here flying (notTaken exit) recorded)
  cases move with
  | recorded | error | unhooked | sent | fatal | closed | drained | started | cancelled | passed
  | retook => exact answered
  | registered => simpa [register] using answered
  | @told call entry answer here tells =>
    refine ⟨?_, answered⟩
    obtain rfl | none := h.told allowed here tells
    · trivial
    · have absent := missing here tells.inFlight tells.notTaken none
      cases answer with
      | exit => exact absurd tells SessionProtocol.Tells.ne_exit
      | running => trivial
      | standIn | failed => exact absent
  | took here phase done =>
    exact ⟨⟨sourced.completed _ _ done, fun other => h.unanswered _ _ other here (.of phase nofun)⟩,
      answered⟩
  | @removed call entry result here phase =>
    rw [answer, dropWaiter_history]
    refine ⟨?_, answered⟩
    cases result with
    | ok exit =>
      exact ⟨sourced.held _ _ _ here (.inr (.inl phase)),
        fun other => h.unanswered _ _ other here (.of phase nofun)⟩
    | error =>
      have none := h.failing call entry here (.inr ⟨_, phase⟩)
      exact missing here (.of phase nofun) (fun _ => by rw [phase]; nofun) none
  | received here phase =>
    exact ⟨⟨sourced.held _ _ _ here (.inr (.inr phase)),
      fun other => h.unanswered _ _ other here (.of phase nofun)⟩, answered⟩

/-! ## Whole runs -/

theorem sourced_of_run {allowed : SessionProtocol → ProtocolAct → Prop} {s : SessionProtocol}
    (run : ProtocolRun allowed new s) : Sourced s := by
  induction run with
  | refl => exact sourced_new
  | tail _ step ih =>
    obtain ⟨_, _, step⟩ := step
    exact ih.move (moves_of_step step)

theorem lasting_of_run {allowed : SessionProtocol → ProtocolAct → Prop}
    (once : ∀ s act, allowed s act → ExitsOnce s act) {s : SessionProtocol}
    (run : ProtocolRun allowed new s) : Lasting s := by
  induction run with
  | refl => exact lasting_new
  | tail before step ih =>
    obtain ⟨act, may, step⟩ := step
    exact ih.move (sourced_of_run before) (once _ act may) (moves_of_step step)

theorem Undivided.exitsOnce {s : SessionProtocol} {act : ProtocolAct} (h : Undivided s act) :
    ExitsOnce s act := by
  cases act with
  | controllerExited => exact h.1
  | _ => trivial

/-- A call that is not about to read the failure may always move on. -/
theorem Undivided.ofPhase {s : SessionProtocol} {call : Nat}
    (h : ∀ entry, s.calls call = some entry →
      entry.phase ≠ .checking ∧ entry.phase ≠ .rechecking) : Undivided s (.advance call) :=
  fun entry _ here phase => absurd phase (not_or.mpr (h entry here))

/-- The first call may start for an exit that nobody was told of. -/
theorem Undivided.ofFirst {s : SessionProtocol} {call : Nat} {ask : Ask} {request : String}
    (nobody : ∀ call, s.calls call = none)
    (untold : ∀ exit, .answered request (.exit exit) ∉ s.history) :
    Undivided s (.start call ask request) := by
  refine ⟨?_, untold⟩
  intro other entry here
  rw [nobody other] at here
  cases here

theorem delivered_of_run {s : SessionProtocol} (run : ProtocolRun Undivided new s) :
    Orderly s ∧ Answers Delivered s.history := by
  induction run with
  | refl => exact ⟨orderly_new, trivial⟩
  | tail before step ih =>
    obtain ⟨act, may, step⟩ := step
    have sourced := sourced_of_run before
    have lasting := lasting_of_run (fun _ _ => Undivided.exitsOnce) before
    have move := moves_of_step step
    exact ⟨ih.1.move sourced may move, ih.1.delivered sourced lasting may move ih.2⟩

/-- In every run an exit is answered only for its request. While requests exit once no recorded exit
is lost. While nothing cuts in, an exit is answered once, and from the time it is recorded it is
what a call for the request is told. -/
theorem controller_exits_delivered (s : SessionProtocol) :
    (ProtocolRun (fun _ _ => True) new s → Answers Attributed s.history) ∧
    (ProtocolRun ExitsOnce new s → ∀ id exit, .recorded id exit ∈ s.history → Kept s id exit) ∧
    (ProtocolRun Undivided new s →
      Answers Delivered s.history ∧ ∀ id exit, .recorded id exit ∈ s.history → Kept s id exit) :=
  ⟨fun run => (sourced_of_run run).answered,
    fun run => (lasting_of_run (fun _ _ => id) run).kept,
    fun run => ⟨(delivered_of_run run).2,
      (lasting_of_run (fun _ _ => Undivided.exitsOnce) run).kept⟩⟩

theorem controller_exits_delivered_afterFatal : ∃ s, ProtocolRun Undivided new s ∧
    Answers Delivered s.history ∧ s.fatal = some ⟨"sidecar died"⟩ ∧ s.history =
      [.answered "launch" (.exit ⟨some 7, none⟩), .recorded "launch" ⟨some 7, none⟩] := by
  have run : ProtocolRun Undivided new new := .refl
  have run := run.tail ⟨.controllerExited "launch" ⟨some 7, none⟩,
    ⟨fun _ => List.not_mem_nil, fun _ _ here => by cases here⟩, rfl⟩
  have run := run.tail ⟨.dispatch, fun _ _ _ => nofun, rfl⟩
  have run := run.tail ⟨.setFatal ⟨"sidecar died"⟩, trivial, rfl⟩
  have untold : ∀ exit, Happening.answered "launch" (.exit exit) ∉
      [Happening.recorded "launch" ⟨some 7, none⟩] := by simp
  have run := run.tail ⟨.start 0 .wait "launch", .ofFirst (fun _ => rfl) untold, rfl⟩
  have run := run.tail ⟨.advance 0, .ofPhase fun _ here => by cases here; exact ⟨nofun, nofun⟩, rfl⟩
  exact ⟨_, run, ((controller_exits_delivered _).2.2 run).1, rfl, rfl⟩

/-- The wait finds no exit, the exit is recorded, the session fails, and the wait finds that. -/
theorem exit_loses_to_fatal : ∃ s, ProtocolRun ExitsOnce new s ∧
    ¬ Answers Delivered s.history ∧ s.completedExits "launch" = some ⟨some 7, none⟩ ∧ s.history =
      [.answered "launch" (.failed ⟨"sidecar died"⟩), .recorded "launch" ⟨some 7, none⟩] := by
  have run : ProtocolRun ExitsOnce new new := .refl
  have run := run.tail ⟨.start 0 .wait "launch", trivial, rfl⟩
  have run := run.tail ⟨.advance 0, trivial, rfl⟩
  have run := run.tail ⟨.controllerExited "launch" ⟨some 7, none⟩, nofun, rfl⟩
  have run := run.tail ⟨.setFatal ⟨"sidecar died"⟩, trivial, rfl⟩
  have run := run.tail ⟨.advance 0, trivial, rfl⟩
  exact ⟨_, run, fun ⟨fits, _⟩ => fits _ (.head _), rfl, rfl⟩

end RoLauncher.Session
