import RoLauncher.Input.Device
import RoLauncher.Threads.Pool

/-!
# The input worker (`tools/input/uinput_worker.rs`)

Commands reach the worker over two queues; it executes one after the other.
Between the sections of a spam cycle it looks at the generation that every
`release_spam` raises. A ticket, a call of `release_spam` and a command keep
when they were made, as the number of tickets captured before.

Metrics and the caller's wait for the outcome are left out: nothing reads the
former back, and the latter changes nothing.
-/

namespace RoLauncher.Input

open RoLauncher.Threads

/-! ## Commands -/

inductive InputSource where
  | autopot
  | autobuff
  | spammer
  | gear
  deriving DecidableEq, Repr

def InputSource.highPriority : InputSource → Bool
  | .autopot => true
  | _ => false

inductive CommandKind where
  | pressKey (key : String)
  | spamCycle (key : String) (modifier : Option SpamModifier)
  | releaseSpam
  | keyEvent (key : String) (value : Int)
  deriving DecidableEq, Repr

/-- A `SpamCycleTicket`: the generation it observed, and how many tickets were captured before. -/
structure SpamCycleTicket where
  serial : Nat
  observedGeneration : Nat
  deriving DecidableEq, Repr

/-- A call of `release_spam`: the generation it raised, and the tickets captured before. -/
structure ReleaseCall where
  raised : Nat
  begun : Nat
  deriving DecidableEq, Repr

structure WorkerCommand where
  source : InputSource
  kind : CommandKind
  sequence : Nat
  deadline : Option Nat
  cancellation : Option SpamCycleTicket
  /-- The call that submits a release. -/
  call : Option ReleaseCall
  /-- The tickets captured before the command took its number. -/
  submitted : Nat
  deriving DecidableEq, Repr

def WorkerCommand.isSpamCycle (command : WorkerCommand) : Bool :=
  match command.kind with
  | .spamCycle .. => true
  | _ => false

inductive CommandOutcome where
  | completed
  | overrun
  | failed (message : String)
  deriving DecidableEq, Repr

def ToolsError.toString : ToolsError → String
  | .other message => message
  | .input key message => s!"input failed for key '{key}': {message}"

/-! ## The worker -/

structure SpamState where
  heldKey : Option String
  heldModifier : Option SpamModifier
  mouseLeftPressed : Bool
  cancelledThrough : Option Nat
  deriving DecidableEq, Repr

abbrev Writes := List (Write WorkerCommand)

/-- A command that was executed, with the writes before it and those at its end. -/
structure Execution where
  command : WorkerCommand
  outcome : CommandOutcome
  before : Writes
  after : Writes

/-- What the worker's thread alone touches. -/
structure Worker where
  device : CombatUinput WorkerCommand
  spam : SpamState
  /-- The writes before the command that is executed. -/
  began : Writes
  history : List Execution

namespace Worker

def new (outcomes : Nat → Written) : Worker := ⟨.create outcomes, ⟨none, none, false, none⟩, [], []⟩

def holds (w : Worker) (key : String) : Bool :=
  w.spam.heldKey.any fun held => eqIgnoreAsciiCase held key

def begin (command : WorkerCommand) (w : Worker) : Worker :=
  { w with device := { w.device with current := some command }, began := w.device.writes }

def acknowledge (command : WorkerCommand) (outcome : CommandOutcome) (w : Worker) : Worker :=
  { w with history := ⟨command, outcome, w.began, w.device.writes⟩ :: w.history }

/-- No command is executed any more. -/
def idle (w : Worker) : Worker := { w with device := { w.device with current := none } }

def pressKey (key : String) (w : Worker) : Except ToolsError Unit × Worker :=
  if w.holds key then (.error (.input key "tecla ocupada por el spammer activo"), w)
  else
    match w.device.keyEvent key 1 with
    | (.error error, device) => (.error error, { w with device := device.release (some key) false })
    | (.ok (), device) =>
      match device.keyEvent key 0 with
      | (.error error, device) => (.error error, { w with device := device.release (some key) false })
      | (.ok (), device) => (.ok (), { w with device })

def keyEvent (key : String) (value : Int) (w : Worker) : Except ToolsError Unit × Worker :=
  match w.device.keyEvent key value with
  | (.error error, device) => (.error error, { w with device := device.release (some key) false })
  | (.ok (), device) =>
    (.ok (), { w with
      device
      spam := if value = 0 ∧ w.holds key then { w.spam with heldKey := none } else w.spam })

/-- The first part of a release: the button. It answers with the error. -/
def releaseMouse (w : Worker) : Option ToolsError × Worker :=
  if w.spam.mouseLeftPressed then
    match w.device.mouseLeftEvent 0 with
    | (.ok (), device) => (none, { w with device, spam := { w.spam with mouseLeftPressed := false } })
    | (.error error, device) => (some error, { w with device })
  else (none, w)

def releaseKey (w : Worker) : Option ToolsError × Worker :=
  match w.spam.heldKey with
  | some key =>
    match w.device.keyEvent key 0 with
    | (.ok (), device) => (none, { w with device, spam := { w.spam with heldKey := none } })
    | (.error error, device) => (some error, { w with device })
  | none => (none, w)

def releaseModifier (w : Worker) : Option ToolsError × Worker :=
  match w.spam.heldModifier with
  | some modifier =>
    match w.device.modifierEvent modifier 0 with
    | (.ok (), device) => (none, { w with device, spam := { w.spam with heldModifier := none } })
    | (.error error, device) => (some error, { w with device })
  | none => (none, w)

/-- What every failed release ends with. -/
def releaseAll (w : Worker) : Worker := { w with device := w.device.release none true }

def releaseCycleInputs (w : Worker) : Except ToolsError Bool × Worker :=
  let hadKey := w.spam.heldKey.isSome
  let (mouseError, w) := w.releaseMouse
  let (keyError, w) := w.releaseKey
  match mouseError.or keyError with
  | some error => (.error error, w.releaseAll)
  | none => (.ok hadKey, w)

def releaseSpamInputs (w : Worker) : Except ToolsError Unit × Worker :=
  let (mouseError, w) := w.releaseMouse
  let (keyError, w) := w.releaseKey
  let (modifierError, w) := w.releaseModifier
  match mouseError.or (keyError.or modifierError) with
  | some error => (.error error, w.releaseAll)
  | none => (.ok (), w)

/-- The modifier of the cycle is pressed, and recorded once its write has succeeded. -/
def pressModifier (modifier : Option SpamModifier) (w : Worker) : Except ToolsError Unit × Worker :=
  match modifier with
  | none => (.ok (), w)
  | some next =>
    match w.device.modifierEvent next 1 with
    | (.error error, device) => (.error error, { w with device }.releaseAll)
    | (.ok (), device) => (.ok (), { w with device, spam := { w.spam with heldModifier := some next } })

def reconcileSpamModifier (modifier : Option SpamModifier) (w : Worker) :
    Except ToolsError Unit × Worker :=
  if w.spam.heldModifier = modifier then (.ok (), w)
  else
    match w.spam.heldModifier with
    | none => w.pressModifier modifier
    | some held =>
      match w.device.modifierEvent held 0 with
      | (.error error, device) => (.error error, { w with device }.releaseAll)
      | (.ok (), device) =>
        { w with device, spam := { w.spam with heldModifier := none } }.pressModifier modifier

/-- The key of the cycle is recorded, and then pressed. -/
def pressCycleKey (key : String) (w : Worker) : Except ToolsError Unit × Worker :=
  let w := { w with spam := { w.spam with heldKey := some key } }
  match w.device.keyEvent key 1 with
  | (.error error, device) => (.error error, { w with device }.releaseAll)
  | (.ok (), device) => (.ok (), { w with device })

def click (w : Worker) : Except ToolsError Unit × Worker :=
  let w := { w with spam := { w.spam with mouseLeftPressed := true } }
  match w.device.mouseLeftEvent 1 with
  | (.error error, device) => (.error error, { w with device }.releaseAll)
  | (.ok (), device) =>
    match device.mouseLeftEvent 0 with
    | (.error error, device) => (.error error, { w with device }.releaseAll)
    | (.ok (), device) =>
      (.ok (), { w with device, spam := { w.spam with mouseLeftPressed := false } })

/-- The cycles up to a release are discarded from now on. -/
def cancelThrough (sequence : Nat) (w : Worker) : Worker :=
  { w with spam := { w.spam with
      cancelledThrough := some (w.spam.cancelledThrough.elim sequence (max · sequence)) } }

end Worker

/-! ## The queues -/

def highQueueCapacity : Nat := 8

def normalQueueCapacity : Nat := 32

structure UinputInput where
  spamGeneration : Nat
  nextSequence : Nat
  tickets : List SpamCycleTicket
  calls : List ReleaseCall
  /-- The commands that took a number. -/
  commands : List WorkerCommand
  high : List WorkerCommand
  normal : List WorkerCommand
  shutdown : Bool
  stopped : Bool
  worker : Worker

namespace UinputInput

def new (outcomes : Nat → Written) : UinputInput where
  spamGeneration := 1
  nextSequence := 1
  tickets := []
  calls := []
  commands := []
  high := []
  normal := []
  shutdown := false
  stopped := false
  worker := .new outcomes

def setWorker (s : UinputInput) (worker : Worker) : UinputInput := { s with worker }

/-- `SpamCancellation::requested`. -/
def requested (s : UinputInput) (cancellation : Option SpamCycleTicket) : Bool :=
  cancellation.any fun ticket => s.spamGeneration != ticket.observedGeneration

/-- A release with its number or a later one has been executed. -/
def cutOff (s : UinputInput) (command : WorkerCommand) : Bool :=
  s.worker.spam.cancelledThrough.any fun cutoff => command.sequence ≤ cutoff

def cancelled (s : UinputInput) (command : WorkerCommand) : Bool :=
  command.isSpamCycle && (s.cutOff command || s.requested command.cancellation)

def nextTicket (s : UinputInput) : SpamCycleTicket := ⟨s.tickets.length, s.spamGeneration⟩

def captureTicket (s : UinputInput) : UinputInput := { s with tickets := s.nextTicket :: s.tickets }

def nextCall (s : UinputInput) : ReleaseCall := ⟨s.spamGeneration + 1, s.tickets.length⟩

/-- `release_spam` invalidates the cycles in flight. -/
def raise (s : UinputInput) : UinputInput :=
  { s with spamGeneration := s.spamGeneration + 1, calls := s.nextCall :: s.calls }

def nextCommand (s : UinputInput) (source : InputSource) (kind : CommandKind) (deadline : Option Nat)
    (cancellation : Option SpamCycleTicket) (call : Option ReleaseCall) : WorkerCommand :=
  ⟨source, kind, s.nextSequence, deadline, cancellation, call, s.tickets.length⟩

def number (command : WorkerCommand) (s : UinputInput) : UinputInput :=
  { s with nextSequence := s.nextSequence + 1, commands := command :: s.commands }

def highFull (s : UinputInput) : Bool := highQueueCapacity ≤ s.high.length

/-- `try_send`: to a full queue, or to one whose worker is gone, nothing is sent. -/
def trySend (command : WorkerCommand) (s : UinputInput) : UinputInput :=
  if s.stopped then s
  else if command.source.highPriority then
    if s.highFull then s else { s with high := s.high ++ [command] }
  else if normalQueueCapacity ≤ s.normal.length then s
  else { s with normal := s.normal ++ [command] }

def tryRecvHigh (s : UinputInput) : UinputInput := { s with high := s.high.tail }

/-- The select: a shutdown first, then the high queue. -/
def select (s : UinputInput) : Option WorkerCommand :=
  if s.shutdown then none else s.high.head?.or s.normal.head?

def selected (s : UinputInput) : UinputInput :=
  if s.shutdown then s
  else if s.high = [] then { s with normal := s.normal.tail }
  else { s with high := s.high.tail }

end UinputInput

/-! ## The threads -/

abbrev InputTask := Task UinputInput ToolsError

/-- A section of the worker: nobody else touches what it works on. -/
def inWorker {α : Type} (section' : Worker → Except ToolsError α × Worker) : InputTask α :=
  .step (fun _ => true) (fun s => s.setWorker (section' s.worker).2)
    fun s => Task.ofExcept (section' s.worker).1

def requested (cancellation : Option SpamCycleTicket) : InputTask Bool :=
  Task.read fun s => s.requested cancellation

/-- A cycle that is cancelled releases its inputs. -/
def cancelCycle : InputTask Bool := do
  inWorker Worker.releaseSpamInputs
  .ret false

def spamCycle (key : String) (modifier : Option SpamModifier)
    (cancellation : Option SpamCycleTicket) : InputTask Bool := do
  let _ ← inWorker Worker.releaseCycleInputs
  if ← requested cancellation then cancelCycle
  else do
    inWorker (Worker.reconcileSpamModifier modifier)
    if ← requested cancellation then cancelCycle
    else do
      inWorker (Worker.pressCycleKey key)
      if ← requested cancellation then cancelCycle
      else do
        inWorker Worker.click
        .ret true

/-- Answers whether the command was completed. -/
def runCommand (command : WorkerCommand) : InputTask Bool :=
  match command.kind with
  | .pressKey key => do
    inWorker (Worker.pressKey key)
    .ret true
  | .spamCycle key modifier => spamCycle key modifier command.cancellation
  | .releaseSpam => do
    inWorker fun w => (w.cancelThrough command.sequence).releaseSpamInputs
    .ret true
  | .keyEvent key value => do
    inWorker (Worker.keyEvent key value)
    .ret true

def outcomeOf : Except ToolsError Bool → CommandOutcome
  | .ok true => .completed
  | .ok false => .overrun
  | .error error => .failed error.toString

def executeCommand (started : Nat) (command : WorkerCommand) : InputTask CommandOutcome := do
  if ← Task.read fun s => s.cancelled command then .ret .overrun
  else if command.deadline.any (started > ·) then .ret .overrun
  else
    let result ← (runCommand command).attempt
    .ret (outcomeOf result)

/-- One command, from its queue to its acknowledgement. -/
def handle (started : Nat) (command : WorkerCommand) : InputTask Unit := do
  Task.modify fun s => s.setWorker (s.worker.begin command)
  let outcome ← executeCommand started command
  Task.modify fun s => s.setWorker (s.worker.acknowledge command outcome)

/-- The worker ends, with everything released. -/
def stop : InputTask Unit := do
  let _ ← ((inWorker fun w => w.idle.releaseSpamInputs).attempt : InputTask (Except ToolsError Unit))
  inWorker fun w => (.ok (), w.releaseAll)
  Task.modify fun s => { s with stopped := true }

/-- One round of the worker's loop. -/
def workerLoop (started : Nat) : InputTask Unit := do
  if ← Task.read fun s => s.shutdown then stop
  else
    match ← Task.fetch (fun s => s.high.head?) UinputInput.tryRecvHigh with
    | some command => handle started command
    | none =>
      match ← (Task.step (fun s => s.shutdown || s.select.isSome) UinputInput.selected
        fun s => .ret s.select : InputTask (Option WorkerCommand)) with
      | some command => handle started command
      | none => stop

/-- `submit`. The queue of a release may stay full until its time is over. -/
def submit (source : InputSource) (kind : CommandKind) (deadline : Option Nat)
    (cancellation : Option SpamCycleTicket) (call : Option ReleaseCall) (timeout : Bool) :
    InputTask Unit := do
  let command ← Task.fetch (fun s => s.nextCommand source kind deadline cancellation call)
    fun s => s.number (s.nextCommand source kind deadline cancellation call)
  if kind = .releaseSpam then
    if timeout then .fail (.other "uinput cleanup queue timeout")
    else Task.await (fun s => s.stopped || !s.highFull) fun s =>
      if s.stopped then s else { s with high := s.high ++ [command] }
  else Task.modify (UinputInput.trySend command)

def releaseSpam (source : InputSource) (timeout : Bool) : InputTask Unit := do
  let call ← Task.fetch UinputInput.nextCall UinputInput.raise
  submit source .releaseSpam none none (some call) timeout

/-- The calls of the writers, at any time. The worker's thread has no number. -/
inductive InputEntry : Option Nat → UinputInput → InputTask Unit → Prop
  | worker {s : UinputInput} (started : Nat) : s.stopped = false → InputEntry none s (workerLoop started)
  | releaseSpam {n : Nat} {s : UinputInput} (source : InputSource) (timeout : Bool) :
      InputEntry (some n) s (releaseSpam source timeout)
  | spamCycleTicket {n : Nat} {s : UinputInput} : InputEntry (some n) s (Task.modify UinputInput.captureTicket)
  | spamCycle {n : Nat} {s : UinputInput} (source : InputSource) (key : String)
      (modifier : Option SpamModifier) (deadline : Nat) {ticket : SpamCycleTicket} :
      ticket ∈ s.tickets → InputEntry (some n) s
        (submit source (.spamCycle key modifier) (some deadline) (some ticket) none false)
  | pressKey {n : Nat} {s : UinputInput} (source : InputSource) (key : String) :
      InputEntry (some n) s (submit source (.pressKey key) none none none false)
  | keyEvent {n : Nat} {s : UinputInput} (source : InputSource) (key : String) (value : Int) :
      InputEntry (some n) s (submit source (.keyEvent key value) none none none false)
  | shutdown {n : Nat} {s : UinputInput} :
      InputEntry (some n) s (Task.modify fun s => { s with shutdown := true })

abbrev InputRun := PoolRun InputEntry

end RoLauncher.Input
