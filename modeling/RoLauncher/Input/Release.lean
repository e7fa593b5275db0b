import RoLauncher.Input.Spam

/-!
# Releases and stale cycles

A release reaches the worker past the cycles that wait in the other queue. Its
number is later than theirs, and it raised the generation after their tickets
were captured; each of the two is enough to discard them. A ticket captured
after the release has taken its number is out of reach of both.
-/

namespace RoLauncher.Input

open RoLauncher.Threads

/-! ## The invariant -/

/-- The cycle is later than the release: its number is, and its ticket was not captured before the
call of the release. -/
def After (release cycle : WorkerCommand) : Prop :=
  release.sequence < cycle.sequence ∧
    ∃ call ticket, release.call = some call ∧ cycle.cancellation = some ticket ∧
      call.begun ≤ ticket.serial

structure Execution.Proper (e : Execution) : Prop where
  release : e.command.kind = .releaseSpam → e.outcome = .completed → Prompt e.after →
    ∀ code, spamDown e.after code = false
  /-- A completed cycle has clicked once, at its end, right after it pressed its key. -/
  cycle : ∀ key modifier, e.command.kind = .spamCycle key modifier → e.outcome = .completed →
    ∃ code earlier, keyLabelToKeycode key = some code ∧
      e.after = ⟨some e.command, .btnLeft, 0, .accepted⟩ ::
        ⟨some e.command, .btnLeft, 1, .accepted⟩ :: ⟨some e.command, code, 1, .accepted⟩ ::
          (earlier ++ e.before) ∧ ∀ x ∈ earlier, noClick x

structure Worker.Inv (w : Worker) : Prop where
  recorded : Prompt w.device.writes → Recorded w
  proper : ∀ e ∈ w.history, e.Proper
  /-- What was written after a release is not of an older cycle. -/
  fresh : ∀ e ∈ w.history, e.command.kind = .releaseSpam →
    ∃ later, w.device.writes = later ++ e.after ∧
      ∀ x ∈ later, ∀ cycle ∈ x.command, cycle.isSpamCycle = true → After e.command cycle
  cutoff : ∀ e ∈ w.history, e.command.kind = .releaseSpam →
    ∃ n ∈ w.spam.cancelledThrough, e.command.sequence ≤ n

/-- A command as the calls of the writers make it. -/
structure WorkerCommand.Valid (s : UinputInput) (command : WorkerCommand) : Prop where
  release : command.kind = .releaseSpam →
    command.deadline = none ∧ ∃ call, command.call = some call
  cycle : command.isSpamCycle = true → ∃ ticket, command.cancellation = some ticket
  ticket : ∀ ticket ∈ command.cancellation, ticket ∈ s.tickets ∧ ticket.serial < command.submitted
  call : ∀ call ∈ command.call, call ∈ s.calls ∧ call.begun ≤ command.submitted
  number : command.sequence < s.nextSequence ∧ command.submitted ≤ s.tickets.length

structure UinputInput.Inv (s : UinputInput) : Prop where
  worker : s.worker.Inv
  captured : ∀ ticket ∈ s.tickets,
    ticket.serial < s.tickets.length ∧ ticket.observedGeneration ≤ s.spamGeneration
  called : ∀ call ∈ s.calls, call.begun ≤ s.tickets.length ∧ call.raised ≤ s.spamGeneration
  /-- The generation tells whether a ticket was captured before a call. -/
  apart : ∀ ticket ∈ s.tickets, ∀ call ∈ s.calls,
    ticket.serial < call.begun ↔ ticket.observedGeneration < call.raised
  raised : ∀ ticket ∈ s.tickets, ticket.observedGeneration < s.spamGeneration →
    ∃ call ∈ s.calls, call.raised = s.spamGeneration
  valid : ∀ command ∈ s.commands, command.Valid s
  ordered : ∀ command ∈ s.commands, ∀ other ∈ s.commands,
    command.submitted < other.submitted → command.sequence < other.sequence
  queued : ∀ command, command ∈ s.high ∨ command ∈ s.normal → command ∈ s.commands
  executed : ∀ e ∈ s.worker.history, e.command ∈ s.commands
  cutoff : ∀ n ∈ s.worker.spam.cancelledThrough, ∃ command ∈ s.commands,
    command.kind = .releaseSpam ∧ command.sequence = n

/-! ## The threads -/

/-- What only grows. -/
structure Grows (s t : UinputInput) : Prop where
  tickets : ∀ ticket ∈ s.tickets, ticket ∈ t.tickets
  calls : ∀ call ∈ s.calls, call ∈ t.calls
  commands : ∀ command ∈ s.commands, command ∈ t.commands

theorem Grows.refl (s : UinputInput) : Grows s s := ⟨fun _ h => h, fun _ h => h, fun _ h => h⟩

theorem Grows.same {s t : UinputInput} (tickets : t.tickets = s.tickets) (calls : t.calls = s.calls)
    (commands : t.commands = s.commands) : Grows s t :=
  ⟨fun _ h => tickets ▸ h, fun _ h => calls ▸ h, fun _ h => commands ▸ h⟩

theorem Grows.trans {s t u : UinputInput} (h : Grows s t) (h' : Grows t u) : Grows s u :=
  ⟨fun x mem => h'.tickets x (h.tickets x mem), fun x mem => h'.calls x (h.calls x mem),
    fun x mem => h'.commands x (h.commands x mem)⟩

/-- The worker's thread has its part to itself; the others only add to theirs. -/
structure Guarantee (thread : Option Nat) (s t : UinputInput) : Prop where
  worker : thread ≠ none → t.worker = s.worker
  grows : Grows s t
  cutoff : ∀ n ∈ s.worker.spam.cancelledThrough, ∃ m ∈ t.worker.spam.cancelledThrough, n ≤ m

def inputDiscipline : Discipline (Option Nat) UinputInput where
  inv := UinputInput.Inv
  rely thread s t := (thread = none → t.worker = s.worker) ∧ Grows s t
  guar := Guarantee
  refl _ s := ⟨fun _ => rfl, .refl s⟩
  trans _ _ _ _ h h' := ⟨fun own => (h'.1 own).trans (h.1 own), h.2.trans h'.2⟩
  others _ _ _ _ ne h := ⟨fun own => h.worker fun mine => ne (mine.trans own.symm), h.grows⟩

abbrev InputSafe {α : Type} (thread : Option Nat) (p : InputTask α)
    (Q : Except ToolsError α → UinputInput → Prop) (s : UinputInput) : Prop :=
  inputDiscipline.Safe thread p Q s

section Shared

variable {s t : UinputInput} {n : Nat}

/-- The queues are all that changes. -/
theorem UinputInput.Inv.queues (inv : s.Inv) {high normal : List WorkerCommand} {shutdown stopped : Bool}
    (queued : ∀ command, command ∈ high ∨ command ∈ normal → command ∈ s.commands) :
    UinputInput.Inv { s with high, normal, shutdown, stopped } :=
  { inv with
    queued
    valid := fun command mem =>
      { inv.valid command mem with } }

theorem captureTicket_inv (inv : s.Inv) : s.captureTicket.Inv where
  worker := inv.worker
  captured ticket mem := by
    obtain rfl | mem := List.mem_cons.mp mem
    · exact ⟨Nat.lt_succ_self _, Nat.le_refl _⟩
    · obtain ⟨serial, observed⟩ := inv.captured ticket mem
      exact ⟨Nat.lt_succ_of_lt serial, observed⟩
  called call mem := by
    obtain ⟨begun, raised⟩ := inv.called call mem
    exact ⟨Nat.le_succ_of_le begun, raised⟩
  apart ticket mem call called := by
    obtain rfl | mem := List.mem_cons.mp mem
    · obtain ⟨begun, raised⟩ := inv.called call called
      exact iff_of_false (Nat.not_lt.mpr begun) (Nat.not_lt.mpr raised)
    · exact inv.apart ticket mem call called
  raised ticket mem earlier := by
    obtain rfl | mem := List.mem_cons.mp mem
    · exact absurd earlier (Nat.lt_irrefl _)
    · exact inv.raised ticket mem earlier
  valid command mem := by
    have valid := inv.valid command mem
    exact ⟨valid.release, valid.cycle,
      fun ticket here => ⟨List.mem_cons_of_mem _ (valid.ticket ticket here).1,
        (valid.ticket ticket here).2⟩, valid.call,
      valid.number.1, Nat.le_succ_of_le valid.number.2⟩
  ordered := inv.ordered
  queued := inv.queued
  executed := inv.executed
  cutoff := inv.cutoff

theorem raise_inv (inv : s.Inv) : s.raise.Inv where
  worker := inv.worker
  captured ticket mem := by
    obtain ⟨serial, observed⟩ := inv.captured ticket mem
    exact ⟨serial, Nat.le_succ_of_le observed⟩
  called call mem := by
    obtain rfl | mem := List.mem_cons.mp mem
    · exact ⟨Nat.le_refl _, Nat.le_refl _⟩
    · obtain ⟨begun, raised⟩ := inv.called call mem
      exact ⟨begun, Nat.le_succ_of_le raised⟩
  apart ticket mem call called := by
    obtain rfl | called := List.mem_cons.mp called
    · obtain ⟨serial, observed⟩ := inv.captured ticket mem
      exact iff_of_true serial (Nat.lt_succ_of_le observed)
    · exact inv.apart ticket mem call called
  raised _ _ _ := ⟨s.nextCall, List.mem_cons_self, rfl⟩
  valid command mem := by
    have valid := inv.valid command mem
    exact ⟨valid.release, valid.cycle, valid.ticket,
      fun call here => ⟨List.mem_cons_of_mem _ (valid.call call here).1, (valid.call call here).2⟩,
      valid.number⟩
  ordered := inv.ordered
  queued := inv.queued
  executed := inv.executed
  cutoff := inv.cutoff

/-- What a writer hands to `submit`. -/
structure Submittable (s : UinputInput) (kind : CommandKind) (deadline : Option Nat)
    (cancellation : Option SpamCycleTicket) (call : Option ReleaseCall) : Prop where
  release : kind = .releaseSpam → deadline = none ∧ ∃ r, call = some r
  cycle : ∀ key modifier, kind = .spamCycle key modifier → ∃ ticket, cancellation = some ticket
  ticket : ∀ ticket ∈ cancellation, ticket ∈ s.tickets
  call : ∀ r ∈ call, r ∈ s.calls

theorem Submittable.grows {kind : CommandKind} {deadline : Option Nat}
    {cancellation : Option SpamCycleTicket} {call : Option ReleaseCall}
    (h : Submittable s kind deadline cancellation call) (grows : Grows s t) :
    Submittable t kind deadline cancellation call :=
  ⟨h.release, h.cycle, fun ticket mem => grows.tickets ticket (h.ticket ticket mem),
    fun r mem => grows.calls r (h.call r mem)⟩

theorem number_inv (inv : s.Inv) {source : InputSource} {kind : CommandKind} {deadline : Option Nat}
    {cancellation : Option SpamCycleTicket} {call : Option ReleaseCall}
    (given : Submittable s kind deadline cancellation call) :
    (s.number (s.nextCommand source kind deadline cancellation call)).Inv where
  worker := inv.worker
  captured := inv.captured
  called := inv.called
  apart := inv.apart
  raised := inv.raised
  valid command mem := by
    obtain rfl | mem := List.mem_cons.mp mem
    · refine ⟨given.release, fun cycle => ?_, fun ticket here => ?_, fun r here => ?_,
        Nat.lt_succ_self _, Nat.le_refl _⟩
      · cases kind with
        | spamCycle key modifier => exact given.cycle key modifier rfl
        | _ => cases cycle
      · exact ⟨given.ticket ticket here, (inv.captured ticket (given.ticket ticket here)).1⟩
      · exact ⟨given.call r here, (inv.called r (given.call r here)).1⟩
    · have valid := inv.valid command mem
      exact ⟨valid.release, valid.cycle, valid.ticket, valid.call,
        Nat.lt_succ_of_lt valid.number.1, valid.number.2⟩
  ordered command mem other mem' earlier := by
    obtain rfl | mem := List.mem_cons.mp mem
    · obtain rfl | mem' := List.mem_cons.mp mem'
      · exact absurd earlier (Nat.lt_irrefl _)
      · exact absurd earlier (Nat.not_lt.mpr (inv.valid other mem').number.2)
    · obtain rfl | mem' := List.mem_cons.mp mem'
      · exact (inv.valid command mem).number.1
      · exact inv.ordered command mem other mem' earlier
  queued command mem := List.mem_cons_of_mem _ (inv.queued command mem)
  executed e mem := List.mem_cons_of_mem _ (inv.executed e mem)
  cutoff n mem := by
    obtain ⟨command, known, release⟩ := inv.cutoff n mem
    exact ⟨command, List.mem_cons_of_mem _ known, release⟩

end Shared

/-! ## The writers -/

section Writers

variable {s t : UinputInput} {n : Nat} {thread : Option Nat} {P : UinputInput → Prop}

theorem Guarantee.shared {thread : Option Nat} (worker : t.worker = s.worker) (grows : Grows s t) :
    Guarantee thread s t :=
  ⟨fun _ => worker, grows, fun m mem => ⟨m, by rwa [worker], Nat.le_refl m⟩⟩

theorem stable_of_grows {thread : Option Nat} (grows : ∀ s t, P s → Grows s t → P t) :
    Task.Stable (inputDiscipline.rely thread) P := fun s t holds moved => grows s t holds moved.2

theorem trySend_kept (inv : t.Inv) {command : WorkerCommand} (known : command ∈ t.commands) :
    Guarantee thread t (t.trySend command) ∧ (t.trySend command).Inv := by
  have sent {queue : List WorkerCommand} (mem : ∀ c ∈ queue, c ∈ t.commands) :
      ∀ c ∈ queue ++ [command], c ∈ t.commands := by
    intro c here
    obtain here | here := List.mem_append.mp here
    · exact mem c here
    · rwa [List.mem_singleton.mp here]
  have high := sent fun c mem => inv.queued c (.inl mem)
  have normal := sent fun c mem => inv.queued c (.inr mem)
  have grows : Grows t (t.trySend command) := by
    unfold UinputInput.trySend
    split
    · exact .refl t
    split <;> split <;> exact .same rfl rfl rfl
  refine ⟨.shared ?_ grows, ?_⟩
  all_goals unfold UinputInput.trySend
  · split
    · rfl
    split <;> split <;> rfl
  · split
    · exact inv
    split <;> split
    · exact inv
    · exact inv.queues fun c mem => mem.elim (high c) fun mem => inv.queued c (.inr mem)
    · exact inv
    · exact inv.queues fun c mem => mem.elim (fun mem => inv.queued c (.inl mem)) (normal c)

/-- A command takes its number, and is sent. -/
theorem submit_safe {source : InputSource} {kind : CommandKind} {deadline : Option Nat}
    {cancellation : Option SpamCycleTicket} {call : Option ReleaseCall} (timeout : Bool)
    (given : Submittable s kind deadline cancellation call) :
    InputSafe (some n) (submit source kind deadline cancellation call timeout) (fun _ _ => True) s := by
  have known (command : WorkerCommand) : Task.Stable (inputDiscipline.rely (some n))
      fun t => command ∈ t.commands := stable_of_grows fun _ _ mem grows => grows.commands _ mem
  refine Task.Safe.andThen (inputDiscipline.refl _) (Q := fun command t => command ∈ t.commands)
    (Task.safe_fetch (P := fun t => Submittable t kind deadline cancellation call)
      (stable_of_grows fun _ _ h grows => h.grows grows) known given
      fun t given inv _ => ⟨⟨.shared rfl ⟨fun _ h => h, fun _ h => h, fun _ => List.mem_cons_of_mem _⟩,
        number_inv inv given⟩, List.mem_cons_self⟩)
    fun command t here => ?_
  split
  next release =>
    split
    next => exact Task.safe_fail (known command) here fun _ _ => trivial
    next =>
      refine Task.safe_step (known command) here fun u here inv _ => ⟨?_, Task.safe_ret (known command)
        ?_ fun _ _ => trivial⟩
      · split
        next => exact ⟨.shared rfl (.refl u), inv⟩
        next =>
          refine ⟨.shared rfl (.same rfl rfl rfl), inv.queues fun c mem => ?_⟩
          obtain mem | mem := mem
          · obtain mem | mem := List.mem_append.mp mem
            · exact inv.queued c (.inl mem)
            · rwa [List.mem_singleton.mp mem]
          · exact inv.queued c (.inr mem)
      · split
        next => exact here
        next => exact here
  next =>
    refine Task.safe_step (known command) here fun u here inv _ => ?_
    have kept := @trySend_kept u (some n) inv command here
    exact ⟨kept, Task.safe_ret (known command) (kept.1.grows.commands _ here) fun _ _ => trivial⟩

theorem releaseSpam_safe (source : InputSource) (timeout : Bool) :
    InputSafe (some n) (releaseSpam source timeout) (fun _ _ => True) s := by
  refine Task.Safe.andThen (inputDiscipline.refl _) (Q := fun call t => call ∈ t.calls)
    (Task.safe_fetch (P := fun _ => True) (stable_of_grows fun _ _ _ _ => trivial)
      (fun _ => stable_of_grows fun _ _ mem grows => grows.calls _ mem) trivial
      fun t _ inv _ => ⟨⟨.shared rfl ⟨fun _ h => h, fun _ => List.mem_cons_of_mem _, fun _ h => h⟩,
        raise_inv inv⟩, List.mem_cons_self⟩)
    fun call t here => submit_safe timeout ⟨fun _ => ⟨rfl, call, rfl⟩, nofun, nofun, fun r mem => ?_⟩
  cases mem
  exact here

/-- A step of a writer that leaves the commands alone. -/
theorem modify_safe {f : UinputInput → UinputInput}
    (kept : ∀ t : UinputInput, t.Inv → ((f t).worker = t.worker ∧ Grows t (f t)) ∧ (f t).Inv) :
    InputSafe (some n) (Task.modify f) (fun _ _ => True) s :=
  Task.safe_step (P := fun _ => True) (stable_of_grows fun _ _ _ _ => trivial) trivial
    fun t _ inv _ => by
      obtain ⟨⟨worker, grows⟩, inv⟩ := kept t inv
      exact ⟨⟨.shared worker grows, inv⟩, Task.safe_ret (P := fun _ => True)
        (stable_of_grows fun _ _ _ _ => trivial) trivial fun _ _ => trivial⟩

end Writers

/-! ## The worker -/

/-- A fact of the worker's own part, while it has a command. -/
def AtWorker (command : Option WorkerCommand) (fact : Worker → Prop) (s : UinputInput) : Prop :=
  (∀ c ∈ command, c ∈ s.commands) ∧ fact s.worker

/-- The worker executes the command, which is later than every release so far if it is a cycle. -/
structure Running (command : Option WorkerCommand) (w : Worker) : Prop where
  current : w.device.current = command
  fresh : ∀ cycle ∈ command, cycle.isSpamCycle = true →
    ∀ e ∈ w.history, e.command.kind = .releaseSpam → After e.command cycle

section WorkerSteps

variable {s t : UinputInput} {command : Option WorkerCommand} {fact : Worker → Prop}
  {P : Write WorkerCommand → Prop}

theorem atWorker_stable (command : Option WorkerCommand) (fact : Worker → Prop) :
    Task.Stable (inputDiscipline.rely none) (AtWorker command fact) := by
  rintro s t ⟨known, holds⟩ ⟨own, grows⟩
  exact ⟨fun c mem => grows.commands c (known c mem), by rwa [own rfl]⟩

/-- **A section of the worker** keeps the invariant when it keeps the record. -/
theorem section_kept (inv : t.Inv) (running : Running command t.worker) {w : Worker}
    (advance : Advance P t.worker w)
    (recorded : Prompt w.device.writes → Recorded t.worker → Recorded w) :
    (Guarantee none t (t.setWorker w) ∧ (t.setWorker w).Inv) ∧ Running command w := by
  obtain ⟨⟨current, new, writes, each⟩, -, history, cutoff⟩ := advance
  have worker : w.Inv := by
    refine ⟨fun prompt => recorded prompt (inv.worker.recorded ?_), ?_, fun e mem release => ?_, ?_⟩
    · rw [writes] at prompt
      exact prompt.of_append
    · rw [history]
      exact inv.worker.proper
    · rw [history] at mem
      obtain ⟨later, after, fresh⟩ := inv.worker.fresh e mem release
      refine ⟨new ++ later, by rw [writes, after, List.append_assoc], fun x here cycle mine isCycle => ?_⟩
      obtain here | here := List.mem_append.mp here
      · rw [(each x here).1, running.current] at mine
        exact running.fresh cycle mine isCycle e mem release
      · exact fresh x here cycle mine isCycle
    · rw [history, cutoff]
      exact inv.worker.cutoff
  refine ⟨⟨⟨fun other => absurd rfl other, .same rfl rfl rfl, fun n mem => ⟨n, ?_, Nat.le_refl n⟩⟩,
    { inv with worker, executed := ?_, cutoff := ?_, valid := fun c mem => { inv.valid c mem with } }⟩,
    current.trans running.current, ?_⟩
  · exact cutoff ▸ mem
  · exact history ▸ inv.executed
  · exact cutoff ▸ inv.cutoff
  · rw [history]
    exact running.fresh

theorem inWorker_safe {α : Type} {sec : Worker → Except ToolsError α × Worker}
    {Q : Except ToolsError α → Worker → Prop} (holds : AtWorker command fact s)
    (body : ∀ t, AtWorker command fact t → t.Inv →
      (Guarantee none t (t.setWorker (sec t.worker).2) ∧ (t.setWorker (sec t.worker).2).Inv) ∧
        Q (sec t.worker).1 (sec t.worker).2) :
    InputSafe none (inWorker sec) (fun r => AtWorker command (Q r)) s := by
  refine Task.safe_step (atWorker_stable command fact) holds fun t here inv _ => ?_
  obtain ⟨kept, established⟩ := body t here inv
  refine ⟨kept, ?_⟩
  have here : AtWorker command (Q (sec t.worker).1) (t.setWorker (sec t.worker).2) :=
    ⟨here.1, established⟩
  cases answer : (sec t.worker).1 with
  | ok a =>
    rw [answer] at here
    exact Task.safe_ret (atWorker_stable command _) here fun _ h => h
  | error e =>
    rw [answer] at here
    exact Task.safe_fail (atWorker_stable command _) here fun _ h => h

theorem read_safe {α : Type} (f : UinputInput → α) (holds : AtWorker command fact s) :
    InputSafe none (Task.read f) (fun _ => AtWorker command fact) s :=
  Task.safe_step (atWorker_stable command fact) holds fun _ here inv _ =>
    ⟨⟨.shared rfl (.refl _), inv⟩, Task.safe_ret (atWorker_stable command fact) here fun _ h => h⟩

end WorkerSteps

/-! ## The cycle -/

/-- The cycle has not clicked. -/
def Unclicked (command : WorkerCommand) (w : Worker) : Prop :=
  Running (some command) w ∧ ∃ own, w.device.writes = own ++ w.began ∧ ∀ x ∈ own, noClick x

/-- The cycle has pressed its key. -/
def KeyPressed (command : WorkerCommand) (key : String) (w : Worker) : Prop :=
  Running (some command) w ∧ ∃ code own, keyLabelToKeycode key = some code ∧
    w.device.writes = ⟨some command, code, 1, .accepted⟩ :: (own ++ w.began) ∧ ∀ x ∈ own, noClick x

/-- The cycle has clicked, right after it pressed its key. -/
def Clicked (command : WorkerCommand) (key : String) (w : Worker) : Prop :=
  ∃ code own, keyLabelToKeycode key = some code ∧
    w.device.writes = ⟨some command, .btnLeft, 0, .accepted⟩ ::
      ⟨some command, .btnLeft, 1, .accepted⟩ :: ⟨some command, code, 1, .accepted⟩ ::
        (own ++ w.began) ∧ ∀ x ∈ own, noClick x

/-- What a command leaves for its acknowledgement. -/
structure Ended (command : WorkerCommand) (result : Except ToolsError Bool) (w : Worker) : Prop where
  cutoff : command.kind = .releaseSpam → ∃ n ∈ w.spam.cancelledThrough, command.sequence ≤ n
  release : command.kind = .releaseSpam → result = .ok true → Prompt w.device.writes →
    ∀ code, spamDown w.device.writes code = false
  cycle : ∀ key modifier, command.kind = .spamCycle key modifier → result = .ok true →
    Clicked command key w

section Cycle

variable {s : UinputInput} {command : WorkerCommand} {key : String} {modifier : Option SpamModifier}
  {w w' : Worker}

theorem Unclicked.advance (h : Unclicked command w) (advance : Advance noClick w w')
    (running : Running (some command) w') : Unclicked command w' := by
  obtain ⟨-, own, writes, quiet⟩ := h
  obtain ⟨⟨-, new, after, each⟩, began, -, -⟩ := advance
  refine ⟨running, new ++ own, by rw [after, writes, began, List.append_assoc], fun x mem => ?_⟩
  obtain mem | mem := List.mem_append.mp mem
  · exact (each x mem).2
  · exact quiet x mem

theorem ended_of_not (kind : command.kind = .spamCycle key modifier)
    {result : Except ToolsError Bool} (undone : result ≠ .ok true) : Ended command result w := by
  refine ⟨fun release => ?_, fun _ done => absurd done undone, fun _ _ _ done => absurd done undone⟩
  cases kind.symm.trans release

theorem cancelCycle_safe (kind : command.kind = .spamCycle key modifier) {fact : Worker → Prop}
    (running : ∀ w, fact w → Running (some command) w) (holds : AtWorker (some command) fact s) :
    InputSafe none cancelCycle (fun r => AtWorker (some command) (Ended command r)) s := by
  refine Task.Safe.seq (inputDiscipline.refl _)
    (inWorker_safe (Q := fun _ _ => True) holds fun t here inv => ?_)
    (fun _ t here => Task.safe_ret (atWorker_stable _ _) here fun u here =>
      ⟨here.1, ended_of_not kind nofun⟩)
    fun e t here => ⟨here.1, ended_of_not kind nofun⟩
  obtain ⟨advance, -, recorded⟩ := releaseSpamInputs_spec t.worker
  exact ⟨(section_kept inv (running _ here.2) advance fun _ => recorded).1, trivial⟩

/-- **A cycle** clicks once, with its key held. -/
theorem spamCycle_safe (kind : command.kind = .spamCycle key modifier)
    (cancellation : Option SpamCycleTicket) (holds : AtWorker (some command) (Unclicked command) s) :
    InputSafe none (spamCycle key modifier cancellation)
      (fun r => AtWorker (some command) (Ended command r)) s := by
  have refl := inputDiscipline.refl none
  have failed (e : ToolsError) {fact : Worker → Prop} (t : UinputInput)
      (here : AtWorker (some command) fact t) :
      AtWorker (some command) (Ended command (.error e)) t :=
    ⟨here.1, ended_of_not kind nofun⟩
  -- The inputs of the cycle before are released.
  refine Task.Safe.seq refl (inWorker_safe (Q := fun r w => Unclicked command w ∧
    ∀ hadKey, r = .ok hadKey → w.spam.heldKey = none) holds fun t here inv => ?_) (fun _ t here => ?_)
    fun e t here => failed e t here
  · obtain ⟨advance, free, recorded⟩ := releaseCycleInputs_spec t.worker
    have advance := advance.weaken (Q := noClick) fun _ h _ => h
    obtain ⟨kept, running⟩ := section_kept inv here.2.1 advance fun _ => recorded
    exact ⟨kept, here.2.advance advance running, free⟩
  have here : AtWorker (some command)
      (fun w => Unclicked command w ∧ w.spam.heldKey = none) t := ⟨here.1, here.2.1, here.2.2 _ rfl⟩
  refine Task.Safe.seq refl (read_safe _ here) (fun cancelled t here => ?_) fun e t here => failed e t here
  split
  next => exact cancelCycle_safe kind (fun _ h => h.1.1) here
  -- The modifier is the one of this cycle.
  refine Task.Safe.seq refl (inWorker_safe (Q := fun r w => Unclicked command w ∧
    (r = .ok () → w.spam.heldKey = none)) here fun t here inv => ?_) (fun _ t here => ?_)
    fun e t here => failed e t here
  · obtain ⟨advance, same, recorded⟩ := reconcileSpamModifier_spec modifier t.worker
    obtain ⟨kept, running⟩ := section_kept inv here.2.1.1 advance recorded
    exact ⟨kept, here.2.1.advance advance running, fun done => (same done).trans here.2.2⟩
  have here : AtWorker (some command)
      (fun w => Unclicked command w ∧ w.spam.heldKey = none) t := ⟨here.1, here.2.1, here.2.2 rfl⟩
  refine Task.Safe.seq refl (read_safe _ here) (fun cancelled t here => ?_) fun e t here => failed e t here
  split
  next => exact cancelCycle_safe kind (fun _ h => h.1.1) here
  -- The key goes down.
  refine Task.Safe.seq refl (inWorker_safe (Q := fun r w => r = .ok () → KeyPressed command key w)
    here fun t here inv => ?_) (fun _ t here => ?_) fun e t here => failed e t here
  · obtain ⟨advance, pressed, recorded⟩ := pressCycleKey_spec key t.worker
    obtain ⟨kept, running⟩ := section_kept inv here.2.1.1 advance fun _ => recorded here.2.2
    refine ⟨kept, fun done => ⟨running, ?_⟩⟩
    obtain ⟨⟨current, -⟩, own, writes, quiet⟩ := here.2.1
    obtain ⟨code, label, after⟩ := pressed done
    exact ⟨code, own, label, by rw [after, writes, current, advance.began], quiet⟩
  have here : AtWorker (some command) (KeyPressed command key) t := ⟨here.1, here.2 rfl⟩
  refine Task.Safe.seq refl (read_safe _ here) (fun cancelled t here => ?_) fun e t here => failed e t here
  split
  next => exact cancelCycle_safe kind (fun _ h => h.1) here
  -- And the button goes down and up.
  refine Task.Safe.seq refl (inWorker_safe (Q := fun r w => r = .ok () → Clicked command key w)
    here fun t here inv => ?_) (fun _ t here => ?_) fun e t here => failed e t here
  · obtain ⟨advance, clicked, recorded⟩ := click_spec t.worker
    obtain ⟨kept, -⟩ := section_kept inv here.2.1 advance fun _ => recorded
    refine ⟨kept, fun done => ?_⟩
    obtain ⟨⟨current, -⟩, code, own, label, writes, quiet⟩ := here.2
    exact ⟨code, own, label, by rw [clicked done, writes, current, advance.began], quiet⟩
  · refine Task.safe_ret (atWorker_stable _ _) here fun u here => ⟨here.1, ?_⟩
    refine ⟨fun release => ?_, fun release => ?_, fun key' modifier' kind' _ => ?_⟩
    · cases kind.symm.trans release
    · cases kind.symm.trans release
    · cases kind.symm.trans kind'
      exact here.2 rfl

end Cycle

/-! ## The commands -/

section Commands

variable {s t : UinputInput} {command : WorkerCommand} {w : Worker}

/-- Another name for the writes so far, or for the command, keeps the worker's invariant. -/
theorem Worker.Inv.renamed (inv : w.Inv) (current : Option WorkerCommand) (began : Writes) :
    Worker.Inv { w with device := { w.device with current }, began } where
  recorded prompt :=
    let h := inv.recorded prompt
    ⟨h.button, h.modifier, h.key⟩
  proper := inv.proper
  fresh := inv.fresh
  cutoff := inv.cutoff

/-- The worker's part changes, but neither its history nor the cutoff. -/
theorem UinputInput.Inv.setWorker (inv : t.Inv) (worker : w.Inv)
    (history : w.history = t.worker.history)
    (cutoff : w.spam.cancelledThrough = t.worker.spam.cancelledThrough) :
    Guarantee none t (t.setWorker w) ∧ (t.setWorker w).Inv :=
  ⟨⟨fun other => absurd rfl other, .same rfl rfl rfl, fun n mem => ⟨n, cutoff ▸ mem, Nat.le_refl n⟩⟩,
    { inv with
      worker
      executed := history ▸ inv.executed
      cutoff := cutoff ▸ inv.cutoff
      valid := fun c mem => { inv.valid c mem with } }⟩

/-- A cycle that is not cancelled is later than every release that was executed. -/
theorem fresh_of_not_cancelled (inv : t.Inv) (known : command ∈ t.commands)
    (kept : t.cancelled command = false) (isCycle : command.isSpamCycle = true) :
    ∀ e ∈ t.worker.history, e.command.kind = .releaseSpam → After e.command command := by
  intro e mem release
  rw [UinputInput.cancelled, isCycle, Bool.true_and, Bool.or_eq_false_iff] at kept
  obtain ⟨cutOff, requested⟩ := kept
  obtain ⟨n, here, before⟩ := inv.worker.cutoff e mem release
  obtain ⟨ticket, captured⟩ := (inv.valid command known).cycle isCycle
  have executed := inv.valid e.command (inv.executed e mem)
  obtain ⟨-, call, called⟩ := executed.release release
  refine ⟨?_, call, ticket, called, captured, ?_⟩
  · rw [UinputInput.cutOff, Option.mem_def.mp here, Option.any_some, decide_eq_false_iff_not] at cutOff
    exact Nat.lt_of_le_of_lt before (Nat.lt_of_not_le cutOff)
  · have same : t.spamGeneration = ticket.observedGeneration := by
      rw [captured] at requested
      simpa [UinputInput.requested] using requested
    have captured := ((inv.valid command known).ticket ticket captured).1
    have called := (executed.call call called).1
    have raised := (inv.called call called).2
    rw [same] at raised
    exact Nat.not_lt.mp fun earlier =>
      absurd ((inv.apart ticket captured call called).mp earlier) (Nat.not_lt.mpr raised)

/-- A release discards the cycles before it, and releases their inputs. -/
theorem releaseSpam_kept (inv : t.Inv) (known : command ∈ t.commands)
    (release : command.kind = .releaseSpam) (current : t.worker.device.current = some command) :
    let w := ((t.worker.cancelThrough command.sequence).releaseSpamInputs).2
    (Guarantee none t (t.setWorker w) ∧ (t.setWorker w).Inv) ∧
      ∃ n ∈ w.spam.cancelledThrough, command.sequence ≤ n := by
  have further : ∀ n ∈ t.worker.spam.cancelledThrough,
      n ≤ t.worker.spam.cancelledThrough.elim command.sequence (max · command.sequence) := by
    intro n mem
    rw [Option.mem_def.mp mem]
    exact Nat.le_max_left _ _
  have reached : command.sequence ≤
      t.worker.spam.cancelledThrough.elim command.sequence (max · command.sequence) := by
    cases t.worker.spam.cancelledThrough with
    | none => exact Nat.le_refl _
    | some n => exact Nat.le_max_right _ _
  -- The new cutoff is the number of a release, whichever of the two is later.
  have isRelease : ∃ c ∈ t.commands, c.kind = .releaseSpam ∧ c.sequence =
      t.worker.spam.cancelledThrough.elim command.sequence (max · command.sequence) := by
    cases cutoff : t.worker.spam.cancelledThrough with
    | none => exact ⟨command, known, release, rfl⟩
    | some n =>
      obtain later | later := Nat.le_total command.sequence n
      · obtain ⟨c, mem, kind, number⟩ := inv.cutoff n cutoff
        exact ⟨c, mem, kind, number.trans (Nat.max_eq_left later).symm⟩
      · exact ⟨command, known, release, (Nat.max_eq_right later).symm⟩
  have cancelled : (t.setWorker (t.worker.cancelThrough command.sequence)).Inv := by
    refine { inv with
      worker := ⟨fun prompt => ?_, inv.worker.proper, inv.worker.fresh, fun e mem kind => ?_⟩
      cutoff := fun n mem => ?_
      valid := fun c mem => { inv.valid c mem with } }
    · have h := inv.worker.recorded prompt
      exact ⟨h.button, h.modifier, h.key⟩
    · obtain ⟨n, here, before⟩ := inv.worker.cutoff e mem kind
      exact ⟨_, rfl, Nat.le_trans before (further n here)⟩
    · cases mem
      exact isRelease
  have running : Running (some command) (t.worker.cancelThrough command.sequence) := by
    refine ⟨current, fun cycle mine isCycle => ?_⟩
    cases mine
    rw [WorkerCommand.isSpamCycle, release] at isCycle
    cases isCycle
  obtain ⟨advance, -, recorded⟩ :=
    releaseSpamInputs_spec (t.worker.cancelThrough command.sequence)
  obtain ⟨⟨guar, inv⟩, -⟩ := section_kept cancelled running advance fun _ => recorded
  refine ⟨⟨⟨fun other => absurd rfl other, .same rfl rfl rfl, fun n mem => ?_⟩, inv⟩, ?_⟩
  · obtain ⟨m, later, le⟩ := guar.cutoff _ rfl
    exact ⟨m, later, Nat.le_trans (further n mem) le⟩
  · obtain ⟨m, later, le⟩ := guar.cutoff _ rfl
    exact ⟨m, later, Nat.le_trans reached le⟩

/-- The command has been taken up, and nothing has been written for it. -/
def Begun (command : WorkerCommand) (w : Worker) : Prop :=
  w.device.current = some command ∧ w.device.writes = w.began

theorem ended_of_neither (release : command.kind ≠ .releaseSpam)
    (cycle : command.isSpamCycle = false) (result : Except ToolsError Bool) (w : Worker) :
    Ended command result w := by
  refine ⟨fun kind => absurd kind release, fun kind => absurd kind release, fun _ _ kind => ?_⟩
  rw [WorkerCommand.isSpamCycle, kind] at cycle
  cases cycle

/-- A command that is no cycle, in one section. -/
theorem section_others (inv : t.Inv) (begun : Begun command t.worker)
    (cycle : command.isSpamCycle = false) {P : Write WorkerCommand → Prop} {w : Worker}
    (spec : t.worker.device.current.any WorkerCommand.isSpamCycle = false →
      Advance P t.worker w ∧ (Recorded t.worker → Recorded w)) :
    Guarantee none t (t.setWorker w) ∧ (t.setWorker w).Inv := by
  have others : t.worker.device.current.any WorkerCommand.isSpamCycle = false := by
    rw [begun.1]
    exact cycle
  have running : Running (some command) t.worker := by
    refine ⟨begun.1, fun _ mine isCycle => ?_⟩
    cases mine
    rw [cycle] at isCycle
    cases isCycle
  obtain ⟨advance, recorded⟩ := spec others
  exact (section_kept inv running advance fun _ => recorded).1

theorem runCommand_safe (holds : AtWorker (some command) (fun w => Begun command w ∧
      (command.isSpamCycle = true → ∀ e ∈ w.history, e.command.kind = .releaseSpam →
        After e.command command)) s) :
    InputSafe none (runCommand command) (fun r => AtWorker (some command) (Ended command r)) s := by
  have refl := inputDiscipline.refl none
  unfold runCommand
  split
  next key kind =>
    have cycle : command.isSpamCycle = false := by rw [WorkerCommand.isSpamCycle, kind]
    have release : command.kind ≠ .releaseSpam := by
      rw [kind]
      nofun
    refine Task.Safe.seq refl (inWorker_safe (Q := fun _ _ => True) holds fun t here inv =>
        ⟨section_others inv here.2.1 cycle (pressKey_spec key t.worker), trivial⟩)
      (fun _ t here => Task.safe_ret (atWorker_stable _ _) here fun u here => ⟨here.1, ?_⟩)
      fun e t here => ⟨here.1, ?_⟩
    all_goals exact ended_of_neither release cycle _ _
  next key modifier kind =>
    have running : Running (some command) s.worker := by
      refine ⟨holds.2.1.1, fun cycle mine isCycle => ?_⟩
      cases mine
      exact holds.2.2 isCycle
    have unclicked : Unclicked command s.worker :=
      ⟨running, [], holds.2.1.2, fun _ none => by cases none⟩
    exact spamCycle_safe kind command.cancellation ⟨holds.1, unclicked⟩
  next kind =>
    refine Task.Safe.seq refl (inWorker_safe (Q := fun r w =>
        (∃ n ∈ w.spam.cancelledThrough, command.sequence ≤ n) ∧ (r = .ok () →
          Prompt w.device.writes → ∀ code, spamDown w.device.writes code = false)) holds
      fun t here inv => ?_) (fun _ t here => Task.safe_ret (atWorker_stable _ _) here fun u here =>
        ⟨here.1, ?_⟩) fun e t here => ⟨here.1, ?_⟩
    · obtain ⟨kept, cutoff⟩ := releaseSpam_kept inv (here.1 command rfl) kind here.2.1.1
      refine ⟨kept, cutoff, fun done prompt => ?_⟩
      obtain ⟨⟨wrote, -⟩, up, -⟩ :=
        releaseSpamInputs_spec (t.worker.cancelThrough command.sequence)
      refine up done ?_
      obtain ⟨-, new, writes, -⟩ := wrote
      rw [writes] at prompt
      have h := inv.worker.recorded prompt.of_append
      exact ⟨h.button, h.modifier, h.key⟩
    · exact ⟨fun _ => here.2.1, fun _ _ => here.2.2 rfl, fun _ _ cycle => by cases kind.symm.trans cycle⟩
    · exact ⟨fun _ => here.2.1, fun _ done => (nomatch done), fun _ _ cycle => by
        cases kind.symm.trans cycle⟩
  next key value kind =>
    have cycle : command.isSpamCycle = false := by rw [WorkerCommand.isSpamCycle, kind]
    have release : command.kind ≠ .releaseSpam := by
      rw [kind]
      nofun
    refine Task.Safe.seq refl (inWorker_safe (Q := fun _ _ => True) holds fun t here inv =>
        ⟨section_others inv here.2.1 cycle (keyEvent_spec key value t.worker), trivial⟩)
      (fun _ t here => Task.safe_ret (atWorker_stable _ _) here fun u here => ⟨here.1, ?_⟩)
      fun e t here => ⟨here.1, ?_⟩
    all_goals exact ended_of_neither release cycle _ _

theorem outcomeOf_completed {result : Except ToolsError Bool}
    (h : outcomeOf result = .completed) : result = .ok true := by
  cases result with
  | error e => cases h
  | ok completed =>
    cases completed with
    | true => rfl
    | false => cases h

theorem not_cancelled_of_release (release : command.kind = .releaseSpam) (t : UinputInput) :
    t.cancelled command = false := by
  rw [UinputInput.cancelled, WorkerCommand.isSpamCycle, release, Bool.false_and]

/-- **One command**, discarded or run. -/
theorem executeCommand_safe (started : Nat) (holds : AtWorker (some command) (Begun command) s) :
    InputSafe none (executeCommand started command) (fun r t => ∃ outcome, r = .ok outcome ∧
      AtWorker (some command) (fun w => ∃ result, outcome = outcomeOf result ∧
        Ended command result w) t) s := by
  have refl := inputDiscipline.refl none
  refine Task.Safe.andThen refl (Q := fun cancelled => AtWorker (some command) fun w =>
      Begun command w ∧
        (command.kind = .releaseSpam → cancelled = false ∧ command.deadline = none) ∧
        (cancelled = false → command.isSpamCycle = true → ∀ e ∈ w.history,
          e.command.kind = .releaseSpam → After e.command command))
    (Task.safe_fetch (atWorker_stable _ _) (fun _ => atWorker_stable _ _) holds
      fun t here inv _ => ⟨⟨.shared rfl (.refl t), inv⟩, here.1, here.2,
        fun release => ⟨not_cancelled_of_release release t,
          ((inv.valid command (here.1 command rfl)).release release).1⟩,
        fun kept => fresh_of_not_cancelled inv (here.1 command rfl) kept⟩)
    fun cancelled t here => ?_
  -- What is discarded is a cycle: a release has no deadline.
  have discarded (release : command.kind ≠ .releaseSpam) :
      InputSafe none (.ret .overrun) (fun r t => ∃ outcome, r = .ok outcome ∧
        AtWorker (some command) (fun w => ∃ result, outcome = outcomeOf result ∧
          Ended command result w) t) t :=
    Task.safe_ret (atWorker_stable _ _) here fun u here => ⟨_, rfl, here.1, .ok false, rfl,
      fun kind => absurd kind release, fun kind => absurd kind release, fun _ _ _ done => by cases done⟩
  split
  next cancelled =>
    refine discarded fun release => ?_
    rw [(here.2.2.1 release).1] at cancelled
    cases cancelled
  next kept =>
  split
  next late =>
    refine discarded fun release => ?_
    rw [(here.2.2.1 release).2] at late
    cases late
  next =>
    have here : AtWorker (some command) (fun w => Begun command w ∧
        (command.isSpamCycle = true → ∀ e ∈ w.history, e.command.kind = .releaseSpam →
          After e.command command)) t :=
      ⟨here.1, here.2.1, here.2.2.2 (by simpa using kept)⟩
    refine Task.Safe.andThen refl (Q := fun result => AtWorker (some command) (Ended command result))
      (Task.Safe.attempt ((runCommand_safe here).post fun r u ended => ⟨r, rfl, ended⟩))
      fun result u ended => ?_
    exact Task.safe_ret (atWorker_stable _ _) ended fun v ended => ⟨_, rfl, ended.1, result, rfl, ended.2⟩

/-- The command is done with: it goes to the history. -/
theorem acknowledge_inv (inv : t.Inv) (known : command ∈ t.commands) {result : Except ToolsError Bool}
    (ended : Ended command result t.worker) :
    Guarantee none t (t.setWorker (t.worker.acknowledge command (outcomeOf result))) ∧
      (t.setWorker (t.worker.acknowledge command (outcomeOf result))).Inv := by
  refine ⟨⟨fun other => absurd rfl other, .same rfl rfl rfl, fun n mem => ⟨n, mem, Nat.le_refl n⟩⟩,
    { inv with
      worker := ⟨fun prompt => ?_, fun e mem => ?_, fun e mem release => ?_, fun e mem release => ?_⟩
      executed := fun e mem => ?_
      valid := fun c mem => { inv.valid c mem with } }⟩
  · have h := inv.worker.recorded prompt
    exact ⟨h.button, h.modifier, h.key⟩
  · obtain rfl | mem := List.mem_cons.mp mem
    · refine ⟨fun kind done => ended.release kind (outcomeOf_completed done), fun key modifier kind done => ?_⟩
      exact ended.cycle key modifier kind (outcomeOf_completed done)
    · exact inv.worker.proper e mem
  · obtain rfl | mem := List.mem_cons.mp mem
    · exact ⟨[], rfl, fun _ none => by cases none⟩
    · exact inv.worker.fresh e mem release
  · obtain rfl | mem := List.mem_cons.mp mem
    · exact ended.cutoff release
    · exact inv.worker.cutoff e mem release
  · obtain rfl | mem := List.mem_cons.mp mem
    · exact known
    · exact inv.executed e mem

theorem handle_safe (started : Nat) (known : command ∈ s.commands) :
    InputSafe none (handle started command) (fun _ _ => True) s := by
  have refl := inputDiscipline.refl none
  have start : AtWorker (some command) (fun _ => True) s := by
    refine ⟨fun c mine => ?_, trivial⟩
    cases mine
    exact known
  refine Task.Safe.andThen refl (Q := fun _ => AtWorker (some command) (Begun command))
    (Task.safe_fetch (f := fun _ => ()) (atWorker_stable _ _) (fun _ => atWorker_stable _ _) start
      fun t here inv _ => ⟨inv.setWorker (inv.worker.renamed (some command) _) rfl rfl, here.1, rfl, rfl⟩)
    fun _ t here => ?_
  refine Task.Safe.andThen refl (executeCommand_safe started here) fun outcome u here => ?_
  refine Task.safe_step (atWorker_stable _ _) here fun v here inv _ => ?_
  obtain ⟨known, result, rfl, ended⟩ := here
  exact ⟨acknowledge_inv inv (known command rfl) ended, Task.safe_ret (P := fun _ => True)
    (fun _ _ _ _ => trivial) trivial fun _ _ => trivial⟩

theorem stop_safe : InputSafe none stop (fun _ _ => True) s := by
  have refl := inputDiscipline.refl none
  have start : AtWorker none (fun _ => True) s := ⟨fun _ mine => (by cases mine), trivial⟩
  refine Task.Safe.andThen refl (Q := fun _ => AtWorker none (Running none)) (Task.Safe.attempt
    ((inWorker_safe (Q := fun _ => Running none) start fun t here inv => ?_).post
      fun r u here => ⟨r, rfl, here⟩)) fun _ t here => ?_
  · obtain ⟨advance, -, recorded⟩ := releaseSpamInputs_spec t.worker.idle
    have idle := inv.setWorker (inv.worker.renamed none t.worker.began) rfl rfl
    have running : Running none t.worker.idle := ⟨rfl, fun _ mine => by cases mine⟩
    obtain ⟨⟨guar, inv⟩, running⟩ := section_kept idle.2 running advance fun _ => recorded
    exact ⟨⟨⟨fun other => absurd rfl other, .same rfl rfl rfl, guar.cutoff⟩, inv⟩, running⟩
  refine Task.Safe.seq refl (inWorker_safe (Q := fun _ _ => True) here fun u here inv => ?_)
    (fun _ u here => ?_) fun _ _ _ => trivial
  · exact ⟨(section_kept inv here.2 (releaseAll_advance u.worker) fun _ => releaseAll_recorded).1, trivial⟩
  · exact Task.safe_step (atWorker_stable _ _) here fun v _ inv _ => ⟨⟨.shared rfl (.same rfl rfl rfl),
      inv.queues inv.queued⟩, Task.safe_ret (P := fun _ => True) (fun _ _ _ _ => trivial) trivial
        fun _ _ => trivial⟩

theorem selected_kept (inv : t.Inv) : Guarantee none t t.selected ∧ t.selected.Inv := by
  unfold UinputInput.selected
  split
  next => exact ⟨.shared rfl (.refl t), inv⟩
  split
  next =>
    exact ⟨.shared rfl (.same rfl rfl rfl),
      inv.queues fun c mem => inv.queued c (mem.imp_right List.mem_of_mem_tail)⟩
  next =>
    exact ⟨.shared rfl (.same rfl rfl rfl),
      inv.queues fun c mem => inv.queued c (mem.imp_left List.mem_of_mem_tail)⟩

theorem select_known (inv : t.Inv) {c : WorkerCommand} (mem : c ∈ t.select) : c ∈ t.commands := by
  unfold UinputInput.select at mem
  split at mem
  next => cases mem
  next =>
    obtain high | ⟨-, normal⟩ := Option.or_eq_some_iff.mp (Option.mem_def.mp mem)
    · exact inv.queued c (.inl (List.mem_of_mem_head? high))
    · exact inv.queued c (.inr (List.mem_of_mem_head? normal))

theorem workerLoop_safe (started : Nat) :
    InputSafe none (workerLoop started) (fun _ _ => True) s := by
  have refl := inputDiscipline.refl none
  have start : AtWorker none (fun _ => True) s := ⟨fun _ mine => (by cases mine), trivial⟩
  have known (received : Option WorkerCommand) : Task.Stable (inputDiscipline.rely none)
      fun t => ∀ c ∈ received, c ∈ t.commands :=
    stable_of_grows fun _ _ h grows c mem => grows.commands c (h c mem)
  refine Task.Safe.seq refl (read_safe _ start) (fun shutdown t here => ?_) fun _ _ _ => trivial
  split
  next => exact stop_safe
  refine Task.Safe.andThen refl (Task.safe_fetch (atWorker_stable _ _) known here
    fun t here inv _ => ⟨⟨.shared rfl (.same rfl rfl rfl), inv.queues fun c mem => ?_⟩, fun c mem => ?_⟩)
    fun received t here => ?_
  · exact inv.queued c (mem.imp_left List.mem_of_mem_tail)
  · exact inv.queued c (.inl (List.mem_of_mem_head? mem))
  split
  next command => exact handle_safe started (here command rfl)
  refine Task.Safe.andThen refl (Task.safe_fetch (P := fun _ => True) (fun _ _ _ _ => trivial) known
    trivial fun t _ inv _ => ⟨?_, fun c mem => ?_⟩) fun received t here => ?_
  · exact selected_kept inv
  · exact (selected_kept inv).1.grows.commands c (select_known inv mem)
  split
  next command => exact handle_safe started (here command rfl)
  next => exact stop_safe

end Commands

/-! ## The runs -/

section Runs

variable {outcomes : Nat → Written} {c d : Pool (Option Nat) UinputInput ToolsError}

theorem InputEntry.safe {thread : Option Nat} {s : UinputInput} {p : InputTask Unit}
    (entry : InputEntry thread s p) : InputSafe thread p (fun _ _ => True) s := by
  cases entry with
  | worker started running => exact workerLoop_safe started
  | releaseSpam source timeout => exact releaseSpam_safe source timeout
  | spamCycleTicket =>
    exact modify_safe fun t inv => ⟨⟨rfl, fun _ => List.mem_cons_of_mem _, fun _ h => h, fun _ h => h⟩,
      captureTicket_inv inv⟩
  | spamCycle source key modifier deadline captured =>
    refine submit_safe false ⟨nofun, fun _ _ _ => ⟨_, rfl⟩, fun ticket mem => ?_, nofun⟩
    cases mem
    exact captured
  | pressKey source key => exact submit_safe false ⟨nofun, nofun, nofun, nofun⟩
  | keyEvent source key value => exact submit_safe false ⟨nofun, nofun, nofun, nofun⟩
  | shutdown => exact modify_safe fun t inv => ⟨⟨rfl, .same rfl rfl rfl⟩, inv.queues inv.queued⟩

theorem new_inv (outcomes : Nat → Written) : (UinputInput.new outcomes).Inv where
  worker := by
    refine ⟨fun _ => ⟨fun down => ?_, fun down => ?_, fun _ down => ?_⟩,
      fun _ mem => absurd mem List.not_mem_nil, fun _ mem => absurd mem List.not_mem_nil,
      fun _ mem => absurd mem List.not_mem_nil⟩ <;> cases down
  captured _ mem := absurd mem List.not_mem_nil
  called _ mem := absurd mem List.not_mem_nil
  apart _ mem := absurd mem List.not_mem_nil
  raised _ mem := absurd mem List.not_mem_nil
  valid _ mem := absurd mem List.not_mem_nil
  ordered _ mem := absurd mem List.not_mem_nil
  queued _ mem := mem.elim (absurd · List.not_mem_nil) (absurd · List.not_mem_nil)
  executed _ mem := absurd mem List.not_mem_nil
  cutoff _ mem := by cases mem

theorem InputRun.kept (run : InputRun (Pool.idle (.new outcomes)) c) : inputDiscipline.Kept c :=
  PoolRun.kept (D := inputDiscipline) (fun _ _ _ _ entry => entry.safe) run
    (Discipline.kept_idle (new_inv outcomes))

/-- **No stuck input**, as long as no press of the modifier fails after the device has taken it. -/
theorem spam_inputs_recorded (run : InputRun (Pool.idle (.new outcomes)) c)
    (prompt : Prompt c.1.worker.device.writes) :
    Recorded c.1.worker ∧ ∀ e ∈ c.1.worker.history,
      (e.command.kind = .releaseSpam → e.outcome = .completed →
        ∀ code, spamDown e.after code = false) ∧
      (∀ key modifier, e.command.kind = .spamCycle key modifier → e.outcome = .completed →
        ∃ code earlier, keyLabelToKeycode key = some code ∧
          e.after = ⟨some e.command, .btnLeft, 0, .accepted⟩ ::
            ⟨some e.command, .btnLeft, 1, .accepted⟩ :: ⟨some e.command, code, 1, .accepted⟩ ::
              (earlier ++ e.before) ∧ ∀ x ∈ earlier, noClick x) := by
  have inv := run.kept.1.worker
  refine ⟨inv.recorded prompt, fun e mem => ⟨fun release done => ?_, (inv.proper e mem).cycle⟩⟩
  refine (inv.proper e mem).release release done ?_
  obtain ⟨later, writes, -⟩ := inv.fresh e mem release
  rw [writes] at prompt
  exact prompt.of_append

end Runs

section Samples

variable {outcomes : Nat → Written}

/-- One thread runs alone, to its end. -/
theorem InputRun.alone (s : UinputInput) (thread : Option Nat) {p : InputTask Unit}
    (entry : InputEntry thread s p) (ends : (p.alone s).isSome = true) : InputRun (Pool.idle s) (Pool.idle (p.left s)) :=
  PoolRun.left (c := Pool.idle s) (t := thread) rfl entry ends

def sampleTicket (outcomes : Nat → Written) : UinputInput := (UinputInput.new outcomes).captureTicket

/-- A cycle with a modifier is submitted, -/
def sampleCycle : InputTask Unit :=
  submit .spammer (.spamCycle "F2" (some .shift)) (some 10) (some ⟨0, 1⟩) none false

def sampleSubmitted (outcomes : Nat → Written) : UinputInput :=
  sampleCycle.left (sampleTicket outcomes)

/-- the worker executes it, -/
def sampleCycled (outcomes : Nat → Written) : UinputInput :=
  (workerLoop 0).left (sampleSubmitted outcomes)

/-- and then its inputs are released. -/
def sampleCalled (outcomes : Nat → Written) : UinputInput :=
  (releaseSpam .spammer false).left (sampleCycled outcomes)

def sampleReleased (outcomes : Nat → Written) : UinputInput :=
  (workerLoop 0).left (sampleCalled outcomes)

/-- Every call of the sample comes to its end, and the worker keeps running. -/
structure SampleEnds (outcomes : Nat → Written) : Prop where
  submitted : (sampleCycle.alone (sampleTicket outcomes)).isSome = true
  waits : (sampleSubmitted outcomes).stopped = false
  cycled : ((workerLoop 0).alone (sampleSubmitted outcomes)).isSome = true
  called : ((releaseSpam .spammer false).alone (sampleCycled outcomes)).isSome = true
  waits' : (sampleCalled outcomes).stopped = false
  released : ((workerLoop 0).alone (sampleCalled outcomes)).isSome = true

theorem sample_captured : InputRun (Pool.idle (.new outcomes)) (Pool.idle (sampleTicket outcomes)) :=
  InputRun.alone (UinputInput.new outcomes) (some 0) .spamCycleTicket rfl

theorem SampleEnds.cycled_run (ends : SampleEnds outcomes) :
    InputRun (Pool.idle (.new outcomes)) (Pool.idle (sampleCycled outcomes)) := by
  have ticket : (⟨0, 1⟩ : SpamCycleTicket) ∈ (sampleTicket outcomes).tickets := List.mem_cons_self
  have entry : InputEntry (some 0) (sampleTicket outcomes) sampleCycle :=
    .spamCycle .spammer "F2" (some .shift) 10 ticket
  have submitted := InputRun.alone (sampleTicket outcomes) (some 0) entry ends.submitted
  have cycled := InputRun.alone (sampleSubmitted outcomes) none (.worker 0 ends.waits) ends.cycled
  exact Relation.ReflTransGen.trans sample_captured (Relation.ReflTransGen.trans submitted cycled)

theorem SampleEnds.run (ends : SampleEnds outcomes) :
    InputRun (Pool.idle (.new outcomes)) (Pool.idle (sampleReleased outcomes)) := by
  have called := InputRun.alone (sampleCycled outcomes) (some 0) (.releaseSpam .spammer false) ends.called
  have released := InputRun.alone (sampleCalled outcomes) none (.worker 0 ends.waits') ends.released
  exact Relation.ReflTransGen.trans ends.cycled_run (Relation.ReflTransGen.trans called released)

def taken (_ : Nat) : Written := .accepted

theorem taken_ends : SampleEnds taken := by
  constructor <;> decide +kernel

/-- Both commands of the sample complete. -/
theorem spam_inputs_recorded_sample :
    Recorded (sampleReleased taken).worker ∧
      (sampleReleased taken).worker.history.map (·.outcome) = [.completed, .completed] := by
  have accepted : ∀ x ∈ (sampleReleased taken).worker.device.writes, x.written = .accepted := by
    decide +kernel
  have prompt : Prompt (sampleReleased taken).worker.device.writes := fun x mem _ _ error late =>
    Written.noConfusion ((accepted x mem).symm.trans late)
  exact ⟨(spam_inputs_recorded taken_ends.run prompt).1, by decide +kernel⟩

/-- The first write of the sample is the press of the modifier. -/
def reportFails (n : Nat) : Written :=
  if n = 0 then .late ⟨none, "Resource temporarily unavailable"⟩ else .accepted

/-- The modifier stays down over a release that completes. -/
theorem modifier_stays_down : ¬ ∀ c : Pool (Option Nat) UinputInput ToolsError,
    InputRun (Pool.idle (.new reportFails)) c → ∀ e ∈ c.1.worker.history,
      e.command.kind = .releaseSpam → e.outcome = .completed →
        ∀ code, spamDown e.after code = false := by
  intro released
  have ends : SampleEnds reportFails := by constructor <;> decide +kernel
  have stays : ∃ e ∈ (sampleReleased reportFails).worker.history, e.command.kind = .releaseSpam ∧
      e.outcome = .completed ∧ spamDown e.after .keyLeftShift = true := by
    decide +kernel
  obtain ⟨e, mem, kind, done, down⟩ := stays
  exact absurd (released _ ends.run e mem kind done .keyLeftShift) (ne_false_of_eq_true down)

end Samples

end RoLauncher.Input
