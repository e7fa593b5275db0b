import RoLauncher.Input.Passthrough

/-!
# The spammer's loop (`loop_runner.rs`)

One loop listens to the daemon behind the keyboards, to a timer and to the task
that writes a cycle. The key that was pressed last is the active one; while
there is one, a cycle is written, a pause is made and the next is written. Equipment
is changed in between, and the loop waits for it.

In every run there is at most one cycle under way, the loop never sleeps with a
key active, and what is held down is let go of before another key's cycle
(`spamLoop_dispatches_one`). Texts for the log and the metrics are left out;
statuses are as they are given to `emit_status_if_changed`.
-/

namespace RoLauncher.Input.SpamLoop

/-- A trigger as the daemon knows it: a label with a key. -/
structure TriggerKey where
  label : String
  known : (keyLabelToKeycode label).isSome

/-! ## Configuration -/

structure GearSwitchRule where
  trigger : String
  atkKeys : List String
  defKeys : List String
  deriving DecidableEq, Repr

structure GearSwitchConfig where
  enabled : Bool
  switchDelayMs : Nat
  rules : List GearSwitchRule
  deriving DecidableEq, Repr

def GearSwitchConfig.ruleFor (gear : GearSwitchConfig) (key : String) : Option GearSwitchRule :=
  gear.rules.find? fun rule => rule.trigger = key

structure ShiftModeConfig where
  enabled : Bool
  triggerKeys : List String
  deriving DecidableEq, Repr

def ShiftModeConfig.usesTrigger (mode : ShiftModeConfig) (key : String) : Bool :=
  mode.enabled && mode.triggerKeys.any fun trigger => trigger = key

/-- What the loop reads of `SpammerConfig`, and its delay. -/
structure SpammerConfig where
  shiftMode : ShiftModeConfig
  gearSwitch : GearSwitchConfig
  postDelay : Nat
  deriving DecidableEq, Repr

def SpammerConfig.usesShiftFor (config : SpammerConfig) (key : String) : Bool :=
  config.shiftMode.usesTrigger key

inductive GearMode where
  | atkSet
  | defSet
  deriving DecidableEq, Repr

/-! ## State -/

/-- A task in the blocking pool that writes one cycle. -/
structure CycleTask where
  attempt : Nat
  key : String
  modifier : Option SpamModifier
  deriving DecidableEq, Repr

structure Status where
  active : Bool
  armed : Bool
  key : String
  cycleCount : Nat
  error : Option String
  gearMode : Option GearMode
  shiftActive : Bool
  deriving DecidableEq, Repr

/-- What the loop reports of itself when its metrics are due. -/
inductive Diagnosis where
  | activeWithoutTimerOrTask
  | multipleInflightTasks
  deriving DecidableEq, Repr

/-- What the loop asks of others, in the order it asks, and its reports of itself. -/
inductive Effect where
  | releaseSpam
  | dispatch (task : CycleTask)
  | equip (keys : List String) (switchDelayMs : Nat)
  | status (status : Status)
  | diagnosed (diagnosis : Diagnosis)
  deriving DecidableEq, Repr

/-- The loop's variables. It has left `'main` when `left` is set. -/
structure Loop where
  readyReceived : Bool
  activeKey : String
  heldKeys : List String
  cycleArmed : Bool
  nextCycleDue : Option Nat
  cycleTasks : List CycleTask
  inflightCycle : Option CycleTask
  inflightWatchdogArmed : Bool
  cycleCount : Nat
  cycleAttempt : Nat
  gearMode : Option GearMode
  shiftActive : Bool
  terminalError : Option String
  left : Bool
  effects : List Effect
  deriving DecidableEq, Repr

/-- How a cycle's task ended: it was cancelled or written, it failed, or it panicked. -/
inductive CycleEnd where
  | cycled (cycled : Bool)
  | failed (error : String)
  | joinError (error : String)
  deriving DecidableEq, Repr

/-- How the outside answers while a trigger is handled; the equipment's task can panic. -/
structure Answers where
  release : Except String Unit
  gearRelease : Except String Unit
  gearWriter : Except String Unit
  equip : Except String (Except String Unit)

/-- What a branch of the loop is taken for. -/
inductive Event where
  | stop (stopped : Bool)
  | ready (release : Except String Unit)
  | triggerHeld (key : TriggerKey) (held : Bool) (now : Nat) (answers : Answers)
  | fatal (message : String)
  | otherLine
  | closed
  | timer
  | joined (place : Nat) (result : CycleEnd) (now : Nat) (emits : Bool)
  | watchdog
  | metrics
  | readyTimeout

/-! ## Branches -/

namespace Loop

def initial : Loop where
  readyReceived := false
  activeKey := ""
  heldKeys := []
  cycleArmed := false
  nextCycleDue := none
  cycleTasks := []
  inflightCycle := none
  inflightWatchdogArmed := false
  cycleCount := 0
  cycleAttempt := 0
  gearMode := none
  shiftActive := false
  terminalError := none
  left := false
  effects := []

def ask (effect : Effect) (s : Loop) : Loop := { s with effects := s.effects ++ [effect] }

def emitStatus (error : Option String) (s : Loop) : Loop :=
  s.ask (.status ⟨true, true, s.activeKey, s.cycleCount, error, s.gearMode, s.shiftActive⟩)

/-- The status before the loop is left for an error of the daemon. -/
def emitDown (error : String) (s : Loop) : Loop :=
  s.ask (.status ⟨false, false, s.activeKey, s.cycleCount, some error, none, false⟩)

/-- `break 'main`. -/
def breakMain (s : Loop) : Loop := { s with left := true }

def breakWith (error : String) (s : Loop) : Loop :=
  { s with terminalError := some error, left := true }

def handleReady (release : Except String Unit) (s : Loop) : Loop :=
  let s := { s with readyReceived := true }.ask .releaseSpam
  match release with
  | .error error => s.breakWith s!"no se pudo limpiar la tecla del spammer: {error}"
  | .ok _ =>
    let s := { s with shiftActive := false }
    s.ask (.status ⟨true, true, "", 0, none, s.gearMode, s.shiftActive⟩)

def pressKey (key : String) (now : Nat) (s : Loop) : Loop :=
  let pressed :=
    { s with
      heldKeys := if key ∈ s.heldKeys then s.heldKeys else s.heldKeys ++ [key]
      activeKey := key }
  if s.activeKey = "" then
    if s.cycleTasks.isEmpty then
      { pressed with cycleCount := 0, nextCycleDue := some now, cycleArmed := true }
    -- The cancelled prior attempt is joined first; that arms the timer.
    else { pressed with cycleCount := 0, nextCycleDue := none, cycleArmed := false }
  else pressed

def liftKey (key : String) (s : Loop) : Loop :=
  let held := s.heldKeys.filter fun other => other ≠ key
  if s.activeKey = key then
    match held.getLast? with
    | some next => { s with heldKeys := held, activeKey := next, cycleCount := 0 }
    | none => { s with heldKeys := held, activeKey := "" }
  else { s with heldKeys := held }

def disarmIdle (s : Loop) : Loop :=
  if s.activeKey = "" then { s with cycleArmed := false, nextCycleDue := none } else s

/-- The active key after a trigger, and what was held for another is let go. An error is a loop
that is left. -/
def switchKey (key : String) (held : Bool) (now : Nat) (release : Except String Unit) (s : Loop) :
    Except Loop Loop :=
  let switched := if held then s.pressKey key now else s.liftKey key
  if switched.activeKey ≠ s.activeKey ∧ s.activeKey ≠ "" then
    let switched := switched.ask .releaseSpam
    match release with
    | .error error => .error (switched.breakWith s!"no se pudo soltar la tecla del spammer: {error}")
    | .ok _ => .ok { switched with shiftActive := false }.disarmIdle
  else .ok switched.disarmIdle

/-- The equipment of a rule. An error is a loop that is left, or one that goes on at once. -/
def switchGear (config : SpammerConfig) (key : String) (pressed : Bool) (answers : Answers)
    (s : Loop) : Except Loop Loop :=
  match config.gearSwitch.ruleFor key with
  | none => .ok s
  | some rule =>
    let s := s.ask .releaseSpam
    match answers.gearRelease with
    | .error error => .error (s.breakWith s!"no se pudo pausar el spammer para gear: {error}")
    | .ok _ =>
      let s := { s with shiftActive := false }
      let mode := if pressed then GearMode.atkSet else .defSet
      let keys := if pressed then rule.atkKeys else rule.defKeys
      if keys.isEmpty then .ok { s with gearMode := some mode }
      else
        match answers.gearWriter with
        | .error _ => .error s
        | .ok _ =>
          let s := s.ask (.equip keys config.gearSwitch.switchDelayMs)
          match answers.equip with
          | .ok (.ok _) => .ok { s with gearMode := some mode }
          | .ok (.error _) => .ok s
          | .error _ => .ok s

def handleTriggerHeld (config : SpammerConfig) (key : String) (held : Bool) (now : Nat)
    (answers : Answers) (s : Loop) : Except Loop Loop := do
  let wasHeld := decide (key ∈ s.heldKeys)
  let switched ← s.switchKey key held now answers.release
  let switched := if switched.activeKey ≠ s.activeKey then switched.emitStatus none else switched
  if config.gearSwitch.enabled ∧ held ≠ wasHeld then
    let equipped ← switched.switchGear config key held answers
    return equipped.emitStatus none
  else return switched

/-- The timer has fired: the next cycle is given to the pool. -/
def handleTimer (config : SpammerConfig) (s : Loop) : Loop :=
  let s := { s with cycleArmed := false, nextCycleDue := none }
  if s.activeKey ≠ "" then
    let task : CycleTask :=
      { attempt := s.cycleAttempt + 1
        key := s.activeKey
        modifier := if config.usesShiftFor s.activeKey then some .shift else none }
    let s := { s with
      cycleAttempt := s.cycleAttempt + 1
      inflightCycle := some task
      inflightWatchdogArmed := true
      cycleTasks := s.cycleTasks ++ [task] }
    s.ask (.dispatch task)
  else s

def nextCycleDeadline (completedAt delay : Nat) : Nat := completedAt + delay

def armNext (config : SpammerConfig) (now : Nat) (s : Loop) : Loop :=
  if s.activeKey ≠ "" then
    { s with nextCycleDue := some (nextCycleDeadline now config.postDelay), cycleArmed := true }
  else s

/-- A task has ended and is no longer among `cycle_tasks`. -/
def handleJoined (config : SpammerConfig) (task : CycleTask) (result : CycleEnd) (now : Nat)
    (emits : Bool) (s : Loop) : Loop :=
  match result with
  | .joinError error =>
    let error := s!"worker del ciclo terminó con error: {error}"
    (s.emitStatus (some error)).breakWith error
  | .failed error =>
    let s := { s with inflightWatchdogArmed := false, inflightCycle := none }
    (s.emitStatus (some error)).breakWith error
  | .cycled cycled =>
    let s := { s with inflightWatchdogArmed := false, inflightCycle := none }
    let s :=
      if cycled then
        { s with
          cycleCount := s.cycleCount + 1
          shiftActive := decide (s.activeKey = task.key) && config.usesShiftFor task.key }
      else s
    let s := s.armNext config now
    if emits then s.emitStatus none else s

def handleWatchdog (s : Loop) : Loop :=
  if s.inflightCycle.isSome then s else { s with inflightWatchdogArmed := false }

def handleMetrics (s : Loop) : Loop :=
  let asleep := s.activeKey ≠ "" ∧ s.cycleArmed = false ∧ s.cycleTasks = []
  let s := if asleep then s.ask (.diagnosed .activeWithoutTimerOrTask) else s
  if s.cycleTasks.length > 1 then s.ask (.diagnosed .multipleInflightTasks) else s

/-- One turn of the loop; none when the branch is not enabled. -/
def step (config : SpammerConfig) (s : Loop) (event : Event) : Option Loop :=
  if s.left then none
  else
    match event with
    | .stop stopped => some (if stopped then s.breakMain else s)
    | .ready release => some (s.handleReady release)
    | .triggerHeld key held now answers =>
      if s.readyReceived then
        match s.handleTriggerHeld config key.label held now answers with
        | .ok s | .error s => some s
      else some s
    | .fatal message => some (s.emitDown message).breakMain
    | .otherLine => some s
    | .closed => some (s.emitDown "[Spammer] ro-inputd terminó inesperadamente").breakMain
    | .timer => if s.readyReceived && s.cycleArmed then some (s.handleTimer config) else none
    | .joined place result now emits =>
      match s.cycleTasks[place]? with
      | some task =>
        some ({ s with cycleTasks := s.cycleTasks.eraseIdx place }.handleJoined config task result
          now emits)
      | none => none
    | .watchdog => if s.inflightWatchdogArmed then some s.handleWatchdog else none
    | .metrics => some s.handleMetrics
    | .readyTimeout =>
      if s.readyReceived then none
      else some (s.emitDown "[Spammer] ro-inputd no respondió (timeout)").breakMain

/-- The loop after these turns. -/
def run (config : SpammerConfig) (events : List Event) : Option Loop :=
  events.foldlM (step config) initial

/-- After `'main`: the pool's tasks are waited for. -/
def cleanUp (release : Except String Unit) (s : Loop) : Loop :=
  let s := s.ask .releaseSpam
  let s :=
    match release with
    | .error error =>
      { s with terminalError :=
          s.terminalError <|> some s!"no se pudo liberar el spammer al detenerse: {error}" }
    | .ok _ => s
  let s := { s with shiftActive := false, cycleTasks := [] }
  s.ask (.status ⟨false, false, "", s.cycleCount, s.terminalError, none, s.shiftActive⟩)

end Loop

/-! ## What holds between turns -/

namespace Loop

structure Consistent (s : Loop) : Prop where
  single : s.cycleTasks.length ≤ 1
  slot : s.cycleArmed = true → s.cycleTasks = []
  awake : s.left = false → s.activeKey ≠ "" → s.cycleArmed = true ∨ s.cycleTasks ≠ []
  nodup : s.heldKeys.Nodup
  active : s.activeKey ∈ s.heldKeys ∨ s.activeKey = "" ∧ s.heldKeys = []
  labelled : "" ∉ s.heldKeys

/-- The keys, the timer and the tasks are as they were, and more was asked, none of it a report. -/
structure Same (s s' : Loop) : Prop where
  activeKey : s'.activeKey = s.activeKey
  heldKeys : s'.heldKeys = s.heldKeys
  cycleArmed : s'.cycleArmed = s.cycleArmed
  cycleTasks : s'.cycleTasks = s.cycleTasks
  left : s'.left = false → s.left = false
  effects : ∃ more, s'.effects = s.effects ++ more ∧ ∀ diagnosis, .diagnosed diagnosis ∉ more

section Same

variable {s s' s'' : Loop}

theorem Same.refl (s : Loop) : Same s s :=
  ⟨rfl, rfl, rfl, rfl, id, [], (List.append_nil _).symm, by simp⟩

theorem Same.trans (first : Same s s') (second : Same s' s'') : Same s s'' where
  activeKey := second.activeKey.trans first.activeKey
  heldKeys := second.heldKeys.trans first.heldKeys
  cycleArmed := second.cycleArmed.trans first.cycleArmed
  cycleTasks := second.cycleTasks.trans first.cycleTasks
  left going := first.left (second.left going)
  effects := by
    obtain ⟨more, grown, quiet⟩ := first.effects
    obtain ⟨more', grown', quiet'⟩ := second.effects
    refine ⟨more ++ more', by rw [grown', grown, List.append_assoc], fun diagnosis mem => ?_⟩
    rcases List.mem_append.mp mem with before | after
    · exact quiet diagnosis before
    · exact quiet' diagnosis after

theorem Same.ask (effect : Effect) (quiet : ∀ diagnosis, effect ≠ .diagnosed diagnosis) :
    Same s (s.ask effect) :=
  ⟨rfl, rfl, rfl, rfl, id, [effect], rfl, fun diagnosis mem =>
    quiet diagnosis (List.mem_singleton.mp mem).symm⟩

theorem Same.emitStatus (error : Option String) : Same s (s.emitStatus error) :=
  Same.ask _ fun _ never => by cases never

theorem Same.emitDown (error : String) : Same s (s.emitDown error) :=
  Same.ask _ fun _ never => by cases never

theorem Same.releaseSpam : Same s (s.ask .releaseSpam) :=
  Same.ask _ fun _ never => by cases never

theorem Same.breakMain : Same s s.breakMain :=
  ⟨rfl, rfl, rfl, rfl, (fun never => by cases never), [], (List.append_nil _).symm, by simp⟩

theorem Same.breakWith (error : String) : Same s (s.breakWith error) :=
  ⟨rfl, rfl, rfl, rfl, (fun never => by cases never), [], (List.append_nil _).symm, by simp⟩

/-- Variables that nothing here depends on. -/
theorem Same.vars (ready : Bool) (count : Nat) (inflight : Option CycleTask) (armed : Bool)
    (gear : Option GearMode) (shift : Bool) :
    Same s { s with
      readyReceived := ready
      cycleCount := count
      inflightCycle := inflight
      inflightWatchdogArmed := armed
      gearMode := gear
      shiftActive := shift } :=
  ⟨rfl, rfl, rfl, rfl, id, [], (List.append_nil _).symm, by simp⟩

theorem Consistent.of_same (consistent : Consistent s) (same : Same s s') : Consistent s' where
  single := by
    rw [same.cycleTasks]
    exact consistent.single
  slot := by
    rw [same.cycleTasks, same.cycleArmed]
    exact consistent.slot
  awake going := by
    rw [same.activeKey, same.cycleTasks, same.cycleArmed]
    exact consistent.awake (same.left going)
  nodup := by
    rw [same.heldKeys]
    exact consistent.nodup
  active := by
    rw [same.activeKey, same.heldKeys]
    exact consistent.active
  labelled := by
    rw [same.heldKeys]
    exact consistent.labelled

end Same

/-! ### Branches that change no key -/

section Frames

variable {config : SpammerConfig} {s : Loop}

theorem handleReady_same (release : Except String Unit) : Same s (s.handleReady release) := by
  have asked : Same s ({ s with readyReceived := true }.ask .releaseSpam) :=
    (Same.vars true _ _ _ _ _).trans .releaseSpam
  unfold handleReady
  cases release with
  | error error => exact asked.trans (.breakWith _)
  | ok _ =>
    apply (asked.trans (.vars _ _ _ _ _ false)).trans
    exact Same.ask _ fun _ never => by cases never

/-- Whether the gear's work is done or the loop goes on without it. -/
theorem switchGear_same (key : String) (pressed : Bool) (answers : Answers) :
    (∃ s', s.switchGear config key pressed answers = .ok s' ∧ Same s s') ∨
      ∃ s', s.switchGear config key pressed answers = .error s' ∧ Same s s' := by
  unfold switchGear
  split
  · exact .inl ⟨s, rfl, .refl s⟩
  next rule _ =>
  dsimp only
  generalize (if pressed then rule.atkKeys else rule.defKeys) = keys
  generalize (if pressed then GearMode.atkSet else .defSet) = mode
  split
  · exact .inr ⟨_, rfl, Same.releaseSpam.trans (.breakWith _)⟩
  have paused : Same s { s.ask .releaseSpam with shiftActive := false } :=
    Same.releaseSpam.trans (.vars _ _ _ _ _ false)
  split
  · exact .inl ⟨_, rfl, paused.trans (.vars _ _ _ _ _ _)⟩
  split
  · exact .inr ⟨_, rfl, paused⟩
  have equipped : Same s ({ s.ask .releaseSpam with shiftActive := false }.ask
      (.equip keys config.gearSwitch.switchDelayMs)) :=
    paused.trans (Same.ask _ fun _ never => by cases never)
  split
  · exact .inl ⟨_, rfl, equipped.trans (.vars _ _ _ _ _ _)⟩
  · exact .inl ⟨_, rfl, equipped⟩
  · exact .inl ⟨_, rfl, equipped⟩

theorem handleWatchdog_same : Same s s.handleWatchdog := by
  unfold handleWatchdog
  split
  · exact .refl s
  · exact .vars _ _ _ false _ _

end Frames

/-! ### The keys -/

section Keys

variable {s : Loop} {key : String}

theorem pressKey_consistent (consistent : Consistent s) (labelled : key ≠ "") (now : Nat) :
    Consistent (s.pressKey key now) := by
  have held : (if key ∈ s.heldKeys then s.heldKeys else s.heldKeys ++ [key]).Nodup ∧
      key ∈ (if key ∈ s.heldKeys then s.heldKeys else s.heldKeys ++ [key]) ∧
      "" ∉ (if key ∈ s.heldKeys then s.heldKeys else s.heldKeys ++ [key]) := by
    split
    next there => exact ⟨consistent.nodup, there, consistent.labelled⟩
    next absent =>
      refine ⟨List.Nodup.append consistent.nodup (List.nodup_singleton key) ?_, by simp, ?_⟩
      · simpa using absent
      · simpa [eq_comm] using ⟨consistent.labelled, labelled⟩
  obtain ⟨nodup, there, labelled'⟩ := held
  unfold pressKey
  dsimp only
  split
  next idle =>
    split
    next empty =>
      have none := List.isEmpty_iff.mp empty
      exact {
        single := consistent.single
        slot := fun _ => none
        awake := fun _ _ => .inl rfl
        nodup, active := .inl there, labelled := labelled' }
    next busy =>
      exact {
        single := consistent.single
        slot := fun never => by cases never
        awake := fun _ _ => .inr fun none => busy (List.isEmpty_iff.mpr none)
        nodup, active := .inl there, labelled := labelled' }
  next active =>
    exact {
      single := consistent.single
      slot := consistent.slot
      awake := fun going _ => consistent.awake going active
      nodup, active := .inl there, labelled := labelled' }

theorem liftKey_consistent (consistent : Consistent s) : Consistent (s.liftKey key) := by
  have nodup : (s.heldKeys.filter fun other => other ≠ key).Nodup := consistent.nodup.filter _
  have labelled : "" ∉ s.heldKeys.filter fun other => other ≠ key :=
    fun mem => consistent.labelled (List.mem_of_mem_filter mem)
  unfold liftKey
  dsimp only
  split
  next same =>
    split
    next next last =>
      have there := List.mem_of_getLast? last
      have active : s.activeKey ≠ "" := by
        intro idle
        rcases consistent.active with mem | ⟨-, none⟩
        · rw [idle] at mem
          exact consistent.labelled mem
        · rw [none] at there
          cases there
      exact {
        single := consistent.single
        slot := consistent.slot
        awake := fun going _ => consistent.awake going active
        nodup, active := .inl there, labelled }
    next last =>
      exact {
        single := consistent.single
        slot := consistent.slot
        awake := fun _ never => absurd rfl never
        nodup, active := .inr ⟨rfl, List.getLast?_eq_none_iff.mp last⟩, labelled }
  next other =>
    refine ⟨consistent.single, consistent.slot, consistent.awake, nodup, ?_, labelled⟩
    rcases consistent.active with mem | ⟨idle, none⟩
    · refine .inl (List.mem_filter.mpr ⟨mem, ?_⟩)
      simpa using other
    · exact .inr ⟨idle, by rw [none]; rfl⟩

theorem disarmIdle_consistent (consistent : Consistent s) : Consistent s.disarmIdle := by
  unfold disarmIdle
  split
  next idle =>
    exact {
      consistent with
      slot := fun never => by cases never
      awake := fun _ active => absurd idle active }
  next => exact consistent

end Keys

/-! ### Turns -/

/-- What every turn keeps: a key that is no longer the active one is let go before all else. -/
structure Turned (s s' : Loop) : Prop where
  consistent : Consistent s'
  effects : ∃ more, s'.effects = s.effects ++ more ∧ ∀ diagnosis, .diagnosed diagnosis ∉ more
  released : s.activeKey ≠ "" → s'.activeKey ≠ s.activeKey →
    ∃ rest, s'.effects = s.effects ++ .releaseSpam :: rest

section Turns

variable {config : SpammerConfig} {s s' s'' : Loop}

theorem Turned.of_same (consistent : Consistent s) (same : Same s s') : Turned s s' :=
  ⟨consistent.of_same same, same.effects, fun _ changed => absurd same.activeKey changed⟩

/-- The active key and what was asked are as they were. -/
theorem Turned.of_still (consistent : Consistent s') (still : s'.activeKey = s.activeKey)
    (effects : s'.effects = s.effects) : Turned s s' :=
  ⟨consistent, ⟨[], by rw [effects, List.append_nil], by simp⟩, fun _ changed => absurd still changed⟩

theorem Turned.trans_same (turned : Turned s s') (same : Same s' s'') : Turned s s'' where
  consistent := turned.consistent.of_same same
  effects := by
    obtain ⟨more, grown, quiet⟩ := turned.effects
    obtain ⟨more', grown', quiet'⟩ := same.effects
    refine ⟨more ++ more', by rw [grown', grown, List.append_assoc], fun diagnosis mem => ?_⟩
    rcases List.mem_append.mp mem with before | after
    · exact quiet diagnosis before
    · exact quiet' diagnosis after
  released active changed := by
    rw [same.activeKey] at changed
    obtain ⟨rest, grown⟩ := turned.released active changed
    obtain ⟨more, grown', -⟩ := same.effects
    exact ⟨rest ++ more, by rw [grown', grown, List.append_assoc, List.cons_append]⟩

theorem disarmIdle_activeKey : s.disarmIdle.activeKey = s.activeKey := by
  unfold disarmIdle
  split
  · rfl
  · rfl

theorem disarmIdle_effects : s.disarmIdle.effects = s.effects := by
  unfold disarmIdle
  split
  · rfl
  · rfl

theorem pressKey_effects (key : String) (now : Nat) : (s.pressKey key now).effects = s.effects := by
  unfold pressKey
  dsimp only
  split
  · split
    · rfl
    · rfl
  · rfl

theorem liftKey_effects (key : String) : (s.liftKey key).effects = s.effects := by
  unfold liftKey
  dsimp only
  split
  · split
    · rfl
    · rfl
  · rfl

/-- The loop after a branch, whether it went to its end or not. -/
def settled : Except Loop Loop → Loop
  | .ok s => s
  | .error s => s

theorem switchKey_turned (consistent : Consistent s) {key : String} (labelled : key ≠ "")
    (held : Bool) (now : Nat) (release : Except String Unit) :
    Turned s (settled (s.switchKey key held now release)) := by
  have switched : Consistent (if held then s.pressKey key now else s.liftKey key) ∧
      (if held then s.pressKey key now else s.liftKey key).effects = s.effects := by
    split
    · exact ⟨pressKey_consistent consistent labelled now, pressKey_effects key now⟩
    · exact ⟨liftKey_consistent consistent, liftKey_effects key⟩
  unfold switchKey
  dsimp only
  generalize (if held then s.pressKey key now else s.liftKey key) = switched at switched ⊢
  obtain ⟨kept, effects⟩ := switched
  have asked : Consistent (switched.ask .releaseSpam) := kept.of_same .releaseSpam
  have grown : (switched.ask .releaseSpam).effects = s.effects ++ [.releaseSpam] := by
    rw [← effects]
    rfl
  split
  next changed =>
    have released : Turned s (switched.ask .releaseSpam) :=
      ⟨asked, ⟨_, grown, by simp⟩, fun _ _ => ⟨[], grown⟩⟩
    split
    · exact released.trans_same (.breakWith _)
    · have free : Turned s { switched.ask .releaseSpam with shiftActive := false } :=
        released.trans_same (.vars _ _ _ _ _ false)
      refine ⟨disarmIdle_consistent free.consistent, ?_, fun _ _ => ⟨[], ?_⟩⟩
      · exact ⟨_, (disarmIdle_effects).trans grown, by simp⟩
      · exact (disarmIdle_effects).trans grown
  next same =>
    refine ⟨disarmIdle_consistent kept, ⟨[], ?_, by simp⟩, fun active changed => ?_⟩
    · rw [List.append_nil]
      exact (disarmIdle_effects).trans effects
    · exact absurd ⟨by rwa [← @disarmIdle_activeKey switched], active⟩ same

theorem handleTriggerHeld_turned (consistent : Consistent s) {key : String} (labelled : key ≠ "")
    (held : Bool) (now : Nat) (answers : Answers) :
    Turned s (settled (s.handleTriggerHeld config key held now answers)) := by
  have switched := switchKey_turned consistent labelled held now answers.release
  unfold handleTriggerHeld
  generalize s.switchKey key held now answers.release = result at switched ⊢
  cases result with
  | error left => exact switched
  | ok after =>
    have told : Turned s (if after.activeKey ≠ s.activeKey then after.emitStatus none else after) := by
      split
      · exact switched.trans_same (.emitStatus none)
      · exact switched
    simp only [bind, Except.bind, pure, Except.pure]
    generalize (if after.activeKey ≠ s.activeKey then after.emitStatus none else after) = after'
      at told ⊢
    split
    · rcases @switchGear_same config after' key held answers with ⟨last, result, same⟩ | ⟨last, result, same⟩
      · rw [result]
        exact (told.trans_same same).trans_same (.emitStatus none)
      · rw [result]
        exact told.trans_same same
    · exact told

theorem handleTimer_turned (consistent : Consistent s) (armed : s.cycleArmed = true) :
    Turned s (s.handleTimer config) := by
  unfold handleTimer
  dsimp only
  split
  next active =>
    refine ⟨?_, ⟨_, rfl, by simp⟩, fun _ changed => absurd rfl changed⟩
    exact {
      consistent with
      single := by
        show (s.cycleTasks ++ [_]).length ≤ 1
        rw [consistent.slot armed]
        exact Nat.le_refl 1
      slot := fun never => by cases never
      awake := fun _ _ => .inr (List.append_ne_nil_of_right_ne_nil _ (List.cons_ne_nil _ _)) }
  next idle =>
    refine .of_still ?_ rfl rfl
    exact {
      consistent with
      slot := fun never => by cases never
      awake := fun _ active => absurd active idle }

theorem eraseIdx_of_single {tasks : List CycleTask} (single : tasks.length ≤ 1) {place : Nat}
    {task : CycleTask} (there : tasks[place]? = some task) : tasks.eraseIdx place = [] := by
  obtain ⟨within, -⟩ := List.getElem?_eq_some_iff.mp there
  rw [List.eq_nil_iff_length_eq_zero, List.length_eraseIdx_of_lt within]
  omega

/-- With the slot free, the timer is armed for the key that is active. -/
theorem armNext_turned (consistent : Consistent s) (active : s'.activeKey = s.activeKey)
    (held : s'.heldKeys = s.heldKeys) (free : s'.cycleTasks = []) (effects : s'.effects = s.effects)
    (now : Nat) : Turned s (s'.armNext config now) := by
  unfold armNext
  split
  next some =>
    refine .of_still ?_ active effects
    exact {
      single := by
        show s'.cycleTasks.length ≤ 1
        rw [free]
        exact Nat.zero_le 1
      slot := fun _ => free
      awake := fun _ _ => .inl rfl
      nodup := held ▸ consistent.nodup
      active := by
        show s'.activeKey ∈ s'.heldKeys ∨ s'.activeKey = "" ∧ s'.heldKeys = []
        rw [active, held]
        exact consistent.active
      labelled := held ▸ consistent.labelled }
  next idle =>
    refine .of_still ?_ active effects
    exact {
      single := by
        rw [free]
        exact Nat.zero_le 1
      slot := fun _ => free
      awake := fun _ some => absurd some idle
      nodup := held ▸ consistent.nodup
      active := by
        rw [active, held]
        exact consistent.active
      labelled := held ▸ consistent.labelled }

theorem handleJoined_turned (consistent : Consistent s) {place : Nat} {task : CycleTask}
    (there : s.cycleTasks[place]? = some task) (result : CycleEnd) (now : Nat) (emits : Bool) :
    Turned s ({ s with cycleTasks := s.cycleTasks.eraseIdx place }.handleJoined config task result
      now emits) := by
  rw [eraseIdx_of_single consistent.single there]
  have gone (error : String) (watchdog : Bool) (inflight : Option CycleTask) :
      Turned s (({ s with
        cycleTasks := []
        inflightWatchdogArmed := watchdog
        inflightCycle := inflight }.emitStatus (some error)).breakWith error) := by
    refine ⟨?_, ⟨[_], rfl, by simp⟩, fun _ changed => absurd rfl changed⟩
    exact {
      single := Nat.zero_le 1
      slot := fun _ => rfl
      awake := fun never => by cases never
      nodup := consistent.nodup
      active := consistent.active
      labelled := consistent.labelled }
  unfold handleJoined
  cases result with
  | joinError error => exact gone _ _ _
  | failed error => exact gone error false none
  | cycled cycled =>
    have armed (count : Nat) (shift : Bool) := @armNext_turned config s
      { s with
        cycleTasks := []
        inflightWatchdogArmed := false
        inflightCycle := none
        cycleCount := count
        shiftActive := shift } consistent rfl rfl rfl rfl now
    dsimp only
    cases cycled with
    | true =>
      rw [if_pos rfl]
      split
      · exact (armed _ _).trans_same (.emitStatus none)
      · exact armed _ _
    | false =>
      rw [if_neg Bool.false_ne_true]
      split
      · exact (armed _ _).trans_same (.emitStatus none)
      · exact armed _ _

/-- The loop has nothing to report of itself. -/
theorem handleMetrics_eq (consistent : Consistent s) (going : s.left = false) :
    s.handleMetrics = s := by
  have awake : ¬ (s.activeKey ≠ "" ∧ s.cycleArmed = false ∧ s.cycleTasks = []) := by
    intro asleep
    obtain ⟨active, disarmed, none⟩ := asleep
    rcases consistent.awake going active with armed | busy
    · rw [disarmed] at armed
      cases armed
    · exact busy none
  unfold handleMetrics
  dsimp only
  rw [if_neg awake, if_neg (Nat.not_lt.mpr consistent.single)]

theorem label_ne_empty (key : TriggerKey) : key.label ≠ "" := by
  intro empty
  have known := key.known
  rw [empty] at known
  revert known
  decide +kernel

/-- A turn of the loop, by the branch that is taken. -/
theorem step_turned (consistent : Consistent s) {event : Event} (turn : s.step config event = some s') :
    Turned s s' := by
  unfold step at turn
  cases going : s.left with
  | true =>
    rw [if_pos going] at turn
    cases turn
  | false =>
    rw [if_neg (Bool.eq_false_iff.mp going)] at turn
    cases event with
    | stop stopped =>
      cases turn
      split
      · exact .of_same consistent .breakMain
      · exact .of_same consistent (.refl s)
    | ready release =>
      cases turn
      exact .of_same consistent (handleReady_same release)
    | triggerHeld key held now answers =>
      dsimp only at turn
      split at turn
      next =>
        have turned := @handleTriggerHeld_turned config s consistent key.label (label_ne_empty key)
          held now answers
        generalize s.handleTriggerHeld config key.label held now answers = result at turn turned
        cases result with
        | ok after =>
          cases turn
          exact turned
        | error after =>
          cases turn
          exact turned
      next =>
        cases turn
        exact .of_same consistent (.refl s)
    | fatal message =>
      cases turn
      exact .of_same consistent ((Same.emitDown message).trans .breakMain)
    | otherLine =>
      cases turn
      exact .of_same consistent (.refl s)
    | closed =>
      cases turn
      exact .of_same consistent ((Same.emitDown _).trans .breakMain)
    | timer =>
      dsimp only at turn
      split at turn
      next enabled =>
        cases turn
        exact handleTimer_turned consistent (Bool.and_eq_true_iff.mp enabled).2
      next => cases turn
    | joined place result now emits =>
      dsimp only at turn
      split at turn
      next task there =>
        cases turn
        exact handleJoined_turned consistent there result now emits
      next => cases turn
    | watchdog =>
      dsimp only at turn
      split at turn
      next =>
        cases turn
        exact .of_same consistent handleWatchdog_same
      next => cases turn
    | metrics =>
      cases turn
      rw [handleMetrics_eq consistent going]
      exact .of_same consistent (.refl s)
    | readyTimeout =>
      dsimp only at turn
      split at turn
      next => cases turn
      next =>
        cases turn
        exact .of_same consistent ((Same.emitDown _).trans .breakMain)

end Turns

/-! ### Runs -/

section Runs

variable {config : SpammerConfig} {s s' : Loop}

theorem initial_consistent : Consistent initial where
  single := Nat.zero_le 1
  slot _ := rfl
  awake _ never := absurd rfl never
  nodup := List.nodup_nil
  active := .inr ⟨rfl, rfl⟩
  labelled mem := by cases mem

theorem steps_turned (consistent : Consistent s) {events : List Event}
    (ran : events.foldlM (step config) s = some s') :
    Consistent s' ∧
      ∃ more, s'.effects = s.effects ++ more ∧ ∀ diagnosis, .diagnosed diagnosis ∉ more := by
  induction events generalizing s with
  | nil =>
    cases ran
    exact ⟨consistent, [], (List.append_nil _).symm, by simp⟩
  | cons event events ih =>
    rw [List.foldlM_cons] at ran
    obtain ⟨next, turn, ran⟩ := Option.bind_eq_some_iff.mp ran
    have turned := step_turned consistent turn
    obtain ⟨more, grown, quiet⟩ := turned.effects
    obtain ⟨kept, more', grown', quiet'⟩ := ih turned.consistent ran
    refine ⟨kept, more ++ more', by rw [grown', grown, List.append_assoc], fun diagnosis mem => ?_⟩
    rcases List.mem_append.mp mem with before | after
    · exact quiet diagnosis before
    · exact quiet' diagnosis after

/-- A run at one of its turns. -/
theorem run_split {before rest : List Event} {event : Event}
    (ran : run config (before ++ event :: rest) = some s) :
    ∃ here next, run config before = some here ∧ here.step config event = some next ∧
      rest.foldlM (step config) next = some s := by
  unfold run at ran ⊢
  rw [List.foldlM_append] at ran
  obtain ⟨here, ran, later⟩ := Option.bind_eq_some_iff.mp ran
  rw [List.foldlM_cons] at later
  obtain ⟨next, turn, later⟩ := Option.bind_eq_some_iff.mp later
  exact ⟨here, next, ran, turn, later⟩

/-- No task is left, and the last thing asked is the release. -/
theorem cleanUp_idle (release : Except String Unit) :
    (s.cleanUp release).cycleTasks = [] ∧
      ∃ status, (s.cleanUp release).effects = s.effects ++ [.releaseSpam, .status status] := by
  unfold cleanUp
  cases release with
  | error error => exact ⟨rfl, _, List.append_assoc ..⟩
  | ok _ => exact ⟨rfl, _, List.append_assoc ..⟩

end Runs

/-- Between two turns of a loop that is ready. -/
structure Dispatching (s : Loop) : Prop where
  single : s.cycleTasks.length ≤ 1
  awake : s.left = false → s.readyReceived = true → s.activeKey ≠ "" →
    s.cycleArmed = true ∨ s.cycleTasks ≠ []
  nodup : s.heldKeys.Nodup
  active : s.activeKey ∈ s.heldKeys ∨ s.activeKey = "" ∧ s.heldKeys = []
  quiet : ∀ diagnosis, .diagnosed diagnosis ∉ s.effects

end Loop

open Loop in
/-- After any turns: one cycle is under way at most, with a key active the timer is armed or a cycle
is under way, the active key is held, and nothing was reported. A turn that changes the active key
lets it go first, so before any later cycle. -/
theorem spamLoop_dispatches_one (config : SpammerConfig) (events : List Event) (s : Loop)
    (ran : Loop.run config events = some s) :
    Dispatching s ∧
      ∀ before event rest here next, events = before ++ event :: rest →
        Loop.run config before = some here → here.step config event = some next →
        here.activeKey ≠ "" → next.activeKey ≠ here.activeKey →
          ∃ later, s.effects = here.effects ++ .releaseSpam :: later := by
  constructor
  · obtain ⟨consistent, more, grown, quiet⟩ := steps_turned initial_consistent ran
    refine ⟨consistent.single, fun going _ => consistent.awake going, consistent.nodup,
      consistent.active, fun diagnosis mem => ?_⟩
    rw [grown] at mem
    exact quiet diagnosis mem
  · intro before event rest here next cut ran' turn active changed
    subst cut
    obtain ⟨here', next', ran'', turn', later⟩ := run_split ran
    cases ran'.symm.trans ran''
    cases turn.symm.trans turn'
    obtain ⟨consistent, -⟩ := steps_turned initial_consistent ran'
    have turned := step_turned consistent turn
    obtain ⟨more, grown⟩ := turned.released active changed
    obtain ⟨-, more', grown', -⟩ := steps_turned turned.consistent later
    exact ⟨more ++ more', by rw [grown', grown, List.append_assoc, List.cons_append]⟩

/-- F1 is pressed, a cycle is written, and F2 is pressed and lifted while F1 is held. -/
def twoKeys : List Event :=
  let f1 : TriggerKey := ⟨"F1", by decide +kernel⟩
  let f2 : TriggerKey := ⟨"F2", by decide +kernel⟩
  let answers : Answers := ⟨.ok (), .ok (), .ok (), .ok (.ok ())⟩
  [.ready (.ok ()), .triggerHeld f1 true 0 answers, .timer, .joined 0 (.cycled true) 5 true,
    .triggerHeld f2 true 6 answers, .timer, .triggerHeld f2 false 7 answers]

def twoKeysConfig : SpammerConfig :=
  { shiftMode := ⟨false, []⟩, gearSwitch := ⟨true, 50, [⟨"F1", ["1"], ["2"]⟩]⟩, postDelay := 10 }

/-- F2 becomes the active key, and F1 is let go first. -/
theorem spamLoop_dispatches_one_twoKeys :
    ∃ s, Loop.run twoKeysConfig twoKeys = some s ∧ s.Dispatching ∧
      ∃ here, Loop.run twoKeysConfig (twoKeys.take 4) = some here ∧ here.activeKey = "F1" ∧
        ∃ later, s.effects = here.effects ++ .releaseSpam :: later := by
  obtain ⟨dispatching, released⟩ := spamLoop_dispatches_one twoKeysConfig twoKeys _ rfl
  refine ⟨_, rfl, dispatching, _, rfl, rfl, ?_⟩
  exact released (twoKeys.take 4) _ (twoKeys.drop 5) _ _ rfl rfl rfl (by decide) (by decide)

end RoLauncher.Input.SpamLoop
