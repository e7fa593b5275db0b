import Mathlib.Data.Finset.Basic
import RoLauncher.Input.Device

/-!
# The keyboards behind the spammer (`ro-inputd`)

The daemon holds all keyboards to itself and writes to a virtual one what the
game may see: everything but the trigger keys, which it reports to the launcher
instead. A trigger with Alt is passed through, and nothing starts.

The daemon remembers whether each Alt key was last pressed or released, on
whatever keyboard; an Alt key that is released on one while it is down on
another is forgotten. All else is right however the keyboards interleave
(`passthrough_balanced_iff`). The daemon runs with `--json`, and the virtual
keyboard takes what it is given.
-/

namespace RoLauncher.Input.Passthrough

/-- A key of a keyboard: one that may have a label, Alt, or another by its number. -/
inductive BoardKey where
  | code (code : KeyCode)
  | leftAlt
  | rightAlt
  | other (number : Nat)
  deriving DecidableEq, Repr

/-- An event of a keyboard: of a key, or of another kind. -/
inductive InputEvent where
  | key (key : BoardKey) (value : Int)
  | other (kind code : Nat) (value : Int)
  deriving DecidableEq, Repr

/-- The line `trigger` that the launcher reads. -/
structure TriggerLine where
  key : String
  held : Bool
  deriving DecidableEq, Repr

/-! ## Triggers -/

/-- Labels by their keys. -/
structure TriggerSet where
  codeToLabel : KeyCode → Option String
  known : ∀ code label, codeToLabel code = some label → keyLabelToKeycode label = some code

namespace TriggerSet

def empty : TriggerSet where
  codeToLabel _ := none
  known _ _ never := by cases never

def insert (triggers : TriggerSet) (label : String) : TriggerSet :=
  match known : keyLabelToKeycode label with
  | none => triggers
  | some code =>
    { codeToLabel := Function.update triggers.codeToLabel code (some label)
      known := by
        intro other name named
        rw [Function.update_apply] at named
        split at named
        next same =>
          cases named
          rw [known, same]
        next => exact triggers.known other name named }

/-- `parse_args`, on the labels that are valid. -/
def ofLabels (labels : List String) : TriggerSet := labels.foldl insert empty

def labelForCode (triggers : TriggerSet) : BoardKey → Option String
  | .code code => triggers.codeToLabel code
  | _ => none

end TriggerSet

/-! ## The loop -/

/-- What the daemon remembers, and the lines it has written. -/
structure Daemon where
  leftAltHeld : Bool
  rightAltHeld : Bool
  altHeld : Bool
  altPassthroughKeys : Finset BoardKey
  lines : List TriggerLine

namespace Daemon

def emitJson (label : String) (held : Bool) (d : Daemon) : Daemon :=
  { d with lines := d.lines ++ [⟨label, held⟩] }

/-- What an event of Alt changes. -/
def noteAlt (key : BoardKey) (value : Int) (d : Daemon) : Daemon :=
  if key = .leftAlt then
    { d with leftAltHeld := value ≠ 0, altHeld := value ≠ 0 || d.rightAltHeld }
  else if key = .rightAlt then
    { d with rightAltHeld := value ≠ 0, altHeld := d.leftAltHeld || value ≠ 0 }
  else d

end Daemon

def triggerUsesAltPassthrough (key : BoardKey) (value : Int) (altHeld : Bool)
    (passthroughKeys : Finset BoardKey) : Bool × Finset BoardKey :=
  if value = 1 ∧ altHeld then (decide (key ∉ passthroughKeys), insert key passthroughKeys)
  else if value = 2 then (decide (key ∈ passthroughKeys), passthroughKeys)
  else if value = 0 then (decide (key ∈ passthroughKeys), passthroughKeys.erase key)
  else (false, passthroughKeys)

/-- What becomes of a trigger key: the daemon after it, and what is passed through. -/
def handleTrigger (label : String) (key : BoardKey) (value : Int) (d : Daemon) :
    Daemon × List InputEvent :=
  let use := triggerUsesAltPassthrough key value d.altHeld d.altPassthroughKeys
  let d := { d with altPassthroughKeys := use.2 }
  if use.1 then (if value = 1 then d.emitJson label false else d, [.key key value])
  else if value = 1 then (d.emitJson label !d.altHeld, [])
  else if value = 0 then (d.emitJson label false, [])
  else (d, [])

def handleEvent (triggers : TriggerSet) (d : Daemon) : InputEvent → Daemon × List InputEvent
  | .key key value =>
    let d := d.noteAlt key value
    match triggers.labelForCode key with
    | some label => handleTrigger label key value d
    | none => (d, [.key key value])
  | .other kind code value => (d, [.other kind code value])

/-- The daemon, and what the virtual keyboard was given. -/
structure EventLoop where
  daemon : Daemon
  forwarded : List InputEvent

/-- One keyboard is read: what is passed through is written when all of it has been looked at. -/
def fetchEvents (triggers : TriggerSet) (s : EventLoop) (events : List InputEvent) : EventLoop :=
  let read := events.foldl (fun (r : Daemon × List InputEvent) event =>
    let handled := handleEvent triggers r.1 event
    (handled.1, r.2 ++ handled.2)) (s.daemon, [])
  { daemon := read.1
    forwarded := if read.2.isEmpty then s.forwarded else s.forwarded ++ read.2 }

/-- The keyboards are read one after the other, each by its place and with what has arrived. -/
def eventLoop (triggers : TriggerSet) (reads : List (Nat × List InputEvent)) (s : EventLoop) :
    EventLoop :=
  reads.foldl (fun s read => fetchEvents triggers s read.2) s

def codeHeld (boards : List (List BoardKey)) (key : BoardKey) : Bool :=
  boards.any fun keys => keys.contains key

def anyAltHeld (boards : List (List BoardKey)) : Bool :=
  boards.any fun keys => keys.contains .leftAlt || keys.contains .rightAlt

/-- The daemon begins with the keys that are down on its keyboards. -/
def start (boards : List (List BoardKey)) : EventLoop where
  daemon :=
    { leftAltHeld := codeHeld boards .leftAlt
      rightAltHeld := codeHeld boards .rightAlt
      altHeld := anyAltHeld boards
      altPassthroughKeys := ∅
      lines := [] }
  forwarded := []

/-! ## One event after the other -/

/-- The loop on a single event. -/
def feed (triggers : TriggerSet) (s : EventLoop) (event : InputEvent) : EventLoop :=
  let handled := handleEvent triggers s.daemon event
  ⟨handled.1, s.forwarded ++ handled.2⟩

/-- Events as they arrived, each with the place of its keyboard. -/
def arrivals (reads : List (Nat × List InputEvent)) : List (Nat × InputEvent) :=
  reads.flatMap fun read => read.2.map fun event => (read.1, event)

/-- The loop after these events. -/
def after (triggers : TriggerSet) (boards : List (List BoardKey)) (events : List (Nat × InputEvent)) :
    EventLoop :=
  events.foldl (fun s event => feed triggers s event.2) (start boards)

section Feed

variable {triggers : TriggerSet} {boards : List (List BoardKey)} {s : EventLoop}

theorem fetchEvents_eq (events : List InputEvent) :
    fetchEvents triggers s events = events.foldl (feed triggers) s := by
  have buffered (d : Daemon) (buffer : List InputEvent) :
      let read := events.foldl (fun (r : Daemon × List InputEvent) event =>
        let handled := handleEvent triggers r.1 event
        (handled.1, r.2 ++ handled.2)) (d, buffer)
      events.foldl (feed triggers) ⟨d, s.forwarded ++ buffer⟩ = ⟨read.1, s.forwarded ++ read.2⟩ := by
    induction events generalizing d buffer with
    | nil => rfl
    | cons event events ih =>
      simp only [List.foldl_cons]
      rw [← ih, feed, List.append_assoc]
  have whole := buffered s.daemon []
  rw [List.append_nil] at whole
  unfold fetchEvents
  dsimp only at whole ⊢
  rw [whole]
  split
  next empty => rw [List.isEmpty_iff.mp empty, List.append_nil]
  next => rfl

/-- However the events are cut into reads. -/
theorem eventLoop_eq (reads : List (Nat × List InputEvent)) :
    eventLoop triggers reads (start boards) = after triggers boards (arrivals reads) := by
  unfold eventLoop after arrivals
  generalize start boards = s
  induction reads generalizing s with
  | nil => rfl
  | cons read reads ih =>
    rw [List.foldl_cons, List.flatMap_cons, List.foldl_append, ih, fetchEvents_eq, List.foldl_map]

theorem after_append (before : List (Nat × InputEvent)) (event : Nat × InputEvent) :
    after triggers boards (before ++ [event]) =
      feed triggers (after triggers boards before) event.2 :=
  List.foldl_concat ..

end Feed

/-! ## What is down -/

/-- The keys that are down on each keyboard. -/
abbrev Held := Nat → BoardKey → Bool

def Held.press (held : Held) (board : Nat) : InputEvent → Held
  | .key key value => fun other k => if other = board ∧ k = key then value ≠ 0 else held other k
  | .other .. => held

def heldAtStart (boards : List (List BoardKey)) : Held := fun board key =>
  (boards.getD board []).contains key

def heldAfter (held : Held) (events : List (Nat × InputEvent)) : Held :=
  events.foldl (fun held event => held.press event.1 event.2) held

/-- A keyboard sends down, repeats and up of each of its keys. -/
inductive Legal (held : Held) (board : Nat) : InputEvent → Prop
  | down {key : BoardKey} (up : held board key = false) : Legal held board (.key key 1)
  | again {key : BoardKey} (down : held board key = true) : Legal held board (.key key 2)
  | up {key : BoardKey} (down : held board key = true) : Legal held board (.key key 0)
  | other {kind code : Nat} {value : Int} : Legal held board (.other kind code value)

inductive WellFormed (held : Held) : List (Nat × InputEvent) → Prop
  | nil : WellFormed held []
  | concat {events : List (Nat × InputEvent)} {board : Nat} {event : InputEvent}
      (before : WellFormed held events) (legal : Legal (heldAfter held events) board event) :
      WellFormed held (events ++ [(board, event)])

/-- Down on some keyboard. -/
def Held.Down (held : Held) (key : BoardKey) : Prop := ∃ board, held board key = true

def Held.AltDown (held : Held) : Prop := held.Down .leftAlt ∨ held.Down .rightAlt

/-- Whether the last event of a key, on whatever keyboard, was not its release. -/
def lastPressed (boards : List (List BoardKey)) (key : BoardKey) (events : List (Nat × InputEvent)) :
    Bool :=
  events.foldl (fun pressed event =>
    match event.2 with
    | .key k value => if k = key then value ≠ 0 else pressed
    | .other .. => pressed) (codeHeld boards key)

/-! ## What the virtual keyboard shows -/

/-- The values of a key among events. -/
def values (key : BoardKey) (events : List InputEvent) : List Int :=
  events.filterMap fun event =>
    match event with
    | .key k value => if k = key then some value else none
    | .other .. => none

/-- Whether a key is down after these values; none when they do not alternate. -/
def replay : Bool → List Int → Option Bool
  | down, [] => some down
  | down, value :: values =>
    if value = 1 then if down then none else replay true values
    else if value = 2 then if down then replay true values else none
    else if value = 0 then if down then replay false values else none
    else none

/-- What the launcher was told of a label last. -/
def lastTold (label : String) (lines : List TriggerLine) : Option Bool :=
  (lines.filterMap fun line => if line.key = label then some line.held else none).getLast?

def isTrigger (triggers : TriggerSet) : InputEvent → Bool
  | .key key _ => (triggers.labelForCode key).isSome
  | .other .. => false

/-- With Alt the key goes down on the virtual keyboard, unless it is down there, and nothing
starts; without, the launcher is told of it and the virtual keyboard is not. -/
structure Pressed (triggers : TriggerSet) (boards : List (List BoardKey))
    (before : List (Nat × InputEvent)) (board : Nat) (key : BoardKey) (label : String) : Prop where
  withAlt : (heldAfter (heldAtStart boards) before).AltDown →
    (after triggers boards (before ++ [(board, .key key 1)])).daemon.lines =
        (after triggers boards before).daemon.lines ++ [⟨label, false⟩] ∧
      (after triggers boards (before ++ [(board, .key key 1)])).forwarded =
        (after triggers boards before).forwarded ++
          if replay false (values key (after triggers boards before).forwarded) = some true then []
          else [.key key 1]
  alone : ¬ (heldAfter (heldAtStart boards) before).AltDown →
    (after triggers boards (before ++ [(board, .key key 1)])).daemon.lines =
        (after triggers boards before).daemon.lines ++ [⟨label, true⟩] ∧
      (after triggers boards (before ++ [(board, .key key 1)])).forwarded =
        (after triggers boards before).forwarded

/-- The virtual keyboard and the launcher see whole presses. -/
structure Balanced (triggers : TriggerSet) (boards : List (List BoardKey))
    (events : List (Nat × InputEvent)) : Prop where
  alternates : ∀ key label, triggers.labelForCode key = some label →
    ∃ down, replay false (values key (after triggers boards events).forwarded) = some down ∧
      (¬ (heldAfter (heldAtStart boards) events).Down key → down = false)
  told : ∀ key label, triggers.labelForCode key = some label →
    ¬ (heldAfter (heldAtStart boards) events).Down key →
    (∃ board value, value ≠ 2 ∧ (board, .key key value) ∈ events) →
      lastTold label (after triggers boards events).daemon.lines = some false
  others : (after triggers boards events).forwarded.filter (fun event => !isTrigger triggers event) =
    (events.map Prod.snd).filter (fun event => !isTrigger triggers event)
  presses : ∀ before board key label rest, events = before ++ (board, .key key 1) :: rest →
    triggers.labelForCode key = some label → Pressed triggers boards before board key label

/-- Whenever a trigger goes down with Alt, one of the Alt keys was not released since it was last
pressed, on any keyboard. -/
def AltRemembered (triggers : TriggerSet) (boards : List (List BoardKey))
    (events : List (Nat × InputEvent)) : Prop :=
  ∀ before board key label rest, events = before ++ (board, .key key 1) :: rest →
    triggers.labelForCode key = some label →
    (heldAfter (heldAtStart boards) before).AltDown →
      lastPressed boards .leftAlt before = true ∨ lastPressed boards .rightAlt before = true

/-! ## What the daemon does with a trigger -/

/-- The keys passed through, the lines and what is written, after a trigger of this value. -/
inductive Treats (d : Daemon) (key : BoardKey) (label : String) :
    Int → Finset BoardKey → List TriggerLine → List InputEvent → Prop
  | combined (alt : d.altHeld = true) (fresh : key ∉ d.altPassthroughKeys) :
      Treats d key label 1 (insert key d.altPassthroughKeys) (d.lines ++ [⟨label, false⟩])
        [.key key 1]
  | joined (alt : d.altHeld = true) (there : key ∈ d.altPassthroughKeys) :
      Treats d key label 1 d.altPassthroughKeys (d.lines ++ [⟨label, false⟩]) []
  | started (alone : d.altHeld = false) :
      Treats d key label 1 d.altPassthroughKeys (d.lines ++ [⟨label, true⟩]) []
  | repeated (there : key ∈ d.altPassthroughKeys) :
      Treats d key label 2 d.altPassthroughKeys d.lines [.key key 2]
  | ignored (absent : key ∉ d.altPassthroughKeys) :
      Treats d key label 2 d.altPassthroughKeys d.lines []
  | freed (there : key ∈ d.altPassthroughKeys) :
      Treats d key label 0 (d.altPassthroughKeys.erase key) d.lines [.key key 0]
  | ended (absent : key ∉ d.altPassthroughKeys) :
      Treats d key label 0 d.altPassthroughKeys (d.lines ++ [⟨label, false⟩]) []

section Treats

variable {d : Daemon} {key : BoardKey} {label : String}

theorem handleTrigger_down : ∃ keys lines out, Treats d key label 1 keys lines out ∧
    handleTrigger label key 1 d = ({ d with altPassthroughKeys := keys, lines }, out) := by
  unfold handleTrigger triggerUsesAltPassthrough
  cases alt : d.altHeld with
  | true =>
    by_cases there : key ∈ d.altPassthroughKeys
    · refine ⟨_, _, _, .joined alt there, ?_⟩
      simp [there, Daemon.emitJson]
    · refine ⟨_, _, _, .combined alt there, ?_⟩
      simp [there, Daemon.emitJson]
  | false =>
    refine ⟨_, _, _, .started alt, ?_⟩
    simp [Daemon.emitJson]

theorem handleTrigger_again : ∃ keys lines out, Treats d key label 2 keys lines out ∧
    handleTrigger label key 2 d = ({ d with altPassthroughKeys := keys, lines }, out) := by
  unfold handleTrigger triggerUsesAltPassthrough
  by_cases there : key ∈ d.altPassthroughKeys
  · refine ⟨_, _, _, .repeated there, ?_⟩
    simp [there]
  · refine ⟨_, _, _, .ignored there, ?_⟩
    simp [there]

theorem handleTrigger_up : ∃ keys lines out, Treats d key label 0 keys lines out ∧
    handleTrigger label key 0 d = ({ d with altPassthroughKeys := keys, lines }, out) := by
  unfold handleTrigger triggerUsesAltPassthrough
  by_cases there : key ∈ d.altPassthroughKeys
  · refine ⟨_, _, _, .freed there, ?_⟩
    simp [there]
  · refine ⟨_, _, _, .ended there, ?_⟩
    simp [there, Daemon.emitJson]

/-- Whatever the value: Alt stays as it was, lines with the label are added, the event is passed on
or not. -/
theorem handleTrigger_shape (label : String) (key : BoardKey) (value : Int) (d : Daemon) :
    ∃ keys more, (handleTrigger label key value d).1 =
        { d with altPassthroughKeys := keys, lines := d.lines ++ more } ∧
      (∀ line ∈ more, line.key = label) ∧
      ((handleTrigger label key value d).2 = [] ∨
        (handleTrigger label key value d).2 = [.key key value]) := by
  unfold handleTrigger
  dsimp only
  split
  · split
    · exact ⟨_, [⟨label, false⟩], rfl, by simp, .inr rfl⟩
    · exact ⟨_, [], by rw [List.append_nil], by simp, .inr rfl⟩
  split
  · exact ⟨_, [⟨label, !d.altHeld⟩], rfl, by simp, .inl rfl⟩
  split
  · exact ⟨_, [⟨label, false⟩], rfl, by simp, .inl rfl⟩
  · exact ⟨_, [], by rw [List.append_nil], by simp, .inl rfl⟩

end Treats

section Labels

variable {triggers : TriggerSet} {key other : BoardKey} {label : String}

theorem labelForCode_some (named : triggers.labelForCode key = some label) :
    ∃ code, key = .code code ∧ keyLabelToKeycode label = some code := by
  cases key with
  | code code => exact ⟨code, rfl, triggers.known code label named⟩
  | _ => cases named

/-- A label has one key. -/
theorem key_of_label (named : triggers.labelForCode key = some label)
    (named' : triggers.labelForCode other = some label) : other = key := by
  obtain ⟨code, rfl, known⟩ := labelForCode_some named
  obtain ⟨code', rfl, known'⟩ := labelForCode_some named'
  rw [known] at known'
  cases known'
  rfl

/-- No trigger is Alt. -/
theorem noteAlt_trigger (named : triggers.labelForCode key = some label) (value : Int) (d : Daemon) :
    d.noteAlt key value = d := by
  obtain ⟨code, rfl, -⟩ := labelForCode_some named
  rfl

end Labels

/-! ## What is seen of a key -/

section Seen

variable {key : BoardKey} {label : String}

theorem values_append (first second : List InputEvent) :
    values key (first ++ second) = values key first ++ values key second :=
  List.filterMap_append ..

theorem values_own (value : Int) : values key [.key key value] = [value] := by
  simp [values]

theorem values_other {other : BoardKey} (ne : other ≠ key) (value : Int) :
    values key [.key other value] = [] := by
  simp [values, ne]

/-- Nothing more is seen. -/
theorem values_none (shown : List Int) : shown ++ values key [] = shown := List.append_nil _

theorem replay_append (down : Bool) (first second : List Int) :
    replay down (first ++ second) = (replay down first).bind fun down => replay down second := by
  induction first generalizing down with
  | nil => rfl
  | cons value first ih =>
    rw [List.cons_append, replay, replay]
    split
    · split
      · rfl
      · exact ih true
    split
    · split
      · exact ih true
      · rfl
    split
    · split
      · exact ih false
      · rfl
    · rfl

theorem lastTold_own (lines : List TriggerLine) (held : Bool) :
    lastTold label (lines ++ [⟨label, held⟩]) = some held := by
  simp [lastTold]

theorem lastTold_other {other : String} (ne : other ≠ label) (lines : List TriggerLine)
    (held : Bool) : lastTold label (lines ++ [⟨other, held⟩]) = lastTold label lines := by
  simp [lastTold, ne]

theorem lastTold_stays {lines : List TriggerLine} (told : lastTold label lines ≠ none)
    (more : List TriggerLine) : lastTold label (lines ++ more) ≠ none := by
  unfold lastTold at told ⊢
  rw [List.filterMap_append]
  intro never
  apply told
  rw [List.getLast?_eq_none_iff] at never ⊢
  exact (List.append_eq_nil_iff.mp never).1

end Seen

/-! ## What is kept of a trigger -/

/-- Of one trigger: the keyboards it is down on, whether it is passed through, what the virtual
keyboard has seen of it and what the launcher was told last. -/
structure Kept (held : Nat → Bool) (passing : Bool) (shown : List Int) (told : Option Bool) :
    Prop where
  passed : passing = true → ∃ board, held board = true
  replayed : replay false shown = some passing
  heard : passing = true → told ≠ none
  owed : told = some true → ∃ board, held board = true ∧
    (passing = true → ∃ other, other ≠ board ∧ held other = true)

namespace Kept

variable {held : Nat → Bool} {passing : Bool} {shown : List Int} {told : Option Bool} {board : Nat}

theorem combined (kept : Kept held false shown told) :
    Kept (Function.update held board true) true (shown ++ [1]) (some false) where
  passed _ := ⟨board, Function.update_self ..⟩
  replayed := by
    rw [replay_append, kept.replayed]
    rfl
  heard _ := Option.some_ne_none _
  owed never := by cases never

theorem joined (kept : Kept held true shown told) :
    Kept (Function.update held board true) true shown (some false) where
  passed _ := ⟨board, Function.update_self ..⟩
  replayed := kept.replayed
  heard _ := Option.some_ne_none _
  owed never := by cases never

/-- A second keyboard: the one that is passed through has the key down as well. -/
theorem started (kept : Kept held passing shown told) (up : held board = false) :
    Kept (Function.update held board true) passing shown (some true) where
  passed _ := ⟨board, Function.update_self ..⟩
  replayed := kept.replayed
  heard _ := Option.some_ne_none _
  owed _ := by
    refine ⟨board, Function.update_self .., fun passes => ?_⟩
    obtain ⟨other, down⟩ := kept.passed passes
    have ne : other ≠ board := by
      intro same
      rw [same, up] at down
      cases down
    exact ⟨other, ne, by rw [Function.update_of_ne ne, down]⟩

theorem repeated (kept : Kept held true shown told) : Kept held true (shown ++ [2]) told where
  passed := kept.passed
  replayed := by
    rw [replay_append, kept.replayed]
    rfl
  heard := kept.heard
  owed := kept.owed

/-- What was told is told by the release on another keyboard. -/
theorem freed (kept : Kept held true shown told) :
    Kept (Function.update held board false) false (shown ++ [0]) told where
  passed never := by cases never
  replayed := by
    rw [replay_append, kept.replayed]
    rfl
  heard never := by cases never
  owed started := by
    obtain ⟨first, down, more⟩ := kept.owed started
    obtain ⟨second, ne, down'⟩ := more rfl
    by_cases same : first = board
    · refine ⟨second, ?_, fun never => by cases never⟩
      rw [Function.update_of_ne (fun same' => ne (same'.trans same.symm)), down']
    · refine ⟨first, ?_, fun never => by cases never⟩
      rw [Function.update_of_ne same, down]

theorem ended (kept : Kept held false shown told) :
    Kept (Function.update held board false) false shown (some false) where
  passed never := by cases never
  replayed := kept.replayed
  heard never := by cases never
  owed never := by cases never

end Kept

/-! ## Runs -/

section Runs

variable {triggers : TriggerSet} {boards : List (List BoardKey)} {events : List (Nat × InputEvent)}

theorem heldAfter_append (held : Held) (board : Nat) (event : InputEvent) :
    heldAfter held (events ++ [(board, event)]) = (heldAfter held events).press board event :=
  List.foldl_concat ..

theorem press_own (held : Held) (board : Nat) (key : BoardKey) (value : Int) :
    (fun other => held.press board (.key key value) other key) =
      Function.update (fun other => held other key) board (decide (value ≠ 0)) := by
  funext other
  by_cases same : other = board
  · simp [Held.press, same]
  · simp [Held.press, same]

theorem press_other (held : Held) (board : Nat) {key other : BoardKey} (ne : key ≠ other)
    (value : Int) :
    (fun board' => held.press board (.key other value) board' key) = fun board' => held board' key := by
  funext board'
  simp [Held.press, ne]

theorem WellFormed.before {held : Held} {first second : List (Nat × InputEvent)}
    (formed : WellFormed held (first ++ second)) : WellFormed held first := by
  induction second using List.reverseRecOn with
  | nil => rwa [List.append_nil] at formed
  | append_singleton second event ih =>
    apply ih
    rw [← List.append_assoc] at formed
    generalize whole : first ++ second ++ [event] = all at formed
    cases formed with
    | nil => simp at whole
    | concat before _ =>
      obtain ⟨same, -⟩ := List.append_inj' whole rfl
      rwa [same]

/-! ### Alt -/

theorem lastPressed_append (key : BoardKey) (board : Nat) (event : InputEvent) :
    lastPressed boards key (events ++ [(board, event)]) =
      match event with
      | .key k value => if k = key then decide (value ≠ 0) else lastPressed boards key events
      | .other .. => lastPressed boards key events := by
  unfold lastPressed
  rw [List.foldl_concat]

theorem anyAltHeld_eq : anyAltHeld boards = (codeHeld boards .leftAlt || codeHeld boards .rightAlt) := by
  unfold anyAltHeld codeHeld
  induction boards with
  | nil => rfl
  | cons keys boards ih =>
    rw [List.any_cons, List.any_cons, List.any_cons, ih]
    ac_rfl

/-- The daemon remembers the last event of each Alt key. -/
structure Remembered (boards : List (List BoardKey)) (events : List (Nat × InputEvent))
    (d : Daemon) : Prop where
  left : d.leftAltHeld = lastPressed boards .leftAlt events
  right : d.rightAltHeld = lastPressed boards .rightAlt events
  alt : d.altHeld = (lastPressed boards .leftAlt events || lastPressed boards .rightAlt events)

theorem Remembered.note {d : Daemon} (remembered : Remembered boards events d) (board : Nat)
    (key : BoardKey) (value : Int) :
    Remembered boards (events ++ [(board, .key key value)]) (d.noteAlt key value) := by
  unfold Daemon.noteAlt
  by_cases left : key = .leftAlt
  · subst left
    constructor
    · rw [lastPressed_append]
      rfl
    · rw [lastPressed_append]
      exact remembered.right
    · rw [lastPressed_append, lastPressed_append, if_pos rfl, remembered.right]
      rfl
  by_cases right : key = .rightAlt
  · subst right
    constructor
    · rw [lastPressed_append]
      exact remembered.left
    · rw [lastPressed_append]
      rfl
    · rw [lastPressed_append, lastPressed_append, if_neg left, if_pos rfl, remembered.left]
      rfl
  · rw [if_neg left, if_neg right]
    constructor
    · rw [lastPressed_append, remembered.left]
      exact (if_neg left).symm
    · rw [lastPressed_append, remembered.right]
      exact (if_neg right).symm
    · rw [lastPressed_append, lastPressed_append, remembered.alt]
      dsimp only
      rw [if_neg left, if_neg right]

theorem remembered (triggers : TriggerSet) (boards : List (List BoardKey))
    (events : List (Nat × InputEvent)) :
    Remembered boards events (after triggers boards events).daemon := by
  induction events using List.reverseRecOn with
  | nil => exact ⟨rfl, rfl, anyAltHeld_eq⟩
  | append_singleton events event ih =>
    obtain ⟨board, event⟩ := event
    rw [after_append]
    cases event with
    | key key value =>
      have noted := ih.note board key value
      dsimp only [feed, handleEvent]
      split
      next label named =>
        obtain ⟨keys, more, same, -⟩ := handleTrigger_shape label key value
          ((after triggers boards events).daemon.noteAlt key value)
        rw [same]
        exact ⟨noted.left, noted.right, noted.alt⟩
      next => exact noted
    | other kind code value =>
      constructor
      · rw [lastPressed_append]
        exact ih.left
      · rw [lastPressed_append]
        exact ih.right
      · rw [lastPressed_append, lastPressed_append]
        exact ih.alt

/-- A key that was pressed last is down on the keyboard that pressed it. -/
theorem down_of_lastPressed (formed : WellFormed (heldAtStart boards) events) {key : BoardKey}
    (pressed : lastPressed boards key events = true) :
    (heldAfter (heldAtStart boards) events).Down key := by
  induction formed with
  | nil =>
    obtain ⟨keys, mem, down⟩ := List.any_eq_true.mp pressed
    obtain ⟨board, there, rfl⟩ := List.getElem_of_mem mem
    refine ⟨board, ?_⟩
    show (boards.getD board []).contains key = true
    rw [List.getD_eq_getElem?_getD, List.getElem?_eq_getElem there]
    exact down
  | @concat events board event before legal ih =>
    rw [lastPressed_append] at pressed
    rw [heldAfter_append]
    cases event with
    | key k value =>
      dsimp only at pressed
      split at pressed
      next same =>
        subst same
        refine ⟨board, ?_⟩
        simpa [Held.press] using pressed
      next ne =>
        obtain ⟨board', down⟩ := ih pressed
        refine ⟨board', ?_⟩
        rw [← down]
        exact congrFun (press_other _ board (Ne.symm ne) value) board'
    | other kind code value => exact ih pressed

/-! ### Triggers -/

/-- What the loop has kept of a trigger after these events. -/
def KeptAfter (triggers : TriggerSet) (boards : List (List BoardKey))
    (events : List (Nat × InputEvent)) (key : BoardKey) (label : String) : Prop :=
  Kept (fun board => heldAfter (heldAtStart boards) events board key)
    (decide (key ∈ (after triggers boards events).daemon.altPassthroughKeys))
    (values key (after triggers boards events).forwarded)
    (lastTold label (after triggers boards events).daemon.lines)

theorem keptAfter_nil {key : BoardKey} {label : String} : KeptAfter triggers boards [] key label where
  passed never := by simp [after, start] at never
  replayed := by simp [after, start, values, replay]
  heard never := by simp [after, start] at never
  owed never := by simp [after, start, lastTold] at never

/-- What the loop does on an event of a trigger. -/
theorem after_trigger {board : Nat} {key : BoardKey} {label : String}
    (named : triggers.labelForCode key = some label)
    (legal : Legal (heldAfter (heldAtStart boards) events) board (.key key value)) :
    ∃ keys lines out, Treats (after triggers boards events).daemon key label value keys lines out ∧
      after triggers boards (events ++ [(board, .key key value)]) =
        ⟨{ (after triggers boards events).daemon with altPassthroughKeys := keys, lines },
          (after triggers boards events).forwarded ++ out⟩ := by
  rw [after_append]
  unfold feed handleEvent
  dsimp only
  rw [noteAlt_trigger named, named]
  dsimp only
  cases legal with
  | down up =>
    obtain ⟨keys, lines, out, treats, same⟩ :=
      @handleTrigger_down (after triggers boards events).daemon key label
    exact ⟨keys, lines, out, treats, by rw [same]⟩
  | again down =>
    obtain ⟨keys, lines, out, treats, same⟩ :=
      @handleTrigger_again (after triggers boards events).daemon key label
    exact ⟨keys, lines, out, treats, by rw [same]⟩
  | up down =>
    obtain ⟨keys, lines, out, treats, same⟩ :=
      @handleTrigger_up (after triggers boards events).daemon key label
    exact ⟨keys, lines, out, treats, by rw [same]⟩

theorem KeptAfter.own {board : Nat} {key : BoardKey} {label : String} {value : Int}
    (kept : KeptAfter triggers boards events key label)
    (named : triggers.labelForCode key = some label)
    (legal : Legal (heldAfter (heldAtStart boards) events) board (.key key value)) :
    KeptAfter triggers boards (events ++ [(board, .key key value)]) key label := by
  obtain ⟨keys, lines, out, treats, same⟩ := after_trigger named legal
  unfold KeptAfter at kept ⊢
  rw [same, heldAfter_append, press_own]
  dsimp only
  rw [values_append]
  cases treats with
  | combined alt fresh =>
    rw [decide_eq_false fresh] at kept
    rw [values_own, lastTold_own, decide_eq_true (Finset.mem_insert_self ..)]
    exact kept.combined
  | joined alt there =>
    rw [decide_eq_true there] at kept ⊢
    rw [lastTold_own]
    rw [values_none]
    exact kept.joined
  | started alone =>
    cases legal with
    | down up =>
      rw [lastTold_own]
      rw [values_none]
      exact kept.started up
  | repeated there =>
    cases legal with
    | again down =>
      rw [decide_eq_true there] at kept ⊢
      rw [values_own, Function.update_eq_self_iff.mpr down.symm]
      exact kept.repeated
  | ignored absent =>
    cases legal with
    | again down =>
      rw [Function.update_eq_self_iff.mpr down.symm]
      rw [values_none]
      exact kept
  | freed there =>
    rw [decide_eq_true there] at kept
    rw [values_own, decide_eq_false (Finset.notMem_erase key _)]
    exact kept.freed
  | ended absent =>
    rw [decide_eq_false absent] at kept ⊢
    rw [lastTold_own]
    rw [values_none]
    exact kept.ended

/-- An event of another key changes nothing of this one. -/
theorem KeptAfter.other {board : Nat} {key other : BoardKey} {label : String} {value : Int}
    (kept : KeptAfter triggers boards events key label)
    (named : triggers.labelForCode key = some label) (ne : other ≠ key)
    (legal : Legal (heldAfter (heldAtStart boards) events) board (.key other value)) :
    KeptAfter triggers boards (events ++ [(board, .key other value)]) key label := by
  unfold KeptAfter at kept ⊢
  rw [heldAfter_append, press_other _ board (Ne.symm ne)]
  cases named' : triggers.labelForCode other with
  | none =>
    have passed : after triggers boards (events ++ [(board, .key other value)]) =
        ⟨(after triggers boards events).daemon.noteAlt other value,
          (after triggers boards events).forwarded ++ [.key other value]⟩ := by
      rw [after_append]
      unfold feed handleEvent
      dsimp only
      rw [named']
    rw [passed]
    dsimp only
    rw [values_append, values_other ne, List.append_nil]
    unfold Daemon.noteAlt
    split
    · exact kept
    split
    · exact kept
    · exact kept
  | some label' =>
    obtain ⟨keys, lines, out, treats, same⟩ := after_trigger named' legal
    have ne' : label' ≠ label := by
      intro same
      rw [same] at named'
      exact ne (key_of_label named named')
    have there : key ∈ keys ↔ key ∈ (after triggers boards events).daemon.altPassthroughKeys := by
      cases treats with
      | combined alt fresh => exact ⟨fun mem => Finset.mem_of_mem_insert_of_ne mem (Ne.symm ne),
          Finset.mem_insert_of_mem⟩
      | freed there => exact ⟨Finset.mem_of_mem_erase, Finset.mem_erase_of_ne_of_mem (Ne.symm ne)⟩
      | _ => rfl
    have told : lastTold label lines =
        lastTold label (after triggers boards events).daemon.lines := by
      cases treats with
      | repeated | ignored | freed => rfl
      | _ => exact lastTold_other ne' ..
    have unseen : values key out = [] := by
      cases treats with
      | combined | repeated | freed => exact values_other ne _
      | _ => rfl
    rw [same]
    dsimp only
    rw [values_append, unseen, List.append_nil, told, decide_eq_decide.mpr there]
    exact kept

theorem keptAfter (formed : WellFormed (heldAtStart boards) events) {key : BoardKey} {label : String}
    (named : triggers.labelForCode key = some label) : KeptAfter triggers boards events key label := by
  induction formed with
  | nil => exact keptAfter_nil
  | @concat events board event before legal ih =>
    cases event with
    | key other value =>
      by_cases same : other = key
      · subst same
        exact ih.own named legal
      · exact ih.other named same legal
    | other kind code value =>
      unfold KeptAfter at ih ⊢
      rw [after_append, heldAfter_append]
      unfold feed handleEvent
      dsimp only
      rw [values_append]
      exact (@values_none key _).symm ▸ ih

/-- What was told stays told, and only triggers are told of. -/
theorem lines_grow (board : Nat) (event : InputEvent) :
    ∃ more, (after triggers boards (events ++ [(board, event)])).daemon.lines =
        (after triggers boards events).daemon.lines ++ more ∧
      ∀ line ∈ more, (keyLabelToKeycode line.key).isSome := by
  rw [after_append]
  cases event with
  | key key value =>
    have noted : ((after triggers boards events).daemon.noteAlt key value).lines =
        (after triggers boards events).daemon.lines := by
      unfold Daemon.noteAlt
      split
      · rfl
      split
      · rfl
      · rfl
    unfold feed handleEvent
    dsimp only
    split
    next label named =>
      obtain ⟨keys, more, same, labelled, -⟩ := handleTrigger_shape label key value
        ((after triggers boards events).daemon.noteAlt key value)
      refine ⟨more, by rw [same, noted], fun line mem => ?_⟩
      obtain ⟨code, -, known⟩ := labelForCode_some named
      rw [labelled line mem, known]
      rfl
    next => exact ⟨[], by rw [List.append_nil, noted], by simp⟩
  | other kind code value => exact ⟨[], (List.append_nil _).symm, by simp⟩

/-- The launcher reads labels that name a key. -/
theorem lines_known (triggers : TriggerSet) (boards : List (List BoardKey))
    (events : List (Nat × InputEvent)) :
    ∀ line ∈ (after triggers boards events).daemon.lines, (keyLabelToKeycode line.key).isSome := by
  induction events using List.reverseRecOn with
  | nil =>
    intro line mem
    cases mem
  | append_singleton events event ih =>
    obtain ⟨more, grown, known⟩ := @lines_grow triggers boards events event.1 event.2
    intro line mem
    rw [grown] at mem
    rcases List.mem_append.mp mem with earlier | later
    · exact ih line earlier
    · exact known line later

/-- A trigger that was pressed or released has been told of. -/
theorem told_of_event (formed : WellFormed (heldAtStart boards) events) {key : BoardKey}
    {label : String} (named : triggers.labelForCode key = some label) {board : Nat} {value : Int}
    (ne : value ≠ 2) (mem : (board, .key key value) ∈ events) :
    lastTold label (after triggers boards events).daemon.lines ≠ none := by
  induction formed with
  | nil => cases mem
  | @concat events board' event before legal ih =>
    rcases List.mem_append.mp mem with earlier | last
    · obtain ⟨more, grown, -⟩ := @lines_grow triggers boards events board' event
      rw [grown]
      exact lastTold_stays (ih earlier) more
    · cases List.mem_singleton.mp last
      obtain ⟨keys, lines, out, treats, same⟩ := after_trigger named legal
      rw [same]
      cases treats with
      | combined | joined | started | ended =>
        dsimp only
        rw [lastTold_own]
        exact Option.some_ne_none _
      | repeated | ignored => exact absurd rfl ne
      | freed there => exact (keptAfter before named).heard (decide_eq_true there)

/-! ### What is no trigger -/

theorem others_forwarded (triggers : TriggerSet) (boards : List (List BoardKey))
    (events : List (Nat × InputEvent)) :
    (after triggers boards events).forwarded.filter (fun event => !isTrigger triggers event) =
      (events.map Prod.snd).filter (fun event => !isTrigger triggers event) := by
  induction events using List.reverseRecOn with
  | nil => rfl
  | append_singleton events event ih =>
    obtain ⟨board, event⟩ := event
    rw [after_append, List.map_append, List.filter_append]
    show List.filter _ (_ ++ _) = _
    rw [List.filter_append, ih]
    congr 1
    cases event with
    | key key value =>
      unfold handleEvent
      dsimp only
      split
      next label named =>
        have hidden : [InputEvent.key key value].filter (fun event => !isTrigger triggers event) = [] := by
          simp [isTrigger, named]
        obtain ⟨keys, more, -, -, quiet | passed⟩ := handleTrigger_shape label key value
          ((after triggers boards events).daemon.noteAlt key value)
        · rw [quiet]
          exact hidden.symm
        · rw [passed]
          rfl
      next => rfl
    | other kind code value => rfl

/-! ### Presses -/

section Presses

variable {board : Nat} {key : BoardKey} {label : String}

/-- With Alt remembered, the trigger is passed through. -/
theorem press_combined (formed : WellFormed (heldAtStart boards) events)
    (named : triggers.labelForCode key = some label)
    (legal : Legal (heldAfter (heldAtStart boards) events) board (.key key 1))
    (alt : (after triggers boards events).daemon.altHeld = true) :
    (after triggers boards (events ++ [(board, .key key 1)])).daemon.lines =
        (after triggers boards events).daemon.lines ++ [⟨label, false⟩] ∧
      (after triggers boards (events ++ [(board, .key key 1)])).forwarded =
        (after triggers boards events).forwarded ++
          if replay false (values key (after triggers boards events).forwarded) = some true then []
          else [.key key 1] := by
  obtain ⟨keys, lines, out, treats, same⟩ := after_trigger named legal
  rw [same, (keptAfter formed named).replayed]
  cases treats with
  | combined _ fresh => exact ⟨rfl, by rw [decide_eq_false fresh, if_neg (by decide)]⟩
  | joined _ there => exact ⟨rfl, by rw [decide_eq_true there, if_pos rfl]⟩
  | started alone =>
    rw [alone] at alt
    cases alt

/-- Without, the launcher is told to start. -/
theorem press_started (named : triggers.labelForCode key = some label)
    (legal : Legal (heldAfter (heldAtStart boards) events) board (.key key 1))
    (alone : (after triggers boards events).daemon.altHeld = false) :
    (after triggers boards (events ++ [(board, .key key 1)])).daemon.lines =
        (after triggers boards events).daemon.lines ++ [⟨label, true⟩] ∧
      (after triggers boards (events ++ [(board, .key key 1)])).forwarded =
        (after triggers boards events).forwarded := by
  obtain ⟨keys, lines, out, treats, same⟩ := after_trigger named legal
  rw [same]
  cases treats with
  | started _ => exact ⟨rfl, List.append_nil _⟩
  | combined alt _ | joined alt _ =>
    rw [alone] at alt
    cases alt

/-- The daemon's Alt is one of those that were not released since. -/
theorem altHeld_iff : (after triggers boards events).daemon.altHeld = true ↔
    lastPressed boards .leftAlt events = true ∨ lastPressed boards .rightAlt events = true := by
  rw [(remembered triggers boards events).alt, Bool.or_eq_true]

theorem altDown_of_altHeld (formed : WellFormed (heldAtStart boards) events)
    (alt : (after triggers boards events).daemon.altHeld = true) :
    (heldAfter (heldAtStart boards) events).AltDown := by
  rcases altHeld_iff.mp alt with left | right
  · exact .inl (down_of_lastPressed formed left)
  · exact .inr (down_of_lastPressed formed right)

theorem WellFormed.legal {held : Held} {before rest : List (Nat × InputEvent)} {event : InputEvent}
    (formed : WellFormed held (before ++ (board, event) :: rest)) :
    Legal (heldAfter held before) board event := by
  rw [List.append_cons] at formed
  have formed := formed.before
  generalize whole : before ++ [(board, event)] = all at formed
  cases formed with
  | nil => simp at whole
  | concat _ legal =>
    obtain ⟨rfl, last⟩ := List.append_inj' whole rfl
    cases last
    exact legal

end Presses

/-- One press of a trigger is seen as it should be if and only if Alt, where it is down, is
remembered. -/
theorem pressed_iff {before rest : List (Nat × InputEvent)} {board : Nat} {key : BoardKey}
    {label : String}
    (formed : WellFormed (heldAtStart boards) (before ++ (board, .key key 1) :: rest))
    (named : triggers.labelForCode key = some label) :
    Pressed triggers boards before board key label ↔
      ((heldAfter (heldAtStart boards) before).AltDown →
        lastPressed boards .leftAlt before = true ∨ lastPressed boards .rightAlt before = true) := by
  have legal := formed.legal
  have formed := formed.before
  constructor
  · intro pressed down
    rw [← @altHeld_iff triggers]
    by_contra alone
    have started := press_started named legal (Bool.eq_false_iff.mpr alone)
    have combined := pressed.withAlt down
    rw [started.1] at combined
    have same := List.append_cancel_left combined.1
    cases same
  · intro alt
    constructor
    · intro down
      exact press_combined formed named legal (altHeld_iff.mpr (alt down))
    · intro up
      apply press_started named legal
      rw [Bool.eq_false_iff]
      intro held
      exact up (altDown_of_altHeld formed held)

theorem balanced_iff (formed : WellFormed (heldAtStart boards) events) :
    Balanced triggers boards events ↔ AltRemembered triggers boards events := by
  constructor
  · intro balanced before board key label rest cut named
    subst cut
    exact (pressed_iff formed named).mp (balanced.presses before board key label rest rfl named)
  · intro alt
    constructor
    · intro key label named
      have kept := keptAfter formed named
      refine ⟨_, kept.replayed, fun up => ?_⟩
      rw [Bool.eq_false_iff]
      intro passing
      exact up (kept.passed passing)
    · intro key label named up heard
      obtain ⟨board, value, ne, mem⟩ := heard
      have told := told_of_event formed named ne mem
      have kept := keptAfter formed named
      cases last : lastTold label (after triggers boards events).daemon.lines with
      | none => exact absurd last told
      | some held =>
        cases held with
        | false => rfl
        | true =>
          obtain ⟨board, down, -⟩ := kept.owed last
          exact absurd ⟨board, down⟩ up
    · exact others_forwarded triggers boards events
    · intro before board key label rest cut named
      subst cut
      exact (pressed_iff formed named).mpr (alt before board key label rest rfl named)

end Runs

/-- However the keyboards interleave and the events are cut into reads: the virtual keyboard and the
launcher see whole presses if and only if Alt, where it is down with a trigger, was not released on
any keyboard since it was last pressed. -/
theorem passthrough_balanced_iff (triggers : TriggerSet) (boards : List (List BoardKey))
    (reads : List (Nat × List InputEvent))
    (formed : WellFormed (heldAtStart boards) (arrivals reads)) :
    eventLoop triggers reads (start boards) = after triggers boards (arrivals reads) ∧
      (Balanced triggers boards (arrivals reads) ↔ AltRemembered triggers boards (arrivals reads)) :=
  ⟨eventLoop_eq reads, balanced_iff formed⟩

/-! ### Two keyboards -/

/-- Alt goes down on both, up on the first, and then the trigger goes down on the second. -/
def twoAlts : List (Nat × List InputEvent) :=
  [(0, [.key .leftAlt 1]), (1, [.key .leftAlt 1]), (0, [.key .leftAlt 0]), (1, [.key (.code .keyF1) 1])]

theorem twoAlts_wellFormed : WellFormed (heldAtStart [[], []]) (arrivals twoAlts) := by
  have first : WellFormed (heldAtStart [[], []]) ([] ++ [(0, .key .leftAlt 1)]) :=
    .concat .nil (.down rfl)
  have second := first.concat (.down rfl : Legal _ 1 (.key .leftAlt 1))
  have third := second.concat (.up rfl : Legal _ 0 (.key .leftAlt 0))
  exact third.concat (.down rfl : Legal _ 1 (.key (.code .keyF1) 1))

/-- With a single keyboard the whole press is seen. -/
theorem passthrough_balanced_alone :
    WellFormed (heldAtStart [[]]) (arrivals [(0, [.key .leftAlt 1]), (0, [.key (.code .keyF1) 1])]) ∧
      eventLoop (.ofLabels ["F1"]) [(0, [.key .leftAlt 1]), (0, [.key (.code .keyF1) 1])]
          (start [[]]) =
        after (.ofLabels ["F1"]) [[]] [(0, .key .leftAlt 1), (0, .key (.code .keyF1) 1)] ∧
      (Balanced (.ofLabels ["F1"]) [[]] [(0, .key .leftAlt 1), (0, .key (.code .keyF1) 1)] ↔
        AltRemembered (.ofLabels ["F1"]) [[]] [(0, .key .leftAlt 1), (0, .key (.code .keyF1) 1)]) := by
  have formed : WellFormed (heldAtStart [[]])
      (arrivals [(0, [.key .leftAlt 1]), (0, [.key (.code .keyF1) 1])]) := by
    have first : WellFormed (heldAtStart [[]]) ([] ++ [(0, .key .leftAlt 1)]) :=
      .concat .nil (.down rfl)
    exact first.concat (.down rfl : Legal _ 0 (.key (.code .keyF1) 1))
  exact ⟨formed, passthrough_balanced_iff _ _ _ formed⟩

theorem twoAlts_trigger :
    (TriggerSet.ofLabels ["F1"]).labelForCode (.code .keyF1) = some "F1" := by decide +kernel

/-- The launcher is told to start while Alt is down on the second keyboard. -/
theorem passthrough_forgets_alt :
    WellFormed (heldAtStart [[], []]) (arrivals twoAlts) ∧
      ¬ Balanced (.ofLabels ["F1"]) [[], []] (arrivals twoAlts) := by
  refine ⟨twoAlts_wellFormed, ?_⟩
  rw [balanced_iff twoAlts_wellFormed]
  intro remembered
  have forgotten := remembered
    [(0, .key .leftAlt 1), (1, .key .leftAlt 1), (0, .key .leftAlt 0)] 1 (.code .keyF1) "F1" [] rfl
    twoAlts_trigger (.inl ⟨1, rfl⟩)
  rcases forgotten with left | right
  · cases left
  · cases right

end RoLauncher.Input.Passthrough
