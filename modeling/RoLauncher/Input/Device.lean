import Mathlib.Data.List.Basic

/-!
# The combat device (`combat_uinput.rs`, `keyboard.rs`)

One virtual device takes the key and button events of all commands, in the
order of its writes. Each write carries the command that made it. A write may
fail before the device has taken its event, and after: `emit` ends every event
with a report, which is a write of its own.
-/

namespace RoLauncher.Input

/-! ## Keys -/

inductive KeyCode where
  | keyF1 | keyF2 | keyF3 | keyF4 | keyF5 | keyF6
  | keyF7 | keyF8 | keyF9 | keyF10 | keyF11 | keyF12
  | key1 | key2 | key3 | key4 | key5 | key6 | key7 | key8 | key9 | key0
  | keyQ | keyW | keyE | keyR | keyT | keyY | keyU | keyI | keyO | keyP
  | keyA | keyS | keyD | keyF | keyG | keyH | keyJ | keyK | keyL
  | keyZ | keyX | keyC | keyV | keyB | keyN | keyM
  | keyLeftShift
  | btnLeft
  deriving DecidableEq, Repr

def keyLabels : List (String × KeyCode) :=
  [("F1", .keyF1), ("F2", .keyF2), ("F3", .keyF3), ("F4", .keyF4), ("F5", .keyF5), ("F6", .keyF6),
    ("F7", .keyF7), ("F8", .keyF8), ("F9", .keyF9), ("F10", .keyF10), ("F11", .keyF11),
    ("F12", .keyF12), ("1", .key1), ("2", .key2), ("3", .key3), ("4", .key4), ("5", .key5),
    ("6", .key6), ("7", .key7), ("8", .key8), ("9", .key9), ("0", .key0), ("Q", .keyQ),
    ("W", .keyW), ("E", .keyE), ("R", .keyR), ("T", .keyT), ("Y", .keyY), ("U", .keyU),
    ("I", .keyI), ("O", .keyO), ("P", .keyP), ("A", .keyA), ("S", .keyS), ("D", .keyD),
    ("F", .keyF), ("G", .keyG), ("H", .keyH), ("J", .keyJ), ("K", .keyK), ("L", .keyL),
    ("Z", .keyZ), ("X", .keyX), ("C", .keyC), ("V", .keyV), ("B", .keyB), ("N", .keyN),
    ("M", .keyM)]

def toAsciiUppercase (label : String) : String := label.map Char.toUpper

def keyLabelToKeycode (label : String) : Option KeyCode := keyLabels.lookup (toAsciiUppercase label)

def eqIgnoreAsciiCase (a b : String) : Bool := toAsciiUppercase a == toAsciiUppercase b

inductive SpamModifier where
  | shift
  deriving DecidableEq, Repr

def SpamModifier.code : SpamModifier → KeyCode
  | .shift => .keyLeftShift

/-! ## Errors -/

structure IoError where
  errno : Option Int
  text : String
  deriving DecidableEq, Repr

inductive ToolsError where
  | other (message : String)
  | input (key : String) (message : String)
  deriving DecidableEq, Repr

def combatDeviceName : String := "ro-launcher-combat-input"

def errnoString (error : IoError) : String :=
  match error.errno with
  | some errno => toString errno
  | none => "none"

def uinputError (stage device : String) (error : IoError) : ToolsError :=
  .other s!"uinput stage={stage} device={device} errno={errnoString error}: {error.text}"

/-! ## Writes -/

/-- What becomes of an event that is written. -/
inductive Written where
  | accepted
  /-- The write fails, and the device has not taken the event. -/
  | lost (error : IoError)
  /-- The device has taken the event, and the write fails at its report. -/
  | late (error : IoError)
  deriving DecidableEq, Repr

def Written.taken : Written → Bool
  | .lost _ => false
  | _ => true

def Written.result : Written → Except IoError Unit
  | .accepted => .ok ()
  | .lost error | .late error => .error error

variable {γ : Type}

/-- One event that a command wrote. -/
structure Write (γ : Type) where
  command : Option γ
  code : KeyCode
  value : Int
  written : Written

/-- The device, what it answers to each of its writes, and the writes so far, the newest first. -/
structure CombatUinput (γ : Type) where
  pressedKeys : List KeyCode
  mouseLeftPressed : Bool
  outcomes : Nat → Written
  /-- The command that is executed. -/
  current : Option γ
  writes : List (Write γ)

def updateKeyState (pressed : List KeyCode) (code : KeyCode) (value : Int) : List KeyCode :=
  if value = 0 then pressed.filter (· ≠ code) else if value = 1 then pressed.insert code else pressed

namespace CombatUinput

def create (outcomes : Nat → Written) : CombatUinput γ := ⟨[], false, outcomes, none, []⟩

def emit (code : KeyCode) (value : Int) (d : CombatUinput γ) :
    Except IoError Unit × CombatUinput γ :=
  let written := d.outcomes d.writes.length
  (written.result, { d with writes := ⟨d.current, code, value, written⟩ :: d.writes })

def keycodeEvent (code : KeyCode) (value : Int) (d : CombatUinput γ) :
    Except ToolsError Unit × CombatUinput γ :=
  match d.emit code value with
  | (.ok (), d) => (.ok (), { d with pressedKeys := updateKeyState d.pressedKeys code value })
  | (.error e, d) => (.error (uinputError "write key" combatDeviceName e), d)

def keyEvent (key : String) (value : Int) (d : CombatUinput γ) :
    Except ToolsError Unit × CombatUinput γ :=
  match keyLabelToKeycode key with
  | none => (.error (.input key "tecla no soportada por uinput"), d)
  | some code => d.keycodeEvent code value

def modifierEvent (modifier : SpamModifier) (value : Int) (d : CombatUinput γ) :
    Except ToolsError Unit × CombatUinput γ := d.keycodeEvent modifier.code value

def mouseLeftEvent (value : Int) (d : CombatUinput γ) : Except ToolsError Unit × CombatUinput γ :=
  match d.emit .btnLeft value with
  | (.ok (), d) => (.ok (), { d with mouseLeftPressed := decide (value ≠ 0) })
  | (.error e, d) => (.error (uinputError "write button" combatDeviceName e), d)

/-- The keys of a list. The source walks a set of keys, whose order it does not know; here they
come in the order of `pressedKeys`, and what is proved of it holds for any list. -/
def releaseKeys : List KeyCode → CombatUinput γ → CombatUinput γ
  | [], d => d
  | code :: rest, d =>
    match d.emit code 0 with
    | (.ok (), d) => releaseKeys rest { d with pressedKeys := d.pressedKeys.filter (· ≠ code) }
    | (.error _, d) => releaseKeys rest d

def release (key : Option String) (mouseLeft : Bool) (d : CombatUinput γ) : CombatUinput γ :=
  let d := if mouseLeft || d.mouseLeftPressed then (d.mouseLeftEvent 0).2 else d
  match key with
  | some key => (d.keyEvent key 0).2
  | none => d.releaseKeys d.pressedKeys

end CombatUinput

/-! ## What a device operation writes -/

/-- The device has written some events of its current command, the last one first. -/
structure Wrote (P : Write γ → Prop) (d d' : CombatUinput γ) : Prop where
  current : d'.current = d.current
  writes : ∃ new, d'.writes = new ++ d.writes ∧ ∀ x ∈ new, x.command = d.current ∧ P x

section Wrote

variable {P Q : Write γ → Prop} {d d' d'' : CombatUinput γ} {code : KeyCode} {value : Int}

theorem Wrote.refl (d : CombatUinput γ) : Wrote P d d := ⟨rfl, [], rfl, fun _ mem => nomatch mem⟩

theorem Wrote.trans (h : Wrote P d d') (h' : Wrote P d' d'') : Wrote P d d'' := by
  obtain ⟨current, new, writes, each⟩ := h
  obtain ⟨current', new', writes', each'⟩ := h'
  refine ⟨current'.trans current, new' ++ new, by rw [writes', writes, List.append_assoc],
    fun x mem => ?_⟩
  obtain mem | mem := List.mem_append.mp mem
  · exact current ▸ each' x mem
  · exact each x mem

theorem Wrote.weaken (h : Wrote P d d') (weaker : ∀ x, P x → Q x) : Wrote Q d d' := by
  obtain ⟨current, new, writes, each⟩ := h
  exact ⟨current, new, writes, fun x mem => ⟨(each x mem).1, weaker x (each x mem).2⟩⟩

/-- One write: it is done, or it fails. -/
theorem keycodeEvent_cases (code : KeyCode) (value : Int) (d : CombatUinput γ) :
    (∃ d', d.keycodeEvent code value = (.ok (), d') ∧ d'.current = d.current ∧
      d'.writes = ⟨d.current, code, value, .accepted⟩ :: d.writes) ∨
    ∃ e d' written, d.keycodeEvent code value = (.error e, d') ∧ d'.current = d.current ∧
      written ≠ .accepted ∧ d'.writes = ⟨d.current, code, value, written⟩ :: d.writes := by
  unfold CombatUinput.keycodeEvent CombatUinput.emit
  dsimp only
  cases d.outcomes d.writes.length with
  | accepted => exact .inl ⟨_, rfl, rfl, rfl⟩
  | lost e => exact .inr ⟨_, _, .lost e, rfl, rfl, nofun, rfl⟩
  | late e => exact .inr ⟨_, _, .late e, rfl, rfl, nofun, rfl⟩

theorem mouseLeftEvent_cases (value : Int) (d : CombatUinput γ) :
    (∃ d', d.mouseLeftEvent value = (.ok (), d') ∧ d'.current = d.current ∧
      d'.writes = ⟨d.current, .btnLeft, value, .accepted⟩ :: d.writes) ∨
    ∃ e d' written, d.mouseLeftEvent value = (.error e, d') ∧ d'.current = d.current ∧
      written ≠ .accepted ∧ d'.writes = ⟨d.current, .btnLeft, value, written⟩ :: d.writes := by
  unfold CombatUinput.mouseLeftEvent CombatUinput.emit
  dsimp only
  cases d.outcomes d.writes.length with
  | accepted => exact .inl ⟨_, rfl, rfl, rfl⟩
  | lost e => exact .inr ⟨_, _, .lost e, rfl, rfl, nofun, rfl⟩
  | late e => exact .inr ⟨_, _, .late e, rfl, rfl, nofun, rfl⟩

/-- A key event: the label is unknown, or its key's event is written. -/
theorem keyEvent_cases (key : String) (value : Int) (d : CombatUinput γ) :
    (∃ code d', keyLabelToKeycode key = some code ∧ d.keyEvent key value = (.ok (), d') ∧
      d'.current = d.current ∧ d'.writes = ⟨d.current, code, value, .accepted⟩ :: d.writes) ∨
    ∃ e d', d.keyEvent key value = (.error e, d') ∧ d'.current = d.current ∧
      (d' = d ∨ ∃ code written, keyLabelToKeycode key = some code ∧
        d'.writes = ⟨d.current, code, value, written⟩ :: d.writes) := by
  unfold CombatUinput.keyEvent
  cases found : keyLabelToKeycode key with
  | none => exact .inr ⟨_, _, rfl, rfl, .inl rfl⟩
  | some code =>
    obtain ⟨d', done, current, writes⟩ | ⟨e, d', written, failed, current, -, writes⟩ :=
      keycodeEvent_cases code value d
    · exact .inl ⟨code, d', rfl, done, current, writes⟩
    · exact .inr ⟨e, d', failed, current, .inr ⟨code, written, rfl, writes⟩⟩

theorem Wrote.one {x : Write γ} (current : d'.current = d.current)
    (writes : d'.writes = x :: d.writes) (mine : x.command = d.current) (holds : P x) :
    Wrote P d d' :=
  ⟨current, [x], writes, fun y mem => by
    obtain rfl := List.mem_singleton.mp mem
    exact ⟨mine, holds⟩⟩

theorem keycodeEvent_wrote (code : KeyCode) (value : Int) (d : CombatUinput γ) :
    Wrote (fun x => x.code = code ∧ x.value = value) d (d.keycodeEvent code value).2 := by
  obtain ⟨d', done, current, writes⟩ | ⟨e, d', written, done, current, -, writes⟩ :=
    keycodeEvent_cases code value d
  all_goals
    rw [done]
    exact .one current writes rfl ⟨rfl, rfl⟩

theorem mouseLeftEvent_wrote (value : Int) (d : CombatUinput γ) :
    Wrote (fun x => x.code = .btnLeft ∧ x.value = value) d (d.mouseLeftEvent value).2 := by
  obtain ⟨d', done, current, writes⟩ | ⟨e, d', written, done, current, -, writes⟩ :=
    mouseLeftEvent_cases value d
  all_goals
    rw [done]
    exact .one current writes rfl ⟨rfl, rfl⟩

theorem keyEvent_wrote (key : String) (value : Int) (d : CombatUinput γ) :
    Wrote (fun x => keyLabelToKeycode key = some x.code ∧ x.value = value) d
      (d.keyEvent key value).2 := by
  unfold CombatUinput.keyEvent
  cases found : keyLabelToKeycode key with
  | none => exact .refl d
  | some code =>
    refine (keycodeEvent_wrote code value d).weaken ?_
    rintro x ⟨rfl, rfl⟩
    exact ⟨rfl, rfl⟩

theorem releaseKeys_wrote (codes : List KeyCode) (d : CombatUinput γ) :
    Wrote (fun x => x.value = 0) d (d.releaseKeys codes) := by
  induction codes generalizing d with
  | nil => exact .refl d
  | cons code rest ih =>
    have first (pressed : List KeyCode) :
        Wrote (fun x => x.value = 0) d { (d.emit code 0).2 with pressedKeys := pressed } :=
      .one rfl rfl rfl rfl
    rw [CombatUinput.releaseKeys]
    split
    next d' done =>
      have first := first (d'.pressedKeys.filter (· ≠ code))
      rw [done] at first
      exact first.trans (ih _)
    next e d' done =>
      have first := first d'.pressedKeys
      rw [done] at first
      exact first.trans (ih _)

/-- **A release** writes nothing but releases. -/
theorem release_wrote (key : Option String) (mouseLeft : Bool) (d : CombatUinput γ) :
    Wrote (fun x => x.value = 0) d (d.release key mouseLeft) := by
  have mouse : Wrote (fun x => x.value = 0) d
      (if mouseLeft || d.mouseLeftPressed then (d.mouseLeftEvent 0).2 else d) := by
    split
    · exact (mouseLeftEvent_wrote 0 d).weaken fun _ h => h.2
    · exact .refl d
  unfold CombatUinput.release
  dsimp only
  cases key with
  | some key => exact mouse.trans ((keyEvent_wrote key 0 _).weaken fun _ h => h.2)
  | none => exact mouse.trans (releaseKeys_wrote _ _)

end Wrote

end RoLauncher.Input
