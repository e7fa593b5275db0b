import RoLauncher.Input.Worker

/-!
# What the cycles press is recorded

A key or button that the spam cycles have pressed, and nobody has released
since, stands in the worker's `SpamState`: the key and the button before they
are pressed, the modifier once its press has succeeded. So the one press that
can be missed is that of a modifier which fails after the device has taken it.
-/

namespace RoLauncher.Input

/-! ## What is down -/

def bySpam (x : Write WorkerCommand) : Bool := x.command.any WorkerCommand.isSpamCycle

/-- Pressed by a spam cycle, and not released since. A value of two repeats a key that is down. -/
def spamDown : Writes → KeyCode → Bool
  | [], _ => false
  | x :: rest, code =>
    if x.code = code ∧ x.written.taken then
      if x.value = 0 then false else (bySpam x && x.value != 2) || spamDown rest code
    else spamDown rest code

/-- No press of the modifier failed after the device had taken it. -/
def Prompt (writes : Writes) : Prop :=
  ∀ x ∈ writes, x.code = .keyLeftShift → x.value = 1 → ∀ error, x.written ≠ .late error

/-- Nothing that is down in the second is up in the first. -/
def Fades (after before : Writes) : Prop := ∀ code, spamDown after code = true → spamDown before code = true

section Down

variable {x : Write WorkerCommand} {rest : Writes} {code : KeyCode}

theorem spamDown_of_code_ne (ne : x.code ≠ code) : spamDown (x :: rest) code = spamDown rest code :=
  if_neg fun here => ne here.1

theorem spamDown_append_of_ne {new : Writes} (ne : ∀ x ∈ new, x.code ≠ code) :
    spamDown (new ++ rest) code = spamDown rest code := by
  induction new with
  | nil => rfl
  | cons x new ih =>
    obtain ⟨first, others⟩ := List.forall_mem_cons.mp ne
    exact (spamDown_of_code_ne first).trans (ih others)

theorem spamDown_of_lost (lost : x.written.taken = false) :
    spamDown (x :: rest) code = spamDown rest code :=
  if_neg fun here => Bool.false_ne_true (lost.symm.trans here.2)

theorem spamDown_released (here : x.code = code) (taken : x.written.taken = true)
    (release : x.value = 0) : spamDown (x :: rest) code = false := by
  rw [spamDown, if_pos ⟨here, taken⟩, if_pos release]

theorem fades_of (silent : x.value = 0 ∨ bySpam x = false) : Fades (x :: rest) rest := by
  intro code down
  rw [spamDown] at down
  split at down
  next =>
    split at down
    next => cases down
    next pressed =>
      obtain release | others := silent
      · exact absurd release pressed
      · rwa [others, Bool.false_and, Bool.false_or] at down
  next => exact down

theorem Fades.trans {a b c : Writes} (h : Fades a b) (h' : Fades b c) : Fades a c :=
  fun code down => h' code (h code down)

theorem fades_append {new : Writes} (silent : ∀ x ∈ new, x.value = 0 ∨ bySpam x = false) :
    Fades (new ++ rest) rest := by
  induction new with
  | nil => exact fun _ down => down
  | cons x new ih =>
    obtain ⟨first, others⟩ := List.forall_mem_cons.mp silent
    exact (fades_of first).trans (ih others)

theorem Prompt.of_append {new : Writes} (h : Prompt (new ++ rest)) : Prompt rest :=
  fun x mem => h x (List.mem_append_right _ mem)

variable {d d' : CombatUinput WorkerCommand}

/-- Releases press nothing. -/
theorem Wrote.fades (h : Wrote (fun x => x.value = 0) d d') : Fades d'.writes d.writes := by
  obtain ⟨-, new, writes, each⟩ := h
  rw [writes]
  exact fades_append fun x mem => .inl (each x mem).2

/-- The commands that are no spam cycles press nothing for one. -/
theorem Wrote.fades_others {P : Write WorkerCommand → Prop} (h : Wrote P d d')
    (others : d.current.any WorkerCommand.isSpamCycle = false) : Fades d'.writes d.writes := by
  obtain ⟨-, new, writes, each⟩ := h
  rw [writes]
  refine fades_append fun x mem => .inr ?_
  rw [bySpam, (each x mem).1, others]

end Down

/-! ## The labels -/

theorem keyLabels_keys : ∀ entry ∈ keyLabels, entry.2 ≠ .btnLeft ∧ entry.2 ≠ .keyLeftShift := by
  decide

/-- A label is a key of the keyboard. -/
theorem keyLabelToKeycode_ne {key : String} {code : KeyCode} (h : keyLabelToKeycode key = some code) :
    code ≠ .btnLeft ∧ code ≠ .keyLeftShift := by
  obtain ⟨before, after, entries, -⟩ := List.lookup_eq_some_iff.mp h
  exact keyLabels_keys (toAsciiUppercase key, code) (by simp [entries])

theorem keyLabelToKeycode_congr {key held : String} (same : eqIgnoreAsciiCase held key = true) :
    keyLabelToKeycode held = keyLabelToKeycode key := by
  rw [keyLabelToKeycode, eq_of_beq same, keyLabelToKeycode]

/-! ## The record -/

structure Recorded (w : Worker) : Prop where
  button : spamDown w.device.writes .btnLeft = true → w.spam.mouseLeftPressed = true
  modifier : spamDown w.device.writes .keyLeftShift = true → w.spam.heldModifier = some .shift
  key : ∀ code, spamDown w.device.writes code = true → code ≠ .btnLeft → code ≠ .keyLeftShift →
    ∃ key, w.spam.heldKey = some key ∧ keyLabelToKeycode key = some code

/-- The write is no press of the button. -/
def noClick (x : Write WorkerCommand) : Prop := x.code = .btnLeft → x.value = 0

/-- The worker's section: the device goes on, and the histories stay. -/
structure Advance (P : Write WorkerCommand → Prop) (w w' : Worker) : Prop where
  wrote : Wrote P w.device w'.device
  began : w'.began = w.began
  history : w'.history = w.history
  cutoff : w'.spam.cancelledThrough = w.spam.cancelledThrough

section Sections

variable {P Q : Write WorkerCommand → Prop} {w w' w'' : Worker}

theorem Advance.refl (w : Worker) : Advance P w w := ⟨.refl _, rfl, rfl, rfl⟩

theorem Advance.trans (h : Advance P w w') (h' : Advance P w' w'') : Advance P w w'' :=
  ⟨h.wrote.trans h'.wrote, h'.began.trans h.began, h'.history.trans h.history,
    h'.cutoff.trans h.cutoff⟩

theorem Advance.weaken (h : Advance P w w') (weaker : ∀ x, P x → Q x) : Advance Q w w' :=
  ⟨h.wrote.weaken weaker, h.began, h.history, h.cutoff⟩

theorem Recorded.fade (h : Recorded w) (spam : w'.spam = w.spam)
    (fades : Fades w'.device.writes w.device.writes) : Recorded w' := by
  refine ⟨fun down => ?_, fun down => ?_, fun code down => ?_⟩
  all_goals rw [spam]
  · exact h.button (fades _ down)
  · exact h.modifier (fades _ down)
  · exact h.key code (fades _ down)

/-- Nothing is down of a record without entries. -/
theorem Recorded.clear (h : Recorded w) (button : w.spam.mouseLeftPressed = false)
    (modifier : w.spam.heldModifier = none) (key : w.spam.heldKey = none) (code : KeyCode) :
    spamDown w.device.writes code = false := by
  by_contra up
  have down : spamDown w.device.writes code = true := by simpa using up
  by_cases isButton : code = .btnLeft
  · subst isButton
    cases button.symm.trans (h.button down)
  by_cases isModifier : code = .keyLeftShift
  · subst isModifier
    cases modifier.symm.trans (h.modifier down)
  · obtain ⟨_, held, -⟩ := h.key code down isButton isModifier
    cases key.symm.trans held

theorem releaseAll_advance (w : Worker) : Advance (fun x => x.value = 0) w w.releaseAll :=
  ⟨release_wrote none true w.device, rfl, rfl, rfl⟩

/-- A section that fails releases everything. -/
theorem Advance.releaseAll (h : Advance P w w') (releases : ∀ x : Write WorkerCommand, x.value = 0 → P x) :
    Advance P w w'.releaseAll := h.trans ((releaseAll_advance w').weaken releases)

theorem releaseAll_recorded (h : Recorded w) : Recorded w.releaseAll :=
  h.fade rfl (release_wrote none true w.device).fades

/-- A release of the button either succeeds, or leaves the record as it is. -/
theorem releaseMouse_spec (w : Worker) :
    Advance (fun x => x.value = 0) w w.releaseMouse.2 ∧
      w.releaseMouse.2.spam.heldKey = w.spam.heldKey ∧
      w.releaseMouse.2.spam.heldModifier = w.spam.heldModifier ∧
      (w.releaseMouse.1 = none → w.releaseMouse.2.spam.mouseLeftPressed = false) ∧
      (Recorded w → Recorded w.releaseMouse.2) := by
  have wrote := (mouseLeftEvent_wrote 0 w.device).weaken (Q := fun x => x.value = 0) fun _ h => h.2
  unfold Worker.releaseMouse
  split
  next =>
    obtain ⟨d, done, current, writes⟩ | ⟨e, d, _, done, current, -, writes⟩ :=
      mouseLeftEvent_cases 0 w.device
    · rw [done] at wrote ⊢
      refine ⟨⟨wrote, rfl, rfl, rfl⟩, rfl, rfl, fun _ => rfl, fun h => ⟨fun down => ?_,
        fun down => h.modifier (wrote.fades _ down), fun code down => h.key code (wrote.fades _ down)⟩⟩
      have down : spamDown d.writes .btnLeft = true := down
      rw [writes, spamDown_released rfl rfl rfl] at down
      cases down
    · rw [done] at wrote ⊢
      exact ⟨⟨wrote, rfl, rfl, rfl⟩, rfl, rfl, nofun, fun h => h.fade rfl wrote.fades⟩
  next up => exact ⟨.refl w, rfl, rfl, fun _ => by simpa using up, fun h => h⟩

theorem releaseKey_spec (w : Worker) :
    Advance (fun x => x.value = 0) w w.releaseKey.2 ∧
      w.releaseKey.2.spam.mouseLeftPressed = w.spam.mouseLeftPressed ∧
      w.releaseKey.2.spam.heldModifier = w.spam.heldModifier ∧
      (w.releaseKey.1 = none → w.releaseKey.2.spam.heldKey = none) ∧
      (Recorded w → Recorded w.releaseKey.2) := by
  unfold Worker.releaseKey
  split
  next key held =>
    have wrote := (keyEvent_wrote key 0 w.device).weaken (Q := fun x => x.value = 0) fun _ h => h.2
    obtain ⟨code, d, label, done, current, writes⟩ | ⟨e, d, done, current, writes⟩ :=
      keyEvent_cases key 0 w.device
    · rw [done] at wrote ⊢
      refine ⟨⟨wrote, rfl, rfl, rfl⟩, rfl, rfl, fun _ => rfl,
        fun h => ⟨fun down => h.button (wrote.fades _ down), fun down => h.modifier (wrote.fades _ down),
          fun code' down ne ne' => ?_⟩⟩
      obtain ⟨key', held', label'⟩ := h.key code' (wrote.fades _ down) ne ne'
      cases held.symm.trans held'
      cases label.symm.trans label'
      have down : spamDown d.writes code = true := down
      rw [writes, spamDown_released rfl rfl rfl] at down
      cases down
    · rw [done] at wrote ⊢
      exact ⟨⟨wrote, rfl, rfl, rfl⟩, rfl, rfl, nofun, fun h => h.fade rfl wrote.fades⟩
  next none => exact ⟨.refl w, rfl, rfl, fun _ => none, fun h => h⟩

theorem releaseModifier_spec (w : Worker) :
    Advance (fun x => x.value = 0) w w.releaseModifier.2 ∧
      w.releaseModifier.2.spam.mouseLeftPressed = w.spam.mouseLeftPressed ∧
      w.releaseModifier.2.spam.heldKey = w.spam.heldKey ∧
      (w.releaseModifier.1 = none → w.releaseModifier.2.spam.heldModifier = none) ∧
      (Recorded w → Recorded w.releaseModifier.2) := by
  unfold Worker.releaseModifier
  split
  next modifier held =>
    have wrote := (keycodeEvent_wrote modifier.code 0 w.device).weaken (Q := fun x => x.value = 0)
      fun _ h => h.2
    unfold CombatUinput.modifierEvent
    obtain ⟨d, done, current, writes⟩ | ⟨e, d, _, done, current, -, writes⟩ :=
      keycodeEvent_cases modifier.code 0 w.device
    · rw [done] at wrote ⊢
      refine ⟨⟨wrote, rfl, rfl, rfl⟩, rfl, rfl, fun _ => rfl,
        fun h => ⟨fun down => h.button (wrote.fades _ down), fun down => ?_,
          fun code down => h.key code (wrote.fades _ down)⟩⟩
      have down : spamDown d.writes .keyLeftShift = true := down
      rw [writes, spamDown_released (by cases modifier; rfl) rfl rfl] at down
      cases down
    · rw [done] at wrote ⊢
      exact ⟨⟨wrote, rfl, rfl, rfl⟩, rfl, rfl, nofun, fun h => h.fade rfl wrote.fades⟩
  next none => exact ⟨.refl w, rfl, rfl, fun _ => none, fun h => h⟩

theorem releaseCycleInputs_spec (w : Worker) :
    Advance (fun x => x.value = 0) w w.releaseCycleInputs.2 ∧
      (∀ hadKey, w.releaseCycleInputs.1 = .ok hadKey → w.releaseCycleInputs.2.spam.heldKey = none) ∧
      (Recorded w → Recorded w.releaseCycleInputs.2) := by
  obtain ⟨mouse, -, -, -, mouseRecorded⟩ := releaseMouse_spec w
  obtain ⟨key, -, -, keyUp, keyRecorded⟩ := releaseKey_spec w.releaseMouse.2
  unfold Worker.releaseCycleInputs
  dsimp only
  split
  next error failed =>
    exact ⟨(mouse.trans key).releaseAll fun _ h => h, nofun,
      fun h => releaseAll_recorded (keyRecorded (mouseRecorded h))⟩
  next done =>
    refine ⟨mouse.trans key, fun _ _ => keyUp ?_, fun h => keyRecorded (mouseRecorded h)⟩
    exact (Option.or_eq_none_iff.mp done).2

theorem releaseSpamInputs_spec (w : Worker) :
    Advance (fun x => x.value = 0) w w.releaseSpamInputs.2 ∧
      (w.releaseSpamInputs.1 = .ok () → Recorded w →
        ∀ code, spamDown w.releaseSpamInputs.2.device.writes code = false) ∧
      (Recorded w → Recorded w.releaseSpamInputs.2) := by
  obtain ⟨mouse, -, -, mouseUp, mouseRecorded⟩ := releaseMouse_spec w
  obtain ⟨key, keyMouse, -, keyUp, keyRecorded⟩ := releaseKey_spec w.releaseMouse.2
  obtain ⟨modifier, modifierMouse, modifierKey, modifierUp, modifierRecorded⟩ :=
    releaseModifier_spec w.releaseMouse.2.releaseKey.2
  have advance := (mouse.trans key).trans modifier
  have recorded (h : Recorded w) := modifierRecorded (keyRecorded (mouseRecorded h))
  unfold Worker.releaseSpamInputs
  dsimp only
  split
  next error failed =>
    exact ⟨advance.releaseAll fun _ h => h, nofun, fun h => releaseAll_recorded (recorded h)⟩
  next done =>
    obtain ⟨mouseDone, done⟩ := Option.or_eq_none_iff.mp done
    obtain ⟨keyDone, modifierDone⟩ := Option.or_eq_none_iff.mp done
    refine ⟨advance, fun _ h => (recorded h).clear ?_ (modifierUp modifierDone) ?_, recorded⟩
    · rw [modifierMouse, keyMouse, mouseUp mouseDone]
    · rw [modifierKey, keyUp keyDone]

/-- A press of the modifier that fails has not pressed it, unless it fails late. -/
theorem pressModifier_spec (modifier : Option SpamModifier) (w : Worker) :
    Advance noClick w (w.pressModifier modifier).2 ∧
      ((w.pressModifier modifier).1 = .ok () →
        (w.pressModifier modifier).2.spam.heldKey = w.spam.heldKey) ∧
      (Prompt (w.pressModifier modifier).2.device.writes → Recorded w →
        Recorded (w.pressModifier modifier).2) := by
  have wrote := (keycodeEvent_wrote .keyLeftShift 1 w.device).weaken
    (Q := noClick) fun _ shift button => by cases button.symm.trans shift.1
  unfold Worker.pressModifier
  split
  next => exact ⟨.refl w, fun _ => rfl, fun _ h => h⟩
  next =>
    unfold CombatUinput.modifierEvent SpamModifier.code
    obtain ⟨d, done, current, writes⟩ | ⟨e, d, written, done, current, failed, writes⟩ :=
      keycodeEvent_cases .keyLeftShift 1 w.device
    all_goals
      rw [done] at wrote ⊢
      have elsewhere {code : KeyCode} (ne : code ≠ .keyLeftShift)
          (down : spamDown d.writes code = true) : spamDown w.device.writes code = true := by
        rwa [writes, spamDown_of_code_ne ne.symm] at down
    · refine ⟨⟨wrote, rfl, rfl, rfl⟩, fun _ => rfl, fun _ h => ⟨fun down => h.button ?_, fun _ => rfl,
        fun code down button shift => h.key code (elsewhere shift down) button shift⟩⟩
      exact elsewhere (by decide) down
    · have all := releaseAll_advance { w with device := d }
      have advance : Advance noClick w { w with device := d } := ⟨wrote, rfl, rfl, rfl⟩
      refine ⟨advance.releaseAll fun _ h _ => h, nofun, fun prompt h => ?_⟩
      refine releaseAll_recorded (h.fade rfl ?_)
      have lost : written.taken = false := by
        obtain ⟨-, new, after, -⟩ := all.wrote
        rw [after, writes] at prompt
        cases written with
        | accepted => exact absurd rfl failed
        | lost error => rfl
        | late error =>
          exact absurd rfl (prompt.of_append _ List.mem_cons_self rfl rfl error)
      intro code down
      have down : spamDown d.writes code = true := down
      rwa [writes, spamDown_of_lost lost] at down

theorem reconcileSpamModifier_spec (modifier : Option SpamModifier) (w : Worker) :
    Advance noClick w (w.reconcileSpamModifier modifier).2 ∧
      ((w.reconcileSpamModifier modifier).1 = .ok () →
        (w.reconcileSpamModifier modifier).2.spam.heldKey = w.spam.heldKey) ∧
      (Prompt (w.reconcileSpamModifier modifier).2.device.writes → Recorded w →
        Recorded (w.reconcileSpamModifier modifier).2) := by
  unfold Worker.reconcileSpamModifier
  split
  next => exact ⟨.refl w, fun _ => rfl, fun _ h => h⟩
  split
  next => exact pressModifier_spec modifier w
  next held here =>
    obtain ⟨release, -, key, -, recorded⟩ := releaseModifier_spec w
    rw [Worker.releaseModifier, here] at release key recorded
    dsimp only at release key recorded
    split
    next e d done =>
      rw [done] at release recorded
      exact ⟨(release.releaseAll fun _ h => h).weaken fun _ h _ => h, nofun,
        fun _ h => releaseAll_recorded (recorded h)⟩
    next d done =>
      rw [done] at release key recorded
      obtain ⟨press, same, pressed⟩ := pressModifier_spec modifier
        { w with device := d, spam := { w.spam with heldModifier := none } }
      have release : Advance noClick w _ := release.weaken fun _ h _ => h
      exact ⟨release.trans press, fun ok => same ok,
        fun prompt h => pressed prompt (recorded h)⟩

/-- The key of the cycle, when no other one is held. -/
theorem pressCycleKey_spec (key : String) (w : Worker) :
    Advance (fun _ => True) w (w.pressCycleKey key).2 ∧
      ((w.pressCycleKey key).1 = .ok () → ∃ code, keyLabelToKeycode key = some code ∧
        (w.pressCycleKey key).2.device.writes =
          ⟨w.device.current, code, 1, .accepted⟩ :: w.device.writes) ∧
      (w.spam.heldKey = none → Recorded w → Recorded (w.pressCycleKey key).2) := by
  have wrote := (keyEvent_wrote key 1 w.device).weaken (Q := fun _ => True) fun _ _ => trivial
  -- Only the key that is pressed can be down besides the button and the modifier.
  have recorded {d : CombatUinput WorkerCommand} {code : KeyCode} {written : Written}
      (label : keyLabelToKeycode key = some code)
      (writes : d.writes = ⟨w.device.current, code, 1, written⟩ :: w.device.writes)
      (free : w.spam.heldKey = none) (h : Recorded w) :
      Recorded { w with device := d, spam := { w.spam with heldKey := some key } } := by
    obtain ⟨button, shift⟩ := keyLabelToKeycode_ne label
    have elsewhere {other : KeyCode} (ne : code ≠ other) (down : spamDown d.writes other = true) :
        spamDown w.device.writes other = true := by
      rwa [writes, spamDown_of_code_ne ne] at down
    refine ⟨fun down => h.button (elsewhere button down), fun down => h.modifier (elsewhere shift down),
      fun other down ne ne' => ⟨key, rfl, ?_⟩⟩
    by_cases here : code = other
    · rw [label, here]
    · obtain ⟨_, held, -⟩ := h.key other (elsewhere here down) ne ne'
      cases free.symm.trans held
  unfold Worker.pressCycleKey
  dsimp only
  obtain ⟨code, d, label, done, current, writes⟩ | ⟨e, d, done, current, tried⟩ :=
    keyEvent_cases key 1 w.device
  · rw [done] at wrote ⊢
    exact ⟨⟨wrote, rfl, rfl, rfl⟩, fun _ => ⟨code, label, writes⟩, recorded label writes⟩
  · rw [done] at wrote ⊢
    have advance : Advance (fun _ => True) w
        { w with device := d, spam := { w.spam with heldKey := some key } } := ⟨wrote, rfl, rfl, rfl⟩
    refine ⟨advance.releaseAll fun _ _ => trivial, nofun, fun free h => releaseAll_recorded ?_⟩
    obtain rfl | ⟨code, written, label, writes⟩ := tried
    · refine ⟨h.button, h.modifier, fun code down ne ne' => ?_⟩
      obtain ⟨_, held, -⟩ := h.key code down ne ne'
      cases free.symm.trans held
    · exact recorded label writes free h

/-- The button goes down and up. -/
theorem click_spec (w : Worker) :
    Advance (fun _ => True) w w.click.2 ∧
      (w.click.1 = .ok () → w.click.2.device.writes =
        ⟨w.device.current, .btnLeft, 0, .accepted⟩ :: ⟨w.device.current, .btnLeft, 1, .accepted⟩ ::
          w.device.writes) ∧
      (Recorded w → Recorded w.click.2) := by
  have recorded {d : CombatUinput WorkerCommand} {pressed : Bool}
      (writes : Wrote (fun x => x.code = .btnLeft) w.device d)
      (button : spamDown d.writes .btnLeft = true → pressed = true) (h : Recorded w) :
      Recorded { w with device := d, spam := { w.spam with mouseLeftPressed := pressed } } := by
    obtain ⟨-, new, writes, each⟩ := writes
    have elsewhere {code : KeyCode} (ne : code ≠ .btnLeft) (down : spamDown d.writes code = true) :
        spamDown w.device.writes code = true := by
      rwa [writes, spamDown_append_of_ne fun x mem same => ne (same.symm.trans (each x mem).2)] at down
    exact ⟨button, fun down => h.modifier (elsewhere (by decide) down),
      fun code down ne ne' => h.key code (elsewhere ne down) ne ne'⟩
  have down := (mouseLeftEvent_wrote 1 w.device).weaken (Q := fun x => x.code = .btnLeft) fun _ h => h.1
  unfold Worker.click
  dsimp only
  obtain ⟨d, done, current, writes⟩ | ⟨e, d, written, done, current, -, writes⟩ :=
    mouseLeftEvent_cases 1 w.device
  · rw [done] at down ⊢
    have up := (mouseLeftEvent_wrote 0 d).weaken (Q := fun x => x.code = .btnLeft) fun _ h => h.1
    dsimp only
    obtain ⟨d', done', current', writes'⟩ | ⟨e, d', written', done', current', -, writes'⟩ :=
      mouseLeftEvent_cases 0 d
    · rw [done'] at up ⊢
      have both := down.trans up
      refine ⟨⟨both.weaken fun _ _ => trivial, rfl, rfl, rfl⟩, fun _ => ?_, recorded both fun up => ?_⟩
      · rw [writes', writes, current]
      · rw [writes', spamDown_released rfl rfl rfl] at up
        cases up
    · rw [done'] at up ⊢
      have both := down.trans up
      have advance : Advance (fun _ => True) w
          { w with device := d', spam := { w.spam with mouseLeftPressed := true } } :=
        ⟨both.weaken fun _ _ => trivial, rfl, rfl, rfl⟩
      exact ⟨advance.releaseAll fun _ _ => trivial, nofun,
        fun h => releaseAll_recorded (recorded both (fun _ => rfl) h)⟩
  · rw [done] at down ⊢
    have advance : Advance (fun _ => True) w
        { w with device := d, spam := { w.spam with mouseLeftPressed := true } } :=
      ⟨down.weaken fun _ _ => trivial, rfl, rfl, rfl⟩
    exact ⟨advance.releaseAll fun _ _ => trivial, nofun,
      fun h => releaseAll_recorded (recorded down (fun _ => rfl) h)⟩

/-- The commands that are no spam cycles press nothing for one. -/
theorem pressKey_spec (key : String) (w : Worker)
    (others : w.device.current.any WorkerCommand.isSpamCycle = false) :
    Advance (fun _ => True) w (w.pressKey key).2 ∧ (Recorded w → Recorded (w.pressKey key).2) := by
  have quiet {d : CombatUinput WorkerCommand} (wrote : Wrote (fun _ => True) w.device d) :
      Advance (fun _ => True) w { w with device := d } ∧
        (Recorded w → Recorded { w with device := d }) :=
    ⟨⟨wrote, rfl, rfl, rfl⟩, fun h => h.fade rfl (wrote.fades_others others)⟩
  have event (value : Int) (d : CombatUinput WorkerCommand) :=
    (keyEvent_wrote key value d).weaken (Q := fun _ => True) fun _ _ => trivial
  have released (d : CombatUinput WorkerCommand) :=
    (release_wrote (some key) false d).weaken (Q := fun _ => True) fun _ _ => trivial
  unfold Worker.pressKey
  split
  next => exact ⟨.refl w, fun h => h⟩
  have down := event 1 w.device
  split
  next e d done =>
    rw [done] at down
    exact quiet (down.trans (released d))
  next d done =>
    rw [done] at down
    have up := event 0 d
    split
    next e d' done' =>
      rw [done'] at up
      exact quiet ((down.trans up).trans (released d'))
    next d' done' =>
      rw [done'] at up
      exact quiet (down.trans up)

theorem keyEvent_spec (key : String) (value : Int) (w : Worker)
    (others : w.device.current.any WorkerCommand.isSpamCycle = false) :
    Advance (fun _ => True) w (w.keyEvent key value).2 ∧
      (Recorded w → Recorded (w.keyEvent key value).2) := by
  have wrote := (keyEvent_wrote key value w.device).weaken (Q := fun _ => True) fun _ _ => trivial
  unfold Worker.keyEvent
  obtain ⟨code, d, label, done, current, writes⟩ | ⟨e, d, done, current, -⟩ :=
    keyEvent_cases key value w.device
  · rw [done] at wrote ⊢
    have fades := wrote.fades_others others
    dsimp only
    split
    next released =>
      obtain ⟨rfl, held⟩ := released
      refine ⟨⟨wrote, rfl, rfl, rfl⟩, fun h => ⟨fun down => h.button (fades _ down),
        fun down => h.modifier (fades _ down), fun code' down ne ne' => ?_⟩⟩
      -- The key that is released is the one that was held, under any case of its label.
      obtain ⟨label', held', code'⟩ := h.key code' (fades _ down) ne ne'
      rw [Worker.holds, held', Option.any_some] at held
      cases code'.symm.trans ((keyLabelToKeycode_congr held).trans label)
      have down : spamDown d.writes code = true := down
      rw [writes, spamDown_released rfl rfl rfl] at down
      cases down
    next => exact ⟨⟨wrote, rfl, rfl, rfl⟩, fun h => h.fade rfl fades⟩
  · rw [done] at wrote ⊢
    have all := wrote.trans ((release_wrote (some key) false d).weaken fun _ _ => trivial)
    exact ⟨⟨all, rfl, rfl, rfl⟩, fun h => h.fade rfl (all.fades_others others)⟩

end Sections

end RoLauncher.Input
