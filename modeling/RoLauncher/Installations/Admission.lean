import RoLauncher.Installations.Frames

/-!
# The admission of installations

A draft becomes active only while admission is open, and only the two acts of
a relaunch touch its own flag. A shutdown is for good.
-/

namespace RoLauncher.Installations

open Tables

/-- Neither a shutdown nor a relaunch has closed admission. -/
def State.admits (s : State) : Bool := !(s.closing || s.relaunchAdmissionClosed)

/-- What an act does to the admission, and admits. -/
structure Admits (s t : State) : Prop where
  relaunch : t.relaunchAdmissionClosed = s.relaunchAdmissionClosed
  closing : s.closing = true → t.closing = true
  active : ∀ id, (t.active.lookup id).isSome → (s.active.lookup id).isSome ∨ s.admits = true

section Operations

variable {isUuid : String → Bool} {io : StoreIo} {s t : State} {id : String}

theorem Admits.refl (s : State) : Admits s s := ⟨rfl, id, fun _ => .inl⟩

theorem Loaded.admits (h : Loaded s t) : Admits s t := by
  cases h with
  | before _ => exact .refl s
  | now _ _ _ => exact ⟨rfl, id, fun _ => .inl⟩

/-- An operation that leaves the flags and the active set. -/
theorem Loaded.admits_of (h : Loaded s t) {u : State}
    (relaunch : u.relaunchAdmissionClosed = t.relaunchAdmissionClosed)
    (closing : u.closing = t.closing)
    (active : ∀ id, (u.active.lookup id).isSome → (t.active.lookup id).isSome) : Admits s u where
  relaunch := relaunch.trans h.admits.relaunch
  closing closed := closing.trans (h.admits.closing closed)
  active id owned := h.admits.active id (active id owned)

theorem Loaded.admits_eq (h : Loaded s t) : t.admits = s.admits := by
  cases h <;> rfl

theorem get_admits (id : String) (s : State) : Admits s (s.get isUuid io id).2 := by
  obtain ⟨e, -, failed⟩ | ⟨t, loaded, ⟨e, failed, -⟩ | ⟨draft, -, done⟩⟩ := @get_cases isUuid io id s
  · rw [failed]
    exact .refl s
  · rw [failed]
    exact (load_ok loaded).admits
  · rw [done]
    exact (load_ok loaded).admits

theorem isActive_admits (id : String) (s : State) : Admits s (s.isActive isUuid io id).2 := by
  obtain ⟨e, -, failed⟩ | ⟨t, loaded, done⟩ := @isActive_cases isUuid io id s
  · rw [failed]
    exact .refl s
  · rw [done]
    exact (load_ok loaded).admits

theorem update_admits (id : String) (change : InstallationDraft → InstallationDraft) (s : State) :
    Admits s (s.update isUuid io id change).2 := by
  obtain ⟨e, failed⟩ | ⟨t, loaded, ⟨e, failed⟩ | ⟨-, draft, -, done⟩⟩ :=
    @update_cases isUuid io id change s
  · rw [failed]
    exact .refl s
  · rw [failed]
    exact (load_ok loaded).admits
  · rw [done]
    exact (load_ok loaded).admits_of rfl rfl fun _ owned => owned

theorem create_admits (id : String) (input : CreateInstallation)
    (runnerKnown installerExists : Bool) (s : State) :
    Admits s (s.create isUuid io id input runnerKnown installerExists).2 := by
  obtain same | ⟨t, loaded, same | ⟨-, -, done⟩⟩ :=
    @create_cases isUuid io id input runnerKnown installerExists s
  · rw [same]
    exact .refl s
  · rw [same]
    exact (load_ok loaded).admits
  · rw [done]
    exact (load_ok loaded).admits_of rfl rfl fun _ owned => owned

/-- Only a reservation makes a draft active. -/
theorem reserve_admits (id : String) (s : State) : Admits s (s.reserve isUuid io id).2 := by
  obtain ⟨e, failed⟩ | ⟨t, loaded, ⟨e, failed⟩ | ⟨-, opened, -, draft, -, -, done⟩⟩ :=
    @reserve_cases isUuid io id s
  · rw [failed]
    exact .refl s
  · rw [failed]
    exact (load_ok loaded).admits
  · rw [done]
    have admits := (load_ok loaded).admits
    refine ⟨admits.relaunch, admits.closing, fun _ _ => .inr ?_⟩
    rw [← (load_ok loaded).admits_eq, State.admits, opened]
    rfl

theorem cancel_admits (id : String) (s : State) : Admits s (s.cancel isUuid io id).2 := by
  obtain same | ⟨t, loaded, same | ⟨owned, done | ⟨-, -, done⟩⟩⟩ := @cancel_cases isUuid io id s
  · rw [same]
    exact .refl s
  · rw [same]
    exact (load_ok loaded).admits
  all_goals
    rw [done]
    refine (load_ok loaded).admits_of rfl rfl fun other told => ?_
    rwa [← insert_isSome owned other]

theorem endExecution_admits (recovery : Except String Unit) (s : State) :
    Admits s (s.endExecution id recovery) := by
  refine ⟨rfl, fun closed => closed, fun other owned => .inl ?_⟩
  simp only [State.endExecution, Table.lookup_erase_of] at owned
  split at owned
  next => cases owned
  next => exact owned

theorem requestShutdown_admits (s : State) : Admits s s.requestShutdown := by
  refine ⟨rfl, fun _ => rfl, fun other told => .inl ?_⟩
  simpa [State.requestShutdown] using told

/-! ## What is refused -/

theorem State.admits_eq_false :
    s.admits = false ↔ (s.closing || s.relaunchAdmissionClosed) = true :=
  Bool.not_eq_eq_eq_not

theorem transaction_refused {α : Type} {mutate : State → Except String α × State}
    (refused : ∀ t, Loaded s t → ∃ e, (mutate t).1 = .error e) :
    ∃ e, (State.transaction isUuid io mutate s).1 = .error e := by
  obtain ⟨e, -, failed⟩ | ⟨t, loaded, done⟩ := @transaction_cases isUuid io _ mutate s
  · exact ⟨e, by rw [failed]⟩
  · rw [done]
    exact refused t (load_ok loaded)

theorem reserve_refused (closed : s.admits = false) (id : String) :
    ∃ e, (s.reserve isUuid io id).1 = .error e := by
  refine transaction_refused fun t loaded => ?_
  rw [← loaded.admits_eq] at closed
  rw [if_pos (State.admits_eq_false.mp closed)]
  exact ⟨_, rfl⟩

theorem create_refused (closed : s.admits = false) (id : String) (input : CreateInstallation)
    (runnerKnown installerExists : Bool) :
    ∃ e, (s.create isUuid io id input runnerKnown installerExists).1 = .error e := by
  unfold State.create
  split
  next => exact ⟨_, rfl⟩
  dsimp only
  split
  next e invalid => exact ⟨e, rfl⟩
  split
  next => exact ⟨_, rfl⟩
  refine transaction_refused fun t loaded => ?_
  rw [← loaded.admits_eq] at closed
  rw [if_pos (State.admits_eq_false.mp closed)]
  exact ⟨_, rfl⟩

/-- Admission is closed once, and while no draft is active. -/
theorem closeAdmissionIfIdle_cases (s : State) :
    (∃ e, s.closeAdmissionIfIdle = (.error e, s)) ∨
      s.admits = true ∧ (∀ id, s.active.lookup id = none) ∧
        s.closeAdmissionIfIdle = (.ok (), { s with relaunchAdmissionClosed := true }) := by
  unfold State.closeAdmissionIfIdle
  split
  next => exact .inl ⟨_, rfl⟩
  next opened =>
  split
  next => exact .inl ⟨_, rfl⟩
  next idle =>
    refine .inr ⟨?_, Table.entries_eq_nil_iff.mp (not_not.mp idle), rfl⟩
    rw [State.admits, Bool.eq_false_iff.mpr opened]
    rfl

end Operations

/-! ## The acts -/

/-- The acts of the installations themselves, not of a relaunch. -/
def Act.ofInstallations : Act → Bool
  | .closeAdmission | .reopenAdmission => false
  | _ => true

/-- **One act of the installations.** -/
theorem perform_admits {isUuid : String → Bool} {act : Act} (own : act.ofInstallations = true)
    (s : System) : Admits s.state (s.perform isUuid act).state := by
  cases act with
  | create id input runnerKnown installerExists io =>
    exact create_admits id input runnerKnown installerExists s.state
  | get id io => exact get_admits id s.state
  | cancel id io => exact cancel_admits id s.state
  | requestShutdown => exact requestShutdown_admits s.state
  | closeAdmission | reopenAdmission => cases own
  | reserve job id | confirm job id =>
    simp only [System.perform, System.beginJob]
    split
    next => exact .refl s.state
    next => exact .refl s.state
  | execute job update io =>
    simp only [System.perform]
    split
    next id here => exact update_admits id update.apply s.state
    next => exact .refl s.state
  | transact job io =>
    simp only [System.perform]
    split
    next id phase here =>
      split
      next phase' t next =>
        obtain ⟨-, rfl⟩ | rfl | ⟨-, rfl⟩ | rfl | ⟨-, rfl⟩ := transactJob_state next
        · exact reserve_admits id s.state
        · exact get_admits id s.state
        · exact update_admits id _ s.state
        · exact isActive_admits id s.state
        · exact update_admits id _ s.state
      next => exact .refl s.state
    next => exact .refl s.state
  | proceed job =>
    simp only [System.perform]
    split
    next => exact .refl s.state
    next => exact .refl s.state
    next id recovery here => exact endExecution_admits recovery s.state
    all_goals exact .refl s.state

end RoLauncher.Installations
