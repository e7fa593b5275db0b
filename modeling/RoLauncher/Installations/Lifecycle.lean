import RoLauncher.Installations.Frames

/-!
# No draft is stranded

An execution leaves the active set after its draft has been settled; a
cancellation that is saved between these two sections is the one thing that
makes the draft active again.
-/

namespace RoLauncher.Installations

open Tables

/-! ## The jobs -/

namespace System

/-- The job is an execution of the draft. -/
def Owns (s : System) (job : Nat) (id : String) : Prop :=
  ∃ phase : JobPhase, s.jobs job = some ⟨id, phase⟩ ∧ phase.owns = true

/-- The job holds the admission of the draft. -/
def Holds (s : System) (job : Nat) (id : String) : Prop :=
  ∃ phase : JobPhase, s.jobs job = some ⟨id, phase⟩ ∧ phase.holds = true

/-- The job has settled its draft, with nothing left to write. -/
def SettledAt (s : System) (job : Nat) (id : String) : Prop :=
  s.jobs job = some ⟨id, .settled (.ok ())⟩

end System

structure Inv (s : System) : Prop where
  state : StateInv s.state
  owned : ∀ id, (s.state.active.lookup id).isSome ↔ ∃ job, s.Owns job id
  single : ∀ job other id, s.Owns job id → s.Owns other id → job = other
  held : ∀ job id, s.Holds job id → id ∈ s.guards
  once : ∀ job other id, s.Holds job id → s.Holds other id → job = other
  finalizing : ∀ job id, s.jobs job = some ⟨id, .finalizing⟩ → s.state.active.lookup id = none
  settled : ∀ job id, s.SettledAt job id → ∀ draft, s.state.find id = some draft →
    draft.status.isActive = false

section Jobs

variable {s : System} {t : State} {job other : Nat} {id : String} {phase phase' : JobPhase}
  {new : Option Job} {guards : List String}

theorem update_phase (flag : JobPhase → Bool) (jobs : Nat → Option Job) (other : Nat) (name : String) :
    (∃ p : JobPhase, Function.update jobs job new other = some ⟨name, p⟩ ∧ flag p = true) ↔
      (other = job ∧ ∃ p : JobPhase, new = some ⟨name, p⟩ ∧ flag p = true) ∨
        (other ≠ job ∧ ∃ p : JobPhase, jobs other = some ⟨name, p⟩ ∧ flag p = true) := by
  by_cases here : other = job
  · subst here
    simp
  · simp [here]

/-- **One job moves.** What it owns and holds from now on, nobody else does. -/
theorem Inv.replace (inv : Inv s) (state : StateInv t)
    (owned : ∀ name, (t.active.lookup name).isSome ↔
      (∃ p : JobPhase, new = some ⟨name, p⟩ ∧ p.owns = true) ∨ ∃ other ≠ job, s.Owns other name)
    (single : ∀ name (p : JobPhase), new = some ⟨name, p⟩ → p.owns = true →
      ∀ other ≠ job, ¬ s.Owns other name)
    (held : ∀ name, (∃ p : JobPhase, new = some ⟨name, p⟩ ∧ p.holds = true) ∨
      (∃ other ≠ job, s.Holds other name) → name ∈ guards)
    (once : ∀ name (p : JobPhase), new = some ⟨name, p⟩ → p.holds = true →
      ∀ other ≠ job, ¬ s.Holds other name)
    (finalizing : ∀ other name, Function.update s.jobs job new other = some ⟨name, .finalizing⟩ →
      t.active.lookup name = none)
    (settled : ∀ other name, Function.update s.jobs job new other = some ⟨name, .settled (.ok ())⟩ →
      ∀ draft, t.find name = some draft → draft.status.isActive = false) :
    Inv ⟨t, guards, Function.update s.jobs job new⟩ where
  state := state
  owned name := by
    rw [owned name]
    constructor
    · rintro (mine | ⟨other, ne, theirs⟩)
      · exact ⟨job, (update_phase _ _ _ _).mpr (.inl ⟨rfl, mine⟩)⟩
      · exact ⟨other, (update_phase _ _ _ _).mpr (.inr ⟨ne, theirs⟩)⟩
    · rintro ⟨other, h⟩
      obtain ⟨rfl, mine⟩ | ⟨ne, theirs⟩ := (update_phase _ _ _ _).mp h
      · exact .inl mine
      · exact .inr ⟨other, ne, theirs⟩
  single j j' name h h' := by
    obtain ⟨rfl, p, here, own⟩ | ⟨ne, theirs⟩ := (update_phase _ _ _ _).mp h
    all_goals obtain ⟨rfl, p', here', own'⟩ | ⟨ne', theirs'⟩ := (update_phase _ _ _ _).mp h'
    · rfl
    · exact absurd theirs' (single name p here own j' ne')
    · exact absurd theirs (single name p' here' own' j ne)
    · exact inv.single j j' name theirs theirs'
  held j name h := by
    obtain ⟨rfl, mine⟩ | ⟨ne, theirs⟩ := (update_phase _ _ _ _).mp h
    · exact held name (.inl mine)
    · exact held name (.inr ⟨j, ne, theirs⟩)
  once j j' name h h' := by
    obtain ⟨rfl, p, here, hold⟩ | ⟨ne, theirs⟩ := (update_phase _ _ _ _).mp h
    all_goals obtain ⟨rfl, p', here', hold'⟩ | ⟨ne', theirs'⟩ := (update_phase _ _ _ _).mp h'
    · rfl
    · exact absurd theirs' (once name p here hold j' ne')
    · exact absurd theirs (once name p' here' hold' j ne)
    · exact inv.once j j' name theirs theirs'
  finalizing := finalizing
  settled := settled

/-- Nothing of an identifier that a job of its own holds is finalized by another one. -/
theorem Inv.not_finalizing (inv : Inv s) (here : s.jobs job = some ⟨id, phase⟩)
    (holds : phase.holds = true) (ne : other ≠ job) : s.jobs other ≠ some ⟨id, .finalizing⟩ :=
  fun finalizing => ne (inv.once other job id ⟨_, finalizing, rfl⟩ ⟨_, here, holds⟩)

/-- A step of the registry that no job's phase depends on. -/
theorem Inv.withState {ids : List String} (inv : Inv s) (frame : Frame ids s.state t)
    (settled : ∀ job, ∀ name ∈ ids, s.SettledAt job name → ∀ draft, t.find name = some draft →
      draft.status.isActive = false) : Inv { s with state := t } where
  state := frame.inv
  owned name := by
    rw [frame.active name]
    exact inv.owned name
  single := inv.single
  held := inv.held
  once := inv.once
  finalizing job name here := by
    have same := frame.active name
    rw [inv.finalizing job name here] at same
    simpa using same
  settled job name here draft found := by
    by_cases named : name ∈ ids
    · exact settled job name named here draft found
    · have owned := (inv.owned name).mpr ⟨job, _, here, rfl⟩
      rw [frame.others name owned named] at found
      exact inv.settled job name here draft found

/-- What a job owns besides: the others own what they owned. -/
theorem Inv.owned_others (inv : Inv s) (here : s.jobs job = some ⟨id, phase⟩) (name : String) :
    (s.state.active.lookup name).isSome ↔
      (name = id ∧ phase.owns = true) ∨ ∃ other ≠ job, s.Owns other name := by
  rw [inv.owned name]
  constructor
  · rintro ⟨other, p, found, own⟩
    by_cases ne : other = job
    · subst ne
      cases found.symm.trans here
      exact .inl ⟨rfl, own⟩
    · exact .inr ⟨other, ne, p, found, own⟩
  · rintro (⟨rfl, own⟩ | ⟨other, -, theirs⟩)
    · exact ⟨job, phase, here, own⟩
    · exact ⟨other, theirs⟩

/-- A job goes on to a phase that owns the same, and holds no more. -/
theorem Inv.setJob (inv : Inv s) (here : s.jobs job = some ⟨id, phase⟩)
    (owns : phase'.owns = phase.owns) (holds : phase'.holds = true → phase.holds = true)
    (kept : ∀ name ∈ s.guards, name ∈ guards ∨ name = id ∧ phase'.holds = false ∧ phase.holds = true)
    (finalizing : phase' = .finalizing → s.state.active.lookup id = none)
    (settled : phase' = .settled (.ok ()) → ∀ draft, s.state.find id = some draft →
      draft.status.isActive = false) : Inv { s.setJob job id phase' with guards } := by
  refine inv.replace inv.state (fun name => ?_) (fun name p new own other ne theirs => ?_)
    (fun name hold => ?_) (fun name p new hold other ne theirs => ?_) (fun other name new => ?_)
    fun other name new => ?_
  · refine (inv.owned_others here name).trans (or_congr_left ⟨?_, ?_⟩)
    · rintro ⟨rfl, own⟩
      exact ⟨_, rfl, owns.trans own⟩
    · rintro ⟨p, new, own⟩
      cases new
      exact ⟨rfl, owns.symm.trans own⟩
  · cases new
    exact ne (inv.single other job _ theirs ⟨phase, here, owns.symm.trans own⟩)
  · obtain ⟨p, new, hold⟩ | ⟨other, ne, theirs⟩ := hold
    · cases new
      obtain mem | ⟨-, lost, -⟩ := kept _ (inv.held job _ ⟨phase, here, holds hold⟩)
      · exact mem
      · rw [hold] at lost
        cases lost
    · obtain mem | ⟨rfl, -, held⟩ := kept name (inv.held other name theirs)
      · exact mem
      · exact absurd (inv.once other job name theirs ⟨phase, here, held⟩) ne
  · cases new
    exact ne (inv.once other job _ theirs ⟨phase, here, holds hold⟩)
  · by_cases ne : other = job
    · subst ne
      rw [Function.update_self] at new
      cases new
      exact finalizing rfl
    · rw [Function.update_of_ne ne] at new
      exact inv.finalizing other name new
  · by_cases ne : other = job
    · subst ne
      rw [Function.update_self] at new
      cases new
      exact settled rfl
    · rw [Function.update_of_ne ne] at new
      exact inv.settled other name new

/-- A call takes a free admission. -/
theorem Inv.beginJob (inv : Inv s) (holds : phase.holds = true) (owns : phase.owns = false)
    (other : phase ≠ .finalizing) : Inv (s.beginJob job id phase) := by
  unfold System.beginJob
  split
  next => exact inv
  next free =>
  simp only [Bool.or_eq_true, not_or, Option.isSome_iff_ne_none, ne_eq, not_not,
    List.contains_iff_mem] at free
  obtain ⟨idle, free⟩ := free
  have unheld (j : Nat) : ¬ s.Holds j id := fun h => free (inv.held j id h)
  refine inv.replace inv.state (fun name => (inv.owned name).trans ⟨?_, ?_⟩)
    (fun name p new own => ?_) (fun name hold => ?_) (fun name p new hold other ne => ?_)
    (fun j name new => ?_) fun j name new => ?_
  · rintro ⟨j, p, found, own⟩
    refine .inr ⟨j, ?_, p, found, own⟩
    rintro rfl
    rw [idle] at found
    cases found
  · rintro (⟨p, new, own⟩ | ⟨j, -, theirs⟩)
    · cases new
      rw [owns] at own
      cases own
    · exact ⟨j, theirs⟩
  · cases new
    rw [owns] at own
    cases own
  · obtain ⟨p, new, -⟩ | ⟨j, -, theirs⟩ := hold
    · cases new
      exact List.mem_cons_self
    · exact List.mem_cons_of_mem _ (inv.held j name theirs)
  · cases new
    exact unheld other
  · by_cases ne : j = job
    · subst ne
      rw [Function.update_self] at new
      cases new
      exact absurd rfl other
    · rw [Function.update_of_ne ne] at new
      exact inv.finalizing j name new
  · by_cases ne : j = job
    · subst ne
      rw [Function.update_self] at new
      cases new
      cases holds
    · rw [Function.update_of_ne ne] at new
      exact inv.settled j name new

/-- A job that is over. -/
theorem Inv.endJob (inv : Inv s) (here : s.jobs job = some ⟨id, phase⟩) (state : StateInv t)
    (active : ∀ name, (t.active.lookup name).isSome ↔
      (s.state.active.lookup name).isSome ∧ ¬ (name = id ∧ phase.owns = true))
    (finds : ∀ name, name ≠ id ∨ phase.owns = false → t.find name = s.state.find name)
    (kept : ∀ name ∈ s.guards, name ∈ guards ∨ name = id ∧ phase.holds = true) :
    Inv ⟨t, guards, Function.update s.jobs job none⟩ := by
  have elsewhere {j : Nat} {name : String} {p : JobPhase}
      (new : Function.update s.jobs job none j = some ⟨name, p⟩) :
      j ≠ job ∧ s.jobs j = some ⟨name, p⟩ := by
    by_cases ne : j = job
    · subst ne
      rw [Function.update_self] at new
      cases new
    · rw [Function.update_of_ne ne] at new
      exact ⟨ne, new⟩
  refine inv.replace state (fun name => (active name).trans ⟨?_, ?_⟩) (fun _ _ new => nomatch new)
    (fun name hold => ?_) (fun _ _ new => nomatch new) (fun j name new => ?_) fun j name new => ?_
  · rintro ⟨owned, not⟩
    exact .inr (((inv.owned_others here name).mp owned).resolve_left not)
  · rintro (⟨p, new, -⟩ | ⟨j, ne, theirs⟩)
    · cases new
    · refine ⟨(inv.owned name).mpr ⟨j, theirs⟩, ?_⟩
      rintro ⟨rfl, own⟩
      exact ne (inv.single j job name theirs ⟨phase, here, own⟩)
  · obtain ⟨p, new, -⟩ | ⟨j, ne, theirs⟩ := hold
    · cases new
    · obtain mem | ⟨rfl, held⟩ := kept name (inv.held j name theirs)
      · exact mem
      · exact absurd (inv.once j job name theirs ⟨phase, here, held⟩) ne
  · obtain ⟨-, found⟩ := elsewhere new
    have free := inv.finalizing j name found
    by_contra owned
    have owned := ((active name).mp (Option.isSome_iff_ne_none.mpr owned)).1
    rw [free] at owned
    cases owned
  · obtain ⟨ne, found⟩ := elsewhere new
    rw [finds name ?_]
    · exact inv.settled j name found
    · by_contra both
      simp only [not_or, ne_eq, not_not, Bool.not_eq_false] at both
      obtain ⟨rfl, own⟩ := both
      exact ne (inv.single j job name ⟨_, found, rfl⟩ ⟨phase, here, own⟩)

end Jobs

/-! ## The acts -/

section Acts

variable {isUuid : String → Bool} {io : StoreIo} {s : System} {job : Nat} {id : String}
  {phase : JobPhase}

/-- The condition: no cancellation is saved between the last look of an execution's guard at its
draft and the draft's leave from the active set. -/
def Undisturbed (s : System) : Act → Prop
  | .cancel id io => io.saved = .ok () → ∀ job, ¬ s.SettledAt job id
  | _ => True

theorem interruptUnsaved_id (error : String) (draft : InstallationDraft) :
    (State.interruptUnsaved error draft).id = draft.id := rfl

/-- Leaving the active set keeps the registry's invariant when the draft is settled. -/
theorem endExecution_inv {s : State} {recovery : Except String Unit} (inv : StateInv s)
    (settled : recovery = .ok () → ∀ draft, s.find id = some draft →
      draft.status.isActive = false) : StateInv (s.endExecution id recovery) := by
  have erased {other : String} (owned : ((s.active.erase id).lookup other).isSome) :
      (s.active.lookup other).isSome ∧ other ≠ id := by
    by_cases here : other = id
    · subst here
      rw [AList.lookup_erase] at owned
      cases owned
    · rw [AList.lookup_erase_ne here] at owned
      exact ⟨owned, here⟩
  have kept {draft : InstallationDraft} (ne : draft.id ≠ id)
      (owned : (s.active.lookup draft.id).isSome) :
      ((s.active.erase id).lookup draft.id).isSome := by
    rwa [AList.lookup_erase_ne ne]
  have unloaded (empty : s.drafts = none) (other : String) :
      (s.active.erase id).lookup other = none := by
    by_contra owned
    have owned := (erased (Option.isSome_iff_ne_none.mpr owned)).1
    rw [inv.unloaded empty] at owned
    cases owned
  cases recovery with
  | ok _ =>
    refine ⟨inv.lone, unloaded, fun draft mem active => kept ?_ (inv.covered draft mem active),
      fun other draft owned found => inv.unfinished other draft (erased owned).1 found⟩
    intro named
    rw [inv.lone.inactive (settled rfl) mem named] at active
    cases active
  | error error =>
    cases drafts : s.drafts with
    | none =>
      have same : s.endExecution id (.error error) = { s with active := s.active.erase id } := by
        simp [State.endExecution, drafts]
      have empty : s.list = [] := by
        rw [State.list, drafts]
        rfl
      rw [same]
      refine ⟨inv.lone, unloaded, fun draft mem _ => ?_,
        fun other draft owned found => inv.unfinished other draft (erased owned).1 found⟩
      have mem : draft ∈ s.list := mem
      rw [empty] at mem
      cases mem
    | some list =>
      have here : s.list = list := by
        rw [State.list, drafts]
        rfl
      have same : s.endExecution id (.error error) =
          { s.write id (State.interruptUnsaved error) with active := s.active.erase id } := by
        simp [State.endExecution, State.write, drafts, here]
      rw [same]
      have lone := @lone_changeFirst _ id _ (interruptUnsaved_id error) inv.lone
      refine ⟨lone, (fun empty => by cases empty), fun draft mem active => kept ?_ ?_, fun other draft owned found => ?_⟩
      · intro named
        have first : ∀ draft, (s.write id (State.interruptUnsaved error)).find id = some draft →
            draft.status.isActive = false := by
          intro draft found
          rw [write_find_self (interruptUnsaved_id error)] at found
          obtain ⟨first, -, rfl⟩ := Option.map_eq_some_iff.mp found
          rfl
        rw [lone.inactive first mem named] at active
        cases active
      · obtain mem | ⟨first, found, rfl⟩ := mem_changeFirst mem
        · exact inv.covered draft mem active
        · cases active
      · obtain ⟨owned, ne⟩ := erased owned
        have found : (s.write id (State.interruptUnsaved error)).find other = some draft := found
        rw [write_find_of_ne (interruptUnsaved_id error) ne] at found
        exact inv.unfinished other draft owned found

theorem endExecution_active (recovery : Except String Unit) (s : State) (name : String) :
    ((s.endExecution id recovery).active.lookup name).isSome ↔
      (s.active.lookup name).isSome ∧ name ≠ id := by
  by_cases here : name = id
  · subst here
    simp [State.endExecution, AList.lookup_erase]
  · simp [State.endExecution, AList.lookup_erase_ne here, here]

theorem endExecution_find (recovery : Except String Unit) (s : State) {name : String} (ne : name ≠ id) :
    (s.endExecution id recovery).find name = s.find name := by
  cases recovery with
  | ok _ => rfl
  | error error =>
    cases drafts : s.drafts with
    | none => simp [State.endExecution, State.find, State.list, drafts]
    | some list =>
      have found := @find_changeFirst list id name _ (interruptUnsaved_id error)
      rw [if_neg ne] at found
      simpa [State.endExecution, State.find, State.list, drafts] using found

theorem create_settled {input : CreateInstallation} {runnerKnown installerExists : Bool}
    (inv : Inv s) (here : s.SettledAt job id) {draft : InstallationDraft}
    (found : (s.state.create isUuid io id input runnerKnown installerExists).2.find id = some draft) :
    draft.status.isActive = false := by
  have owned := (inv.owned id).mpr ⟨job, _, here, rfl⟩
  have loaded {t : State} (h : s.state.load isUuid io = .ok t) : t = s.state :=
    Except.ok.inj (h.symm.trans (inv.state.load_owned owned))
  obtain same | ⟨t, h, same | ⟨-, -, done⟩⟩ :=
    @create_cases isUuid io id input runnerKnown installerExists s.state
  · rw [same] at found
    exact inv.settled job id here draft found
  · rw [same, loaded h] at found
    exact inv.settled job id here draft found
  · rw [done, loaded h] at found
    have found := (List.find?_append ..).symm.trans found
    obtain found | ⟨-, found⟩ := Option.or_eq_some_iff.mp found
    · exact inv.settled job id here draft found
    · have mem := List.mem_of_find?_eq_some found
      obtain rfl := List.mem_singleton.mp mem
      rfl

/-- A cancellation that is not saved leaves a settled draft settled. -/
theorem cancel_settled (inv : Inv s) (here : s.SettledAt job id) (unsaved : io.saved ≠ .ok ())
    {draft : InstallationDraft} (found : (s.state.cancel isUuid io id).2.find id = some draft) :
    draft.status.isActive = false := by
  have owned := (inv.owned id).mpr ⟨job, _, here, rfl⟩
  have loaded {t : State} (h : s.state.load isUuid io = .ok t) : t = s.state :=
    Except.ok.inj (h.symm.trans (inv.state.load_owned owned))
  obtain same | ⟨t, h, same | ⟨-, done | ⟨saved, -⟩⟩⟩ :=
    @cancel_cases isUuid io id s.state
  · rw [same] at found
    exact inv.settled job id here draft found
  · rw [same, loaded h] at found
    exact inv.settled job id here draft found
  · rw [done, loaded h] at found
    exact inv.settled job id here draft found
  · exact absurd saved unsaved

theorem Inv.moved (inv : Inv s) (here : s.jobs job = some ⟨id, phase⟩) {phase' : JobPhase}
    (owns : phase'.owns = phase.owns) (holds : phase'.holds = phase.holds)
    (finalizing : phase' = .finalizing → s.state.active.lookup id = none)
    (settled : phase' = .settled (.ok ()) → ∀ draft, s.state.find id = some draft →
      draft.status.isActive = false) : Inv (s.setJob job id phase') :=
  inv.setJob here owns (fun h => holds ▸ h) (fun _ mem => .inl mem) finalizing settled

/-- A transaction that begins the execution. -/
theorem reserved_inv (inv : Inv s) (here : s.jobs job = some ⟨id, .reserving⟩) {t : State}
    (loaded : Loaded s.state t) (free : t.active.lookup id = none) :
    Inv { s.setJob job id .reserved with
      state := { t.write id State.preparing with active := t.active.insert id false } } := by
  have inv : Inv { s with state := t } := inv.withState (loaded.frame inv.state []) nofun
  refine inv.replace (reserve_frame inv.state free) (fun name => ?_)
    (fun name p new own other ne theirs => ?_) (fun name hold => ?_)
    (fun name p new hold other ne theirs => ?_) (fun other name new => ?_)
    fun other name new draft found => ?_
  · have others := inv.owned_others here name
    by_cases named : name = id
    · subst named
      rw [AList.lookup_insert]
      exact iff_of_true rfl (.inl ⟨_, rfl, rfl⟩)
    · rw [AList.lookup_insert_ne named]
      refine others.trans ⟨?_, ?_⟩
      · rintro (⟨-, own⟩ | theirs)
        · cases own
        · exact .inr theirs
      · rintro (⟨p, new, -⟩ | theirs)
        · cases new
          exact absurd rfl named
        · exact .inr theirs
  · cases new
    have owned := (inv.owned id).mpr ⟨other, theirs⟩
    rw [show t.active.lookup id = none from free] at owned
    cases owned
  · obtain ⟨p, new, -⟩ | ⟨other, -, theirs⟩ := hold
    · cases new
      exact inv.held job id ⟨_, here, rfl⟩
    · exact inv.held other name theirs
  · cases new
    exact ne (inv.once other job id theirs ⟨_, here, rfl⟩)
  · by_cases ne : other = job
    · subst ne
      rw [Function.update_self] at new
      cases new
    · rw [Function.update_of_ne ne] at new
      have apart : name ≠ id := by
        rintro rfl
        exact inv.not_finalizing here rfl ne new
      rw [AList.lookup_insert_ne apart]
      exact inv.finalizing other name new
  · by_cases ne : other = job
    · subst ne
      rw [Function.update_self] at new
      cases new
    · rw [Function.update_of_ne ne] at new
      have owned := (inv.owned name).mpr ⟨other, _, new, rfl⟩
      have apart : name ≠ id := by
        rintro rfl
        rw [show t.active.lookup name = none from free] at owned
        cases owned
      have found : (t.write id State.preparing).find name = some draft := found
      rw [write_find_of_ne preparing_id apart] at found
      exact inv.settled other name new draft found

/-- **One transaction of a job.** -/
theorem transact_inv (inv : Inv s) (here : s.jobs job = some ⟨id, phase⟩) {phase' : JobPhase}
    {t : State} (next : System.transactJob isUuid io id s.state phase = some (phase', t)) :
    Inv { s.setJob job id phase' with state := t } := by
  have go {ids : List String} {u : State} {p : JobPhase} (frame : Frame ids s.state u)
      (settled : ∀ job, ∀ name ∈ ids, s.SettledAt job name → ∀ draft, u.find name = some draft →
        draft.status.isActive = false)
      (owns : p.owns = phase.owns) (holds : p.holds = phase.holds)
      (finalizing : p = .finalizing → u.active.lookup id = none)
      (settled' : p = .settled (.ok ()) → ∀ draft, u.find id = some draft →
        draft.status.isActive = false) : Inv { s.setJob job id p with state := u } :=
    (inv.withState frame settled).moved here owns holds finalizing settled'
  have nobody {u : State} : ∀ job, ∀ name ∈ ([] : List String), s.SettledAt job name → ∀ draft,
      u.find name = some draft → draft.status.isActive = false :=
    fun _ _ mem => absurd mem List.not_mem_nil
  cases phase with
  | reserving =>
    simp only [System.transactJob] at next
    obtain ⟨e, failed⟩ | ⟨u, loaded, ⟨e, failed⟩ | ⟨-, -, free, draft, -, -, done⟩⟩ :=
      @reserve_cases isUuid io id s.state
    · rw [failed] at next
      cases next
      exact go (.refl inv.state []) nobody rfl rfl (fun p => by cases p) (fun p => by cases p)
    · rw [failed] at next
      cases next
      exact go ((load_ok loaded).frame inv.state []) nobody rfl rfl (fun p => by cases p) (fun p => by cases p)
    · rw [done] at next
      cases next
      exact reserved_inv inv here (load_ok loaded) free
  | dropping =>
    have owned := (inv.owned id).mpr ⟨job, _, here, rfl⟩
    have loaded := @StateInv.load_owned isUuid io _ _ inv.state owned
    simp only [System.transactJob] at next
    obtain ⟨e, unread, -⟩ | ⟨u, read, ⟨e, missing, none⟩ | ⟨draft, found, done⟩⟩ :=
      @get_cases isUuid io id s.state
    · rw [loaded] at unread
      cases unread
    · cases loaded.symm.trans read
      rw [missing] at next
      cases next
      refine go (.refl inv.state []) nobody rfl rfl (fun p => by cases p) fun _ draft found => ?_
      rw [none] at found
      cases found
    · cases loaded.symm.trans read
      rw [done] at next
      simp only [Option.some.injEq, Prod.mk.injEq] at next
      obtain ⟨rfl, rfl⟩ := next
      split
      next => exact go (.refl inv.state []) nobody rfl rfl (fun p => by cases p) (fun p => by cases p)
      next inactive =>
        refine go (.refl inv.state []) nobody rfl rfl (fun p => by cases p) fun _ draft' found' => ?_
        cases found.symm.trans found'
        simpa using inactive
  | recovering =>
    have owned := (inv.owned id).mpr ⟨job, _, here, rfl⟩
    have frame := @update_frame_owned isUuid io _ id _ interruptActive_id interruptActive_going
      inv.state owned
    have others (other : Nat) : ∀ name ∈ [id], s.SettledAt other name → ∀ draft,
        (s.state.update isUuid io id State.interruptActive).2.find name = some draft →
          draft.status.isActive = false := by
      intro name mem settled
      obtain rfl := List.mem_singleton.mp mem
      cases inv.single other job name ⟨_, settled, rfl⟩ ⟨_, here, rfl⟩
      cases here.symm.trans settled
    simp only [System.transactJob] at next
    obtain ⟨e, failed⟩ | ⟨u, -, ⟨e, failed⟩ | ⟨-, draft, found, done⟩⟩ :=
      @update_cases isUuid io id State.interruptActive s.state
    · rw [failed] at next frame others
      cases next
      exact go frame others rfl rfl (fun p => by cases p) (fun p => by cases p)
    · rw [failed] at next frame others
      cases next
      exact go frame others rfl rfl (fun p => by cases p) (fun p => by cases p)
    · rw [done] at next frame others
      cases next
      refine go frame others rfl rfl (fun p => by cases p) fun _ draft' found' => ?_
      rw [write_find_self interruptActive_id] at found'
      obtain ⟨first, -, rfl⟩ := Option.map_eq_some_iff.mp found'
      exact interruptActive_inactive first
  | confirming =>
    have frame := @get_frame isUuid io _ id inv.state
    simp only [System.transactJob] at next
    split at next
    next draft u got =>
      rw [got] at frame
      cases next
      exact go frame nobody rfl rfl (fun p => by cases p) (fun p => by cases p)
    next e u got =>
      rw [got] at frame
      cases next
      exact go frame nobody rfl rfl (fun p => by cases p) (fun p => by cases p)
  | fetched draft =>
    have frame := @isActive_frame isUuid io _ id inv.state
    simp only [System.transactJob] at next
    split at next
    next u got =>
      rw [got] at frame
      simp only [Option.some.injEq, Prod.mk.injEq] at next
      obtain ⟨rfl, rfl⟩ := next
      obtain ⟨e, -, failed⟩ | ⟨v, -, done⟩ := @isActive_cases isUuid io id s.state
      · cases got.symm.trans failed
      obtain ⟨answer, rfl⟩ := Prod.mk.inj (got.symm.trans done)
      have free : u.active.lookup id = none := by simpa using (Except.ok.inj answer).symm
      split
      next => exact go frame nobody rfl rfl (fun _ => free) (fun p => by cases p)
      next => exact go frame nobody rfl rfl (fun p => by cases p) (fun p => by cases p)
    next u _ got =>
      rw [got] at frame
      cases next
      exact go frame nobody rfl rfl (fun p => by cases p) (fun p => by cases p)
  | finalizing =>
    have free := inv.finalizing job id here
    simp only [System.transactJob] at next
    cases next
    refine go (complete_frame inv.state free) (fun other name mem settled => ?_) rfl rfl (fun p => by cases p) (fun p => by cases p)
    obtain rfl := List.mem_singleton.mp mem
    have owned := (inv.owned name).mpr ⟨other, _, settled, rfl⟩
    rw [free] at owned
    cases owned
  | _ => cases next

/-- A job goes on. -/
theorem proceed_inv (inv : Inv s) (job : Nat) : Inv (s.perform isUuid (.proceed job)) := by
  simp only [System.perform]
  split
  next id here =>
    refine inv.setJob here rfl nofun (fun name mem => ?_) nofun nofun
    by_cases named : name = id
    · exact .inr ⟨named, rfl, rfl⟩
    · exact .inl ((List.mem_erase_of_ne named).mpr mem)
  next id here => exact inv.moved here rfl rfl nofun nofun
  next id recovery here =>
    refine inv.endJob here (endExecution_inv inv.state ?_) (fun name => ?_) (fun name apart => ?_)
      fun _ mem => .inl mem
    · rintro rfl
      exact inv.settled job id here
    · rw [endExecution_active]
      exact and_congr_right fun _ => by simp [JobPhase.owns]
    · obtain ne | own := apart
      · exact endExecution_find recovery s.state ne
      · cases own
  next id here => exact inv.moved here rfl rfl nofun nofun
  next id here =>
    refine inv.endJob here inv.state (fun name => ?_) (fun _ _ => rfl) fun name mem => ?_
    · exact (and_iff_left fun ⟨_, own⟩ => by cases own).symm
    by_cases named : name = id
    · exact .inr ⟨named, rfl⟩
    · exact .inl ((List.mem_erase_of_ne named).mpr mem)
  next => exact inv

/-- **One act.** -/
theorem Inv.perform (inv : Inv s) {act : Act} (undisturbed : Undisturbed s act) :
    Inv (s.perform isUuid act) := by
  cases act with
  | create id input runnerKnown installerExists io =>
    refine inv.withState (create_frame id input runnerKnown installerExists inv.state)
      fun job name mem here draft found => ?_
    obtain rfl := List.mem_singleton.mp mem
    exact create_settled inv here found
  | get id io => exact inv.withState (get_frame inv.state) nofun
  | cancel id io =>
    refine inv.withState (cancel_frame inv.state) fun job name mem here draft found => ?_
    obtain rfl := List.mem_singleton.mp mem
    exact cancel_settled inv here (fun saved => undisturbed saved job here) found
  | requestShutdown =>
    exact inv.withState (flags_frame inv.state rfl fun other => by
      simp [State.requestShutdown]) nofun
  | closeAdmission =>
    have frame : Frame [] s.state s.state.closeAdmissionIfIdle.2 := by
      unfold State.closeAdmissionIfIdle
      split
      next => exact .refl inv.state _
      split
      next => exact .refl inv.state _
      next => exact flags_frame inv.state rfl fun _ => rfl
    exact inv.withState frame nofun
  | reopenAdmission => exact inv.withState (flags_frame inv.state rfl fun _ => rfl) nofun
  | reserve job id => exact inv.beginJob rfl rfl nofun
  | confirm job id => exact inv.beginJob rfl rfl nofun
  | execute job update io =>
    simp only [System.perform]
    split
    next id here =>
      have owned := (inv.owned id).mpr ⟨job, _, here, rfl⟩
      refine inv.withState (update_frame_owned (apply_id update) (apply_going update) inv.state
        owned) fun other name mem settled => ?_
      obtain rfl := List.mem_singleton.mp mem
      cases inv.single other job name ⟨_, settled, rfl⟩ ⟨_, here, rfl⟩
      cases here.symm.trans settled
    next => exact inv
  | transact job io =>
    simp only [System.perform]
    split
    next id phase here =>
      split
      next phase' t next => exact transact_inv inv here next
      next => exact inv
    next => exact inv
  | proceed job => exact proceed_inv inv job

theorem Inv.new : Inv System.new := by
  have idle (job : Nat) (id : String) (phase : JobPhase) : System.new.jobs job ≠ some ⟨id, phase⟩ :=
    Option.some_ne_none _ ∘ Eq.symm
  refine ⟨⟨.nil, fun _ _ => rfl, fun _ mem => ?_, fun _ _ owned _ => ?_⟩, fun id => ⟨fun owned => ?_,
    fun ⟨job, phase, here, _⟩ => ?_⟩, fun job _ id ⟨phase, here, _⟩ => ?_,
    fun job id ⟨phase, here, _⟩ => ?_, fun job _ id ⟨phase, here, _⟩ => ?_,
    fun job id here => ?_, fun job id here => ?_⟩
  · cases mem
  · cases owned
  · cases owned
  all_goals exact absurd here (idle job id _)

end Acts

/-! ## What lasts -/

section Lasting

variable {isUuid : String → Bool} {io : StoreIo} {s : System} {id : String}

/-- A completed draft is not reserved. -/
theorem reserve_completed {s : State} {draft : InstallationDraft}
    (mem : draft ∈ s.list) (done : draft.status = .completed) :
    draft ∈ (s.reserve isUuid io id).2.list := by
  obtain ⟨e, failed⟩ | ⟨t, loaded, ⟨e, failed⟩ | ⟨-, -, -, found, here, restart, reserved⟩⟩ :=
    @reserve_cases isUuid io id s
  · rwa [failed]
  · rw [failed]
    exact (load_ok loaded).mem mem
  · rw [reserved]
    refine mem_changeFirst_of_mem ((load_ok loaded).mem mem) fun first => ?_
    cases here.symm.trans first
    rw [done] at restart
    cases restart

/-- An execution that ends leaves the completed drafts: its own is none of them. -/
theorem endExecution_completed {s : State} {recovery : Except String Unit} (inv : StateInv s)
    (owned : (s.active.lookup id).isSome) {draft : InstallationDraft} (mem : draft ∈ s.list)
    (done : draft.status = .completed) : draft ∈ (s.endExecution id recovery).list := by
  cases recovery with
  | ok _ => exact mem
  | error error =>
    cases drafts : s.drafts with
    | none =>
      rw [State.list, drafts] at mem
      cases mem
    | some list =>
      have here : s.list = list := by
        rw [State.list, drafts]
        rfl
      have same : (s.endExecution id (.error error)).list =
          changeFirst id (State.interruptUnsaved error) s.list := by
        simp [State.endExecution, State.list, drafts]
      rw [same]
      exact mem_changeFirst_of_mem mem fun found =>
        absurd done (inv.unfinished id draft owned found)

/-- **A completed draft stays as it is.** -/
theorem Inv.completed (inv : Inv s) (act : Act) {draft : InstallationDraft}
    (mem : draft ∈ s.state.list) (done : draft.status = .completed) :
    draft ∈ (s.perform isUuid act).state.list := by
  cases act with
  | create id input runnerKnown installerExists io =>
    exact (create_frame id input runnerKnown installerExists inv.state).completed draft mem done
  | get id io => exact (get_frame inv.state).completed draft mem done
  | cancel id io => exact (cancel_frame inv.state).completed draft mem done
  | requestShutdown | reopenAdmission => exact mem
  | closeAdmission =>
    simp only [System.perform, State.closeAdmissionIfIdle]
    split
    next => exact mem
    split
    next => exact mem
    next => exact mem
  | reserve job id | confirm job id =>
    simp only [System.perform, System.beginJob]
    split
    next => exact mem
    next => exact mem
  | execute job update io =>
    simp only [System.perform]
    split
    next id here =>
      have owned := (inv.owned id).mpr ⟨job, _, here, rfl⟩
      exact (update_frame_owned (apply_id update) (apply_going update) inv.state owned).completed
        draft mem done
    next => exact mem
  | transact job io =>
    simp only [System.perform]
    split
    next id phase here =>
      split
      next phase' t next =>
        obtain ⟨-, rfl⟩ | rfl | ⟨rfl, rfl⟩ | rfl | ⟨rfl, rfl⟩ := transactJob_state next
        · exact reserve_completed mem done
        · exact (get_frame inv.state).completed draft mem done
        · have owned := (inv.owned id).mpr ⟨job, _, here, rfl⟩
          exact (update_frame_owned interruptActive_id interruptActive_going inv.state
            owned).completed draft mem done
        · exact (isActive_frame inv.state).completed draft mem done
        · exact (complete_frame inv.state (inv.finalizing job id here)).completed draft mem done
      next => exact mem
    next => exact mem
  | proceed job =>
    simp only [System.perform]
    split
    next => exact mem
    next => exact mem
    next id recovery here =>
      exact endExecution_completed inv.state ((inv.owned id).mpr ⟨job, _, here, rfl⟩) mem done
    all_goals exact mem

/-- The drafts in memory are the ones there were, loaded if they had not been. -/
def Untouched (isUuid : String → Bool) (io : StoreIo) (s t : State) : Prop :=
  t.drafts = s.drafts ∨ ∃ loaded, s.load isUuid io = .ok loaded ∧ t.drafts = loaded.drafts

section Unsaved

variable {e : String} (unsaved : io.saved = .error e)

include unsaved

theorem update_untouched (id : String) (change : InstallationDraft → InstallationDraft) (s : State) :
    Untouched isUuid io s (s.update isUuid io id change).2 := by
  obtain ⟨_, failed⟩ | ⟨t, loaded, ⟨_, failed⟩ | ⟨saved, -⟩⟩ := @update_cases isUuid io id change s
  · exact .inl (by rw [failed])
  · exact .inr ⟨t, loaded, by rw [failed]⟩
  · cases unsaved.symm.trans saved

theorem create_untouched (id : String) (input : CreateInstallation)
    (runnerKnown installerExists : Bool) (s : State) :
    Untouched isUuid io s (s.create isUuid io id input runnerKnown installerExists).2 := by
  obtain same | ⟨t, loaded, same | ⟨saved, -⟩⟩ :=
    @create_cases isUuid io id input runnerKnown installerExists s
  · exact .inl (by rw [same])
  · exact .inr ⟨t, loaded, by rw [same]⟩
  · cases unsaved.symm.trans saved

theorem reserve_untouched (id : String) (s : State) :
    Untouched isUuid io s (s.reserve isUuid io id).2 := by
  obtain ⟨_, failed⟩ | ⟨t, loaded, ⟨_, failed⟩ | ⟨saved, -⟩⟩ := @reserve_cases isUuid io id s
  · exact .inl (by rw [failed])
  · exact .inr ⟨t, loaded, by rw [failed]⟩
  · cases unsaved.symm.trans saved

theorem cancel_untouched (id : String) (s : State) :
    Untouched isUuid io s (s.cancel isUuid io id).2 := by
  obtain same | ⟨t, loaded, same | ⟨-, told | ⟨saved, -⟩⟩⟩ := @cancel_cases isUuid io id s
  · exact .inl (by rw [same])
  · exact .inr ⟨t, loaded, by rw [same]⟩
  · exact .inr ⟨t, loaded, by rw [told]⟩
  · cases unsaved.symm.trans saved

end Unsaved

theorem get_untouched (id : String) (s : State) : Untouched isUuid io s (s.get isUuid io id).2 := by
  obtain ⟨_, -, failed⟩ | ⟨t, loaded, ⟨_, failed, -⟩ | ⟨draft, -, done⟩⟩ := @get_cases isUuid io id s
  · exact .inl (by rw [failed])
  · exact .inr ⟨t, loaded, by rw [failed]⟩
  · exact .inr ⟨t, loaded, by rw [done]⟩

theorem isActive_untouched (id : String) (s : State) :
    Untouched isUuid io s (s.isActive isUuid io id).2 := by
  obtain ⟨_, -, failed⟩ | ⟨t, loaded, done⟩ := @isActive_cases isUuid io id s
  · exact .inl (by rw [failed])
  · exact .inr ⟨t, loaded, by rw [done]⟩

/-- **What is not saved is not kept.** -/
theorem perform_untouched {act : Act} {e : String} (asks : act.io = some io)
    (unsaved : io.saved = .error e) : Untouched isUuid io s.state (s.perform isUuid act).state := by
  cases act with
  | create id input runnerKnown installerExists _ =>
    cases asks
    exact create_untouched unsaved id input runnerKnown installerExists s.state
  | get id _ =>
    cases asks
    exact get_untouched id s.state
  | cancel id _ =>
    cases asks
    exact cancel_untouched unsaved id s.state
  | execute job update _ =>
    cases asks
    simp only [System.perform]
    split
    next id here => exact update_untouched unsaved id update.apply s.state
    next => exact .inl rfl
  | transact job _ =>
    cases asks
    simp only [System.perform]
    split
    next id phase here =>
      split
      next phase' t next =>
        obtain ⟨-, rfl⟩ | rfl | ⟨-, rfl⟩ | rfl | ⟨-, rfl⟩ := transactJob_state next
        · exact reserve_untouched unsaved id s.state
        · exact get_untouched id s.state
        · exact update_untouched unsaved id _ s.state
        · exact isActive_untouched id s.state
        · exact update_untouched unsaved id _ s.state
      next => exact .inl rfl
    next => exact .inl rfl
  | _ => cases asks

/-- Without the file, only an execution whose recovery was not saved changes its draft. -/
theorem perform_silent {act : Act} (silent : act.io = none) :
    (s.perform isUuid act).state.drafts = s.state.drafts ∨
      ∃ job id e, act = .proceed job ∧ s.jobs job = some ⟨id, .settled (.error e)⟩ ∧
        (s.perform isUuid act).state.drafts =
          s.state.drafts.map (changeFirst id (State.interruptUnsaved e)) := by
  cases act with
  | requestShutdown | reopenAdmission => exact .inl rfl
  | closeAdmission =>
    refine .inl ?_
    simp only [System.perform, State.closeAdmissionIfIdle]
    split
    next => rfl
    split
    next => rfl
    next => rfl
  | reserve job id | confirm job id =>
    refine .inl ?_
    simp only [System.perform, System.beginJob]
    split
    next => rfl
    next => rfl
  | proceed job =>
    simp only [System.perform]
    split
    next => exact .inl rfl
    next => exact .inl rfl
    next id recovery here =>
      cases recovery with
      | ok _ => exact .inl rfl
      | error e => exact .inr ⟨job, id, e, rfl, here, rfl⟩
    all_goals exact .inl rfl
  | _ => cases silent

end Lasting

/-! ## The runs -/

namespace System

variable (isUuid : String → Bool)

/-- One act of anybody. -/
def Moves (s t : System) : Prop := ∃ act, t = s.perform isUuid act

/-- One act of anybody that is no late cancellation. -/
def Behaves (s t : System) : Prop := ∃ act, Undisturbed s act ∧ t = s.perform isUuid act

def performAll (acts : List Act) (s : System) : System :=
  acts.foldl (fun s act => s.perform isUuid act) s

end System

section Runs

variable {isUuid : String → Bool} {s t : System}

open Relation (ReflTransGen)

theorem moves_performAll (acts : List Act) (s : System) :
    ReflTransGen (System.Moves isUuid) s (s.performAll isUuid acts) := by
  induction acts generalizing s with
  | nil => exact .refl
  | cons act acts ih => exact .head ⟨act, rfl⟩ (ih _)

theorem behaves_performAll {acts : List Act} (calm : ∀ act ∈ acts, ∀ s, Undisturbed s act)
    (s : System) : ReflTransGen (System.Behaves isUuid) s (s.performAll isUuid acts) := by
  induction acts generalizing s with
  | nil => exact .refl
  | cons act acts ih =>
    obtain ⟨first, rest⟩ := List.forall_mem_cons.mp calm
    exact .head ⟨act, first s, rfl⟩ (ih rest _)

theorem Inv.run (inv : Inv s) (run : ReflTransGen (System.Behaves isUuid) s t) : Inv t := by
  induction run with
  | refl => exact inv
  | tail _ step ih =>
    obtain ⟨act, undisturbed, rfl⟩ := step
    exact ih.perform undisturbed

theorem Inv.run_completed (inv : Inv s) (run : ReflTransGen (System.Behaves isUuid) s t)
    {draft : InstallationDraft} (mem : draft ∈ s.state.list) (done : draft.status = .completed) :
    draft ∈ t.state.list := by
  induction run with
  | refl => exact mem
  | tail before step ih =>
    obtain ⟨act, -, rfl⟩ := step
    exact (inv.run before).completed act ih done

/-- **No draft is stranded**, in a run without late cancellations: a draft that no execution owns
is not active. -/
theorem drafts_never_strand (run : ReflTransGen (System.Behaves isUuid) System.new s) :
    (∀ draft ∈ s.state.list, s.state.active.lookup draft.id = none →
      draft.status.isActive = false) ∧
    (∀ id, (s.state.active.lookup id).isSome ↔ ∃ job, s.Owns job id) ∧
    (∀ job other id, s.Owns job id → s.Owns other id → job = other) ∧
    (∀ job other id, s.jobs job = some ⟨id, .finalizing⟩ → ¬ s.Owns other id) ∧
    (∀ t, ReflTransGen (System.Behaves isUuid) s t → ∀ draft ∈ s.state.list,
      draft.status = .completed → draft ∈ t.state.list) ∧
    (∀ act io e, act.io = some io → io.saved = .error e →
      Untouched isUuid io s.state (s.perform isUuid act).state) ∧
    (∀ act, act.io = none → (s.perform isUuid act).state.drafts = s.state.drafts ∨
      ∃ job id e, act = .proceed job ∧ s.jobs job = some ⟨id, .settled (.error e)⟩ ∧
        (s.perform isUuid act).state.drafts =
          s.state.drafts.map (changeFirst id (State.interruptUnsaved e))) := by
  have inv : Inv s := Inv.new.run run
  refine ⟨fun draft mem free => ?_, inv.owned, inv.single, fun job other id finalizing owns => ?_,
    fun t later draft mem done => inv.run_completed later mem done,
    fun act io e asks unsaved => perform_untouched asks unsaved, fun act => perform_silent⟩
  · by_contra active
    have owned := inv.state.covered draft mem (by simpa using active)
    rw [free] at owned
    cases owned
  · have owned := (inv.owned id).mpr ⟨other, owns⟩
    rw [inv.finalizing job id finalizing] at owned
    cases owned

end Runs

section Samples

def sampleInput : CreateInstallation := ⟨"a", "/a.exe", none, "/r", false⟩

def sampleIo (saved : Except String Unit) : StoreIo := ⟨.ok [], .ok (), saved⟩

/-- An execution begins. -/
def sampleExecution : List Act :=
  [.create "a" sampleInput true true (sampleIo (.ok ())), .reserve 0 "a",
    .transact 0 (sampleIo (.ok ())), .proceed 0]

/-- It fails, its guard finds the draft settled, and then the draft is cancelled. -/
def lateCancel : List Act := sampleExecution ++
  [.execute 0 (.failed "x") (sampleIo (.ok ())), .proceed 0, .transact 0 (sampleIo (.ok ())),
    .cancel "a" (sampleIo (.ok ())), .proceed 0]

/-- The draft of an execution that could not be recovered is not active when it ends. -/
theorem drafts_never_strand_sample : ∃ draft,
    (System.new.performAll (fun _ => true) (sampleExecution ++ [.proceed 0,
      .transact 0 (sampleIo (.ok ())), .transact 0 (sampleIo (.error "full")),
      .proceed 0])).state.list = [draft] ∧ draft.status.isActive = false := by
  have run := @behaves_performAll (fun _ => true) (sampleExecution ++ [.proceed 0,
    .transact 0 (sampleIo (.ok ())), .transact 0 (sampleIo (.error "full")), .proceed 0])
    (by simp [sampleExecution, Undisturbed]) System.new
  exact ⟨_, rfl, (drafts_never_strand run).1 _ (List.mem_singleton.mpr rfl) rfl⟩

theorem late_cancel_strands : ∃ s draft,
    Relation.ReflTransGen (System.Moves fun _ => true) System.new s ∧
      draft ∈ s.state.list ∧ s.state.active.lookup draft.id = none ∧
      draft.status = .stopping :=
  ⟨_, _, moves_performAll lateCancel System.new, List.mem_singleton.mpr rfl, rfl, rfl⟩

end Samples

end RoLauncher.Installations
