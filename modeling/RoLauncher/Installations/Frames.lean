import RoLauncher.Installations.Drafts

/-!
# What the operations leave alone

Only the first draft of an identifier is ever written to (`Lone`), and while
its identifier is active it is not completed (`StateInv`). Each operation is
one of a few rewritings of the loaded drafts (`update_cases`, `reserve_cases`),
and leaves every other draft alone (`Frame`).
-/

namespace RoLauncher.Installations

open Tables

/-! ## The drafts -/

/-- A draft whose identifier an earlier one has is not active. -/
def Lone (drafts : List InstallationDraft) : Prop :=
  drafts.Pairwise fun earlier later => later.id = earlier.id → later.status.isActive = false

section Drafts

variable {drafts : List InstallationDraft} {id other : String} {draft : InstallationDraft}
  {change : InstallationDraft → InstallationDraft}

theorem find_changeFirst (same : ∀ draft, (change draft).id = draft.id) :
    (changeFirst id change drafts).find? (fun draft => draft.id = other) =
      if other = id then (drafts.find? fun draft => draft.id = id).map change
      else drafts.find? fun draft => draft.id = other := by
  induction drafts with
  | nil => simp [changeFirst]
  | cons head rest ih =>
    rw [changeFirst]
    by_cases here : head.id = id
    · by_cases wanted : other = id
      · simp [here, wanted, same]
      · simp [here, wanted, same, Ne.symm wanted]
    · by_cases wanted : other = id
      · subst wanted
        simpa [here] using ih
      · by_cases found : head.id = other
        · simp [wanted, found]
        · simpa [here, wanted, found] using ih

theorem mem_changeFirst (h : draft ∈ changeFirst id change drafts) :
    draft ∈ drafts ∨ ∃ first, (drafts.find? fun draft => draft.id = id) = some first ∧
      draft = change first := by
  induction drafts with
  | nil => exact .inl h
  | cons head rest ih =>
    rw [changeFirst] at h
    split at h
    next here =>
      obtain rfl | h := List.mem_cons.mp h
      · exact .inr ⟨head, by simp [here], rfl⟩
      · exact .inl (List.mem_cons_of_mem _ h)
    next here =>
      obtain rfl | h := List.mem_cons.mp h
      · exact .inl List.mem_cons_self
      · obtain found | ⟨first, found, rfl⟩ := ih h
        · exact .inl (List.mem_cons_of_mem _ found)
        · exact .inr ⟨first, by simpa [here] using found, rfl⟩

/-- A draft that the change leaves as it is stays. -/
theorem mem_changeFirst_of_mem (h : draft ∈ drafts)
    (kept : (drafts.find? fun draft => draft.id = id) = some draft → change draft = draft) :
    draft ∈ changeFirst id change drafts := by
  induction drafts with
  | nil => cases h
  | cons head rest ih =>
    rw [changeFirst]
    split
    next here =>
      obtain rfl | h := List.mem_cons.mp h
      · rw [kept (by simp [here])]
        exact List.mem_cons_self
      · exact List.mem_cons_of_mem _ h
    next here =>
      obtain rfl | h := List.mem_cons.mp h
      · exact List.mem_cons_self
      · exact List.mem_cons_of_mem _ (ih h fun found => kept (by simpa [here] using found))

theorem lone_changeFirst (same : ∀ draft, (change draft).id = draft.id) (lone : Lone drafts) :
    Lone (changeFirst id change drafts) := by
  induction drafts with
  | nil => exact .nil
  | cons head rest ih =>
    obtain ⟨later, lone⟩ := List.pairwise_cons.mp lone
    rw [changeFirst]
    split
    next here =>
      exact List.pairwise_cons.mpr ⟨fun draft mem again => later draft mem (again.trans (same head)),
        lone⟩
    next here =>
      refine List.pairwise_cons.mpr ⟨fun draft mem again => ?_, ih lone⟩
      obtain mem | ⟨first, found, rfl⟩ := mem_changeFirst mem
      · exact later draft mem again
      · have named : first.id = id := by simpa using List.find?_some found
        rw [same, named] at again
        exact absurd again.symm here

/-- The first draft of an identifier answers for all of them. -/
theorem Lone.inactive (lone : Lone drafts)
    (first : ∀ draft, (drafts.find? fun draft => draft.id = id) = some draft →
      draft.status.isActive = false) (mem : draft ∈ drafts) (named : draft.id = id) :
    draft.status.isActive = false := by
  induction drafts with
  | nil => cases mem
  | cons head rest ih =>
    obtain ⟨later, lone⟩ := List.pairwise_cons.mp lone
    obtain rfl | mem := List.mem_cons.mp mem
    · exact first draft (by simp [named])
    · by_cases here : head.id = id
      · exact later draft mem (named.trans here.symm)
      · exact ih lone (fun draft found => first draft (by simpa [here] using found)) mem

end Drafts

/-! ## The registry -/

structure StateInv (s : State) : Prop where
  lone : Lone s.list
  unloaded : s.drafts = none → ∀ id, s.active.lookup id = none
  covered : ∀ draft ∈ s.list, draft.status.isActive = true → (s.active.lookup draft.id).isSome
  unfinished : ∀ id draft, (s.active.lookup id).isSome → s.find id = some draft →
    draft.status ≠ .completed

/-- The drafts have been loaded: none was active when they were. -/
inductive Loaded (s : State) : State → Prop
  | before : s.drafts ≠ none → Loaded s s
  | now {drafts : List InstallationDraft} : s.drafts = none → Lone drafts →
      (∀ draft ∈ drafts, draft.status.isActive = false) →
      Loaded s { s with drafts := some drafts }

section Registry

variable {isUuid : String → Bool} {io : StoreIo} {s t : State} {id : String}

theorem interruptedBefore_inactive (draft : InstallationDraft) :
    (interruptedBefore draft).status.isActive = false := by
  unfold interruptedBefore
  split
  next => rfl
  next inactive => simpa using inactive

theorem bind_ok {ε α β : Type} {x : Except ε α} {f : α → Except ε β} {b : β}
    (h : (x >>= f) = .ok b) : ∃ a, x = .ok a ∧ f a = .ok b := by
  cases x with
  | error e => cases h
  | ok a => exact ⟨a, rfl, h⟩

theorem load_ok (h : s.load isUuid io = .ok t) : Loaded s t := by
  unfold State.load at h
  cases drafts : s.drafts with
  | some _ =>
    rw [drafts] at h
    cases h
    exact .before (by rw [drafts]; nofun)
  | none =>
    rw [drafts] at h
    obtain ⟨found, -, h⟩ := bind_ok h
    obtain ⟨-, -, h⟩ := bind_ok h
    have inactive : ∀ draft ∈ found.map interruptedBefore, draft.status.isActive = false := by
      intro draft mem
      obtain ⟨before, -, rfl⟩ := List.mem_map.mp mem
      exact interruptedBefore_inactive before
    have lone : Lone (found.map interruptedBefore) :=
      List.pairwise_of_forall_mem_list fun _ _ later mem _ => inactive later mem
    obtain ⟨-, -, h⟩ := bind_ok h
    cases h
    exact .now drafts lone inactive

/-- A transaction fails to load the drafts, or works on the loaded ones. -/
theorem transaction_cases {α : Type} (mutate : State → Except String α × State) (s : State) :
    (∃ e, s.load isUuid io = .error e ∧ State.transaction isUuid io mutate s = (.error e, s)) ∨
      ∃ t, s.load isUuid io = .ok t ∧ State.transaction isUuid io mutate s = mutate t := by
  cases loaded : s.load isUuid io with
  | error e => exact .inl ⟨e, rfl, by rw [State.transaction, loaded]⟩
  | ok t => exact .inr ⟨t, rfl, by rw [State.transaction, loaded]⟩

theorem Loaded.active (h : Loaded s t) : t.active = s.active := by cases h <;> rfl

theorem Loaded.mem (h : Loaded s t) {draft : InstallationDraft} (mem : draft ∈ s.list) :
    draft ∈ t.list := by
  cases h with
  | before _ => exact mem
  | now unloaded _ _ =>
    rw [State.list, unloaded] at mem
    cases mem

theorem StateInv.loaded (inv : StateInv s) (h : Loaded s t) : StateInv t := by
  cases h with
  | before _ => exact inv
  | now unloaded lone inactive =>
    refine ⟨lone, nofun, fun draft mem active => ?_, fun id draft owned _ => ?_⟩
    · rw [inactive draft mem] at active
      cases active
    · rw [inv.unloaded unloaded id] at owned
      cases owned

/-- While an execution runs, the drafts are loaded. -/
theorem StateInv.load_owned (inv : StateInv s) (owned : (s.active.lookup id).isSome) :
    s.load isUuid io = .ok s := by
  cases drafts : s.drafts with
  | some _ => rw [State.load, drafts]
  | none =>
    rw [inv.unloaded drafts] at owned
    cases owned

/-- The first draft of an identifier, rewritten. -/
def State.write (s : State) (id : String) (change : InstallationDraft → InstallationDraft) : State :=
  { s with drafts := some (changeFirst id change s.list) }

section Write

variable {change : InstallationDraft → InstallationDraft}
  (same : ∀ draft, (change draft).id = draft.id)

include same

theorem write_find_self : (s.write id change).find id = (s.find id).map change :=
  (find_changeFirst same).trans (if_pos rfl)

theorem write_find_of_ne {other : String} (ne : other ≠ id) :
    (s.write id change).find other = s.find other := (find_changeFirst same).trans (if_neg ne)

/-- A draft is rewritten while its identifier is active, or to one that is not active. -/
theorem StateInv.write (inv : StateInv s)
    (covered : ∀ draft, s.find id = some draft → (change draft).status.isActive = true →
      (s.active.lookup id).isSome)
    (unfinished : ∀ draft, (s.active.lookup id).isSome → s.find id = some draft →
      (change draft).status ≠ .completed) :
    StateInv (s.write id change) where
  lone := lone_changeFirst same inv.lone
  unloaded := nofun
  covered draft mem active := by
    obtain mem | ⟨first, found, rfl⟩ := mem_changeFirst mem
    · exact inv.covered draft mem active
    · have named : first.id = id := by simpa using List.find?_some found
      rw [same, named]
      exact covered first found active
  unfinished other draft owned found := by
    by_cases here : other = id
    · subst here
      rw [write_find_self same] at found
      obtain ⟨first, here, rfl⟩ := Option.map_eq_some_iff.mp found
      exact unfinished first owned here
    · rw [write_find_of_ne same here] at found
      exact inv.unfinished other draft owned found

end Write

end Registry

/-! ## The operations -/

section Operations

variable {isUuid : String → Bool} {io : StoreIo} {s t : State} {id : String}

/-- What is saved is kept. -/
theorem save_cases {α : Type} (next : List InstallationDraft) (answer : α) (kept : State → State)
    (s : State) :
    (∃ e, io.saved = .error e ∧ State.save io next answer kept s = (.error e, s)) ∨
      io.saved = .ok () ∧
        State.save io next answer kept s = (.ok answer, kept { s with drafts := some next }) := by
  cases saved : io.saved with
  | error e => exact .inl ⟨e, rfl, by rw [State.save, saved]⟩
  | ok _ => exact .inr ⟨rfl, by rw [State.save, saved]⟩

theorem get_cases (id : String) (s : State) :
    (∃ e, s.load isUuid io = .error e ∧ s.get isUuid io id = (.error e, s)) ∨
      ∃ t, s.load isUuid io = .ok t ∧
      ((∃ e, s.get isUuid io id = (.error e, t) ∧ t.find id = none) ∨
        ∃ draft, t.find id = some draft ∧ s.get isUuid io id = (.ok draft, t)) := by
  unfold State.get
  obtain ⟨e, unread, failed⟩ | ⟨t, loaded, done⟩ := transaction_cases _ s
  · exact .inl ⟨e, unread, failed⟩
  refine .inr ⟨t, loaded, ?_⟩
  rw [done]
  split
  next draft found => exact .inr ⟨draft, found, rfl⟩
  next none => exact .inl ⟨_, rfl, none⟩

/-- An update does nothing, or rewrites the draft and saves it. -/
theorem update_cases (id : String) (change : InstallationDraft → InstallationDraft) (s : State) :
    (∃ e, s.update isUuid io id change = (.error e, s)) ∨ ∃ t, s.load isUuid io = .ok t ∧
      ((∃ e, s.update isUuid io id change = (.error e, t)) ∨
        io.saved = .ok () ∧ ∃ draft, t.find id = some draft ∧
          s.update isUuid io id change = (.ok (change draft), t.write id change)) := by
  unfold State.update
  obtain ⟨e, -, failed⟩ | ⟨t, loaded, done⟩ := transaction_cases _ s
  · exact .inl ⟨e, failed⟩
  refine .inr ⟨t, loaded, ?_⟩
  rw [done]
  split
  next => exact .inl ⟨_, rfl⟩
  next draft found =>
  split
  next => exact .inl ⟨_, rfl⟩
  next =>
  obtain ⟨e, -, failed⟩ | ⟨saved, kept⟩ := @save_cases io _
    (changeFirst id change t.list) (change draft) (fun s => s) t
  · exact .inl ⟨e, failed⟩
  · exact .inr ⟨saved, draft, found, kept⟩

theorem create_cases (id : String) (input : CreateInstallation) (runnerKnown installerExists : Bool)
    (s : State) :
    (s.create isUuid io id input runnerKnown installerExists).2 = s ∨
      ∃ t, s.load isUuid io = .ok t ∧
        ((s.create isUuid io id input runnerKnown installerExists).2 = t ∨
          io.saved = .ok () ∧ (t.closing || t.relaunchAdmissionClosed) = false ∧
            (s.create isUuid io id input runnerKnown installerExists).2 =
              { t with drafts := some (t.list ++ [State.newDraft id input]) }) := by
  unfold State.create
  split
  next => exact .inl rfl
  dsimp only
  split
  next => exact .inl rfl
  split
  next => exact .inl rfl
  obtain ⟨e, -, failed⟩ | ⟨t, loaded, done⟩ := transaction_cases _ s
  · exact .inl (by rw [failed])
  refine .inr ⟨t, loaded, ?_⟩
  rw [done]
  split
  next => exact .inl rfl
  next opened =>
  obtain ⟨e, -, failed⟩ | ⟨saved, kept⟩ := @save_cases io _
    (t.list ++ [State.newDraft id input]) (State.newDraft id input) (fun s => s) t
  · exact .inl (by rw [failed])
  · exact .inr ⟨saved, by simpa using opened, by rw [kept]⟩

/-- A reservation is refused, or prepares a draft that no execution owns. -/
theorem reserve_cases (id : String) (s : State) :
    (∃ e, s.reserve isUuid io id = (.error e, s)) ∨ ∃ t, s.load isUuid io = .ok t ∧
      ((∃ e, s.reserve isUuid io id = (.error e, t)) ∨
        io.saved = .ok () ∧ (t.closing || t.relaunchAdmissionClosed) = false ∧
          t.active.lookup id = none ∧ ∃ draft, t.find id = some draft ∧
            draft.status.canRestart = true ∧ s.reserve isUuid io id = (.ok (State.preparing draft),
              { t.write id State.preparing with active := t.active.insert id false })) := by
  unfold State.reserve
  obtain ⟨e, -, failed⟩ | ⟨t, loaded, done⟩ := transaction_cases _ s
  · exact .inl ⟨e, failed⟩
  refine .inr ⟨t, loaded, ?_⟩
  rw [done]
  split
  next => exact .inl ⟨_, rfl⟩
  next opened =>
  split
  next => exact .inl ⟨_, rfl⟩
  next free =>
  split
  next => exact .inl ⟨_, rfl⟩
  next draft found =>
  split
  next => exact .inl ⟨_, rfl⟩
  next restart =>
  obtain ⟨e, -, failed⟩ | ⟨saved, kept⟩ := @save_cases io _
    (changeFirst id State.preparing t.list) (State.preparing draft)
    (fun s => { s with active := s.active.insert id false }) t
  · exact .inl ⟨e, failed⟩
  · exact .inr ⟨saved, by simpa using opened, by simpa using free, draft, found,
      by simpa using restart, kept⟩

/-- A cancellation is refused, or tells the execution, and then marks its draft. -/
theorem cancel_cases (id : String) (s : State) :
    (s.cancel isUuid io id).2 = s ∨ ∃ t, s.load isUuid io = .ok t ∧
      ((s.cancel isUuid io id).2 = t ∨ (t.active.lookup id).isSome ∧
        ((s.cancel isUuid io id).2 = { t with active := t.active.insert id true } ∨
          io.saved = .ok () ∧ (t.find id).isSome ∧ (s.cancel isUuid io id).2 =
            { t.write id State.stopping with active := t.active.insert id true })) := by
  unfold State.cancel
  obtain ⟨e, -, failed⟩ | ⟨t, loaded, done⟩ := transaction_cases _ s
  · exact .inl (by rw [failed])
  refine .inr ⟨t, loaded, ?_⟩
  rw [done]
  cases owned : t.active.lookup id with
  | none => exact .inl rfl
  | some told =>
  refine .inr ⟨rfl, ?_⟩
  cases found : t.find id with
  | none =>
    have found' : State.find { t with active := t.active.insert id true } id = none := found
    exact .inl (by simp only [found'])
  | some draft =>
  have found' : State.find { t with active := t.active.insert id true } id = some draft := found
  simp only [found']
  obtain ⟨e, -, failed⟩ | ⟨saved, kept⟩ := @save_cases io _
    (changeFirst id State.stopping t.list) (State.stopping draft) (fun s => s)
    { t with active := t.active.insert id true }
  · exact .inl (congrArg Prod.snd failed)
  · exact .inr ⟨saved, rfl, congrArg Prod.snd kept⟩

/-- What an operation on some identifiers leaves alone. -/
structure Frame (ids : List String) (s t : State) : Prop where
  inv : StateInv t
  active : ∀ other, (t.active.lookup other).isSome = (s.active.lookup other).isSome
  others : ∀ other, (s.active.lookup other).isSome → other ∉ ids → t.find other = s.find other
  completed : ∀ draft ∈ s.list, draft.status = .completed → draft ∈ t.list

theorem Frame.refl (inv : StateInv s) (ids : List String) : Frame ids s s :=
  ⟨inv, fun _ => rfl, fun _ _ _ => rfl, fun _ mem _ => mem⟩

theorem Frame.trans {ids : List String} {u : State} (h : Frame ids s t) (h' : Frame ids t u) :
    Frame ids s u where
  inv := h'.inv
  active other := (h'.active other).trans (h.active other)
  others other owned ne := (h'.others other (by rwa [h.active]) ne).trans (h.others other owned ne)
  completed draft mem done := h'.completed draft (h.completed draft mem done) done

theorem Loaded.frame (h : Loaded s t) (inv : StateInv s) (ids : List String) : Frame ids s t where
  inv := inv.loaded h
  active _ := by rw [h.active]
  others other owned _ := by
    cases h with
    | before _ => rfl
    | now unloaded _ _ =>
      rw [inv.unloaded unloaded] at owned
      cases owned
  completed _ mem _ := h.mem mem

theorem write_frame {change : InstallationDraft → InstallationDraft}
    (same : ∀ draft, (change draft).id = draft.id) (inv : StateInv s)
    (covered : ∀ draft, s.find id = some draft → (change draft).status.isActive = true →
      (s.active.lookup id).isSome)
    (unfinished : ∀ draft, (s.active.lookup id).isSome → s.find id = some draft →
      (change draft).status ≠ .completed)
    (kept : ∀ draft, s.find id = some draft → draft.status = .completed → change draft = draft) :
    Frame [id] s (s.write id change) where
  inv := inv.write same covered unfinished
  active _ := rfl
  others _ _ apart := write_find_of_ne same (List.ne_of_not_mem_cons apart)
  completed draft mem done :=
    mem_changeFirst_of_mem mem fun found => kept draft found done

/-- The execution of a draft rewrites it to anything but a completed one. -/
theorem write_frame_owned {change : InstallationDraft → InstallationDraft}
    (same : ∀ draft, (change draft).id = draft.id)
    (going : ∀ draft, draft.status ≠ .completed → (change draft).status ≠ .completed)
    (inv : StateInv s) (owned : (s.active.lookup id).isSome) : Frame [id] s (s.write id change) :=
  write_frame same inv (fun _ _ _ => owned)
    (fun draft owned found => going draft (inv.unfinished id draft owned found))
    fun draft found done => absurd done (inv.unfinished id draft owned found)

theorem update_frame {change : InstallationDraft → InstallationDraft} (inv : StateInv s)
    (write : ∀ t, Loaded s t → Frame [id] t (t.write id change)) :
    Frame [id] s (s.update isUuid io id change).2 := by
  obtain ⟨e, failed⟩ | ⟨t, loaded, ⟨e, failed⟩ | ⟨-, draft, -, done⟩⟩ := update_cases id change s
  · rw [failed]
    exact .refl inv _
  · rw [failed]
    exact (load_ok loaded).frame inv _
  · rw [done]
    exact ((load_ok loaded).frame inv _).trans (write t (load_ok loaded))

theorem update_frame_owned {change : InstallationDraft → InstallationDraft}
    (same : ∀ draft, (change draft).id = draft.id)
    (going : ∀ draft, draft.status ≠ .completed → (change draft).status ≠ .completed)
    (inv : StateInv s) (owned : (s.active.lookup id).isSome) :
    Frame [id] s (s.update isUuid io id change).2 :=
  update_frame inv fun _ loaded => write_frame_owned same going (inv.loaded loaded)
    (by rwa [loaded.active])

/-- The last write of a confirmation. -/
theorem complete_frame (inv : StateInv s) (free : s.active.lookup id = none) :
    Frame [id] s (s.update isUuid io id fun draft => { draft with status := .completed }).2 := by
  refine update_frame inv fun t loaded => write_frame (fun _ => rfl) (inv.loaded loaded)
    (fun _ _ active => by cases active) (fun _ owned _ => ?_) fun draft _ done => ?_
  · rw [loaded.active, free] at owned
    cases owned
  · rw [← done]

theorem apply_id (update : ExecutionUpdate) (draft : InstallationDraft) :
    (update.apply draft).id = draft.id := by
  cases update with
  | running =>
    simp only [ExecutionUpdate.apply]
    split <;> rfl
  | _ => rfl

theorem apply_going (update : ExecutionUpdate) (draft : InstallationDraft)
    (going : draft.status ≠ .completed) : (update.apply draft).status ≠ .completed := by
  cases update with
  | bound value => exact going
  | running =>
    simp only [ExecutionUpdate.apply]
    split
    · nofun
    · exact going
  | exited code =>
    simp only [ExecutionUpdate.apply]
    split <;> nofun
  | interrupted => nofun
  | failed message => nofun

theorem interruptActive_id (draft : InstallationDraft) :
    (State.interruptActive draft).id = draft.id := by
  unfold State.interruptActive
  split <;> rfl

theorem interruptActive_going (draft : InstallationDraft) (going : draft.status ≠ .completed) :
    (State.interruptActive draft).status ≠ .completed := by
  unfold State.interruptActive
  split
  · nofun
  · exact going

theorem interruptActive_inactive (draft : InstallationDraft) :
    (State.interruptActive draft).status.isActive = false := by
  unfold State.interruptActive
  split
  next => rfl
  next inactive => simpa using inactive

theorem get_frame (inv : StateInv s) :
    Frame [] s (s.get isUuid io id).2 := by
  obtain ⟨e, -, failed⟩ | ⟨t, loaded, ⟨e, failed, -⟩ | ⟨draft, -, done⟩⟩ := get_cases id s
  · rw [failed]
    exact .refl inv _
  · rw [failed]
    exact (load_ok loaded).frame inv _
  · rw [done]
    exact (load_ok loaded).frame inv _

theorem isActive_cases (id : String) (s : State) :
    (∃ e, s.load isUuid io = .error e ∧ s.isActive isUuid io id = (.error e, s)) ∨ ∃ t, s.load isUuid io = .ok t ∧
      s.isActive isUuid io id = (.ok (t.active.lookup id).isSome, t) := transaction_cases _ s

theorem isActive_frame (inv : StateInv s) :
    Frame [] s (s.isActive isUuid io id).2 := by
  obtain ⟨e, -, failed⟩ | ⟨t, loaded, done⟩ := isActive_cases id s
  · rw [failed]
    exact .refl inv _
  · rw [done]
    exact (load_ok loaded).frame inv _

theorem create_frame (id : String) (input : CreateInstallation) (runnerKnown installerExists : Bool)
    (inv : StateInv s) :
    Frame [id] s (s.create isUuid io id input runnerKnown installerExists).2 := by
  obtain same | ⟨t, loaded, same | ⟨-, -, done⟩⟩ := create_cases id input runnerKnown installerExists s
  · rw [same]
    exact .refl inv _
  · rw [same]
    exact (load_ok loaded).frame inv _
  rw [done]
  refine ((load_ok loaded).frame inv _).trans ?_
  have inv := inv.loaded (load_ok loaded)
  have appended {other : String} : (t.list ++ [State.newDraft id input]).find?
      (fun draft => draft.id = other) = (t.find other).or
        (if id = other then some (State.newDraft id input) else none) := by
    rw [List.find?_append]
    refine congrArg _ ?_
    by_cases named : id = other <;> simp [State.newDraft, named]
  refine ⟨⟨?_, nofun, fun draft mem active => ?_, fun other draft owned found => ?_⟩, fun _ => rfl,
    fun other owned apart => ?_, fun draft mem _ => List.mem_append_left _ mem⟩
  · refine List.pairwise_append.mpr ⟨inv.lone, List.pairwise_singleton .., fun _ _ later mem _ => ?_⟩
    obtain rfl := List.mem_singleton.mp mem
    rfl
  · obtain mem | mem := List.mem_append.mp mem
    · exact inv.covered draft mem active
    · obtain rfl := List.mem_singleton.mp mem
      cases active
  · obtain found | ⟨-, found⟩ := Option.or_eq_some_iff.mp (appended.symm.trans found)
    · exact inv.unfinished other draft owned found
    · split at found <;> cases found
      nofun
  · refine appended.trans ?_
    rw [if_neg (Ne.symm (List.ne_of_not_mem_cons apart)), Option.or_none]

theorem insert_isSome {active : Table String Bool} {told : Bool} (owned : (active.lookup id).isSome)
    (other : String) : ((active.insert id told).lookup other).isSome = (active.lookup other).isSome := by
  by_cases here : other = id
  · subst here
    rw [AList.lookup_insert, owned]
    rfl
  · rw [AList.lookup_insert_ne here]

theorem told_frame (told : Bool) (inv : StateInv s) (owned : (s.active.lookup id).isSome) :
    Frame [id] s { s with active := s.active.insert id told } where
  inv :=
    { lone := inv.lone
      unloaded := fun unloaded => by
        rw [inv.unloaded unloaded] at owned
        cases owned
      covered := fun draft mem active => by
        rw [insert_isSome owned]
        exact inv.covered draft mem active
      unfinished := fun other draft owned' found => by
        rw [insert_isSome owned] at owned'
        exact inv.unfinished other draft owned' found }
  active := insert_isSome owned
  others _ _ _ := rfl
  completed _ mem _ := mem

theorem cancel_frame (inv : StateInv s) : Frame [id] s (s.cancel isUuid io id).2 := by
  obtain same | ⟨t, loaded, same | ⟨owned, done | ⟨-, -, done⟩⟩⟩ := cancel_cases id s
  · rw [same]
    exact .refl inv _
  · rw [same]
    exact (load_ok loaded).frame inv _
  all_goals
    rw [done]
    refine ((load_ok loaded).frame inv _).trans ?_
    have inv := inv.loaded (load_ok loaded)
  · exact told_frame true inv owned
  · have written := @write_frame_owned t id State.stopping (fun _ => rfl) (fun _ _ => nofun) inv owned
    exact written.trans (told_frame true written.inv owned)

theorem preparing_id (draft : InstallationDraft) : (State.preparing draft).id = draft.id := rfl

/-- A reservation that succeeds. -/
theorem reserve_frame (inv : StateInv s) (free : s.active.lookup id = none) :
    StateInv { s.write id State.preparing with active := s.active.insert id false } where
  lone := lone_changeFirst (fun _ => rfl) inv.lone
  unloaded := nofun
  covered draft mem active := by
    by_cases here : draft.id = id
    · rw [here, AList.lookup_insert]
      rfl
    · rw [AList.lookup_insert_ne here]
      obtain mem | ⟨first, found, rfl⟩ := mem_changeFirst mem
      · exact inv.covered draft mem active
      · have named : first.id = id := by simpa using List.find?_some found
        exact absurd named here
  unfinished other draft owned found := by
    have found : (s.write id State.preparing).find other = some draft := found
    by_cases here : other = id
    · subst here
      rw [write_find_self preparing_id] at found
      obtain ⟨first, -, rfl⟩ := Option.map_eq_some_iff.mp found
      nofun
    · rw [AList.lookup_insert_ne here] at owned
      rw [write_find_of_ne preparing_id here] at found
      exact inv.unfinished other draft owned found

/-- A change of the flags, and of what the executions are told. -/
theorem flags_frame (inv : StateInv s) (drafts : t.drafts = s.drafts)
    (active : ∀ other, (t.active.lookup other).isSome = (s.active.lookup other).isSome) :
    Frame [] s t := by
  have list : t.list = s.list := congrArg (fun drafts => drafts.getD []) drafts
  have found (other : String) : t.find other = s.find other := by rw [State.find, list, State.find]
  refine ⟨⟨list ▸ inv.lone, fun unloaded other => ?_, fun draft mem busy => ?_,
    fun other draft owned here => ?_⟩, active, fun other _ _ => found other,
    fun draft mem _ => list ▸ mem⟩
  · have same := active other
    rw [inv.unloaded (drafts ▸ unloaded)] at same
    simpa using same
  · rw [active]
    exact inv.covered draft (list ▸ mem) busy
  · rw [active] at owned
    rw [found] at here
    exact inv.unfinished other draft owned here

end Operations

end RoLauncher.Installations
