import RoLauncher.Artifacts.Residue

/-!
# What the installer may delete

Names select candidates, receipts grant ownership. An entry of the runtime
directory that `classify` calls foreign is left as it is by every call of the
installer, except that an activation takes its prepared tree out of it.

The bounds of this file speak of one name at a time: what is at the name
stays, step by step, because the only cleanups are of other names, or of this
one and refused.
-/

namespace RoLauncher.Artifacts

open RoLauncher.Files RoLauncher.Crash

/-! ## Calls -/

/-- The calls that clean up. -/
inductive CleaningCall where
  | needsInstall (temp : ReceiptTemp) (policy : ExistingTargetPolicy)
  | activate (extracted : Place) (policy : ExistingTargetPolicy)
  | recover
  | sweepResidue

namespace CleaningCall

def prog (catalog : Catalog) (descriptor : ArtifactDescriptor) : CleaningCall → InstallProg Unit
  | .needsInstall temp policy => (Artifacts.needsInstall catalog descriptor temp policy).discard
  | .activate extracted policy => Artifacts.activate catalog descriptor extracted policy
  | .recover => Artifacts.recover catalog descriptor
  | .sweepResidue => Artifacts.sweepResidue catalog descriptor

/-- The tree the call is handed. -/
def extracted : CleaningCall → Option Place
  | .activate extracted _ => some extracted
  | _ => none

/-- The call may replace an owned tree that is not ready. -/
def Replaces : CleaningCall → Prop
  | .activate _ policy => policy = .replaceNotReady
  | _ => False

end CleaningCall

section Owned

variable (catalog : Catalog) (descriptor : ArtifactDescriptor)

/-- A directory with a matching receipt, or with a matching tombstone and no receipt. -/
def Owned (entry : Option Node) : Prop :=
  ∃ (ino dev : Nat) (es : Entries), entry = some (.dir ino dev es) ∧
    (es.find CLEANUP = none ∧ matchingReceipt catalog descriptor (es.find MARKER_FILE) = true ∨
      Tombstoned catalog descriptor es)

/-- An entry of the runtime directory is as it was. -/
def SameEntry (name : String) (s t : Runtime) : Prop := t.get (.top name) = s.get (.top name)

/-- The entry is as it was, or lost no more than the ready tree the call was handed. -/
def Spared (extracted : Option Place) (name : String) (s t : Runtime) : Prop :=
  SameEntry name s t ∨ descriptor.Private name ∧ ∃ place, extracted = some place ∧
    place.root = name ∧ artifactCacheState catalog descriptor (s.get place) = .ready ∧
    t.get (.top name) = (s.set place none).get (.top name)

/-- The names that a call may clean up, or refresh: a backup needs a ready canonical tree. -/
def Selected (s : Runtime) (name : String) : Prop :=
  name = descriptor.id ∨ name = activationSlot descriptor ∨ isWork descriptor name = true ∨
    isPrevious descriptor name = true ∧
      artifactCacheState catalog descriptor (s.canonical descriptor) = .ready

/-- The canonical directory has kept everything but its receipt and the temporary files of one. -/
def Refreshed (s t : Runtime) : Prop :=
  ∀ ino dev es, s.canonical descriptor = some (.dir ino dev es) →
    ∃ es', t.canonical descriptor = some (.dir ino dev es') ∧ Kept catalog descriptor es es'

/-- What a call that starts in `s` may have done in `t`. -/
structure OwnedOnly (call : CleaningCall) (s t : Runtime) : Prop where
  /-- Whatever was there is spared, unless it was selected and owned. -/
  spared : ∀ name, s.get (.top name) ≠ none →
    Selected catalog descriptor s name ∧ Owned catalog descriptor (s.get (.top name)) ∨
      Spared catalog descriptor call.extracted name s t
  /-- A tree that makes the call ambiguous stays. -/
  ambiguous : ∀ name, name = descriptor.id ∨ name = activationSlot descriptor →
    classifyNode catalog descriptor (s.get (.top name)) = .foreign → SameEntry name s t
  /-- So does a canonical tree that is owned, not ready, and may not be replaced. -/
  refused : classifyNode catalog descriptor (s.canonical descriptor) = .cleanup ∨
    classifyNode catalog descriptor (s.canonical descriptor) = .ownedIncomplete ∧ ¬ call.Replaces →
    SameEntry descriptor.id s t
  /-- A ready one keeps everything but its receipt, and the temporary files of one. -/
  refreshed : classifyNode catalog descriptor (s.canonical descriptor) = .ready → ¬ call.Replaces →
    Refreshed catalog descriptor s t

end Owned

section Owned

variable {catalog : Catalog} {descriptor : ArtifactDescriptor} {name other : String}
  {s t u : Runtime} {R : Runtime → Runtime → Prop} {temp : ReceiptTemp}

theorem sameEntry_refl (s : Runtime) : SameEntry name s s := rfl

theorem sameEntry_trans (s t u : Runtime) (h : SameEntry name s t) (h' : SameEntry name t u) :
    SameEntry name s u := h'.trans h

/-- What is there is owned or foreign. -/
theorem owned_or_foreign (present : s.get (.top name) ≠ none) :
    Owned catalog descriptor (s.get (.top name)) ∨
      classifyNode catalog descriptor (s.get (.top name)) = .foreign := by
  cases classified : classifyNode catalog descriptor (s.get (.top name)) with
  | absent => exact absurd (absent_of_classify classified) present
  | ready =>
    obtain ⟨ino, dev, es, found, living, matching⟩ := owned_of_classify (.inl classified)
    exact .inl ⟨ino, dev, es, found, .inl ⟨living, matching⟩⟩
  | ownedIncomplete =>
    obtain ⟨ino, dev, es, found, living, matching⟩ := owned_of_classify (.inr classified)
    exact .inl ⟨ino, dev, es, found, .inl ⟨living, matching⟩⟩
  | cleanup =>
    obtain ⟨ino, dev, es, found, tombstoned⟩ := tombstoned_of_classify classified
    exact .inl ⟨ino, dev, es, found, .inr tombstoned⟩
  | foreign => exact .inr rfl

theorem Reading.absent {tree : Tree} (h : Reading tree (.ok .absent)) : tree = .absent := by
  cases h
  rfl

theorem Reading.not_foreign {answer : Tree} (h : Reading .foreign (.ok answer)) :
    answer = .foreign := by
  cases h <;> rfl

/-- An inspection writes the receipt of a ready canonical directory, if anything. -/
theorem inspectTarget_within {policy : ExistingTargetPolicy}
    (refl : ∀ s, R s s) (step : classifyNode catalog descriptor (s.canonical descriptor) = .ready →
      ∀ t ino dev es es', t.canonical descriptor = some (.dir ino dev es) →
        Kept catalog descriptor es es' →
        R t (t.set (.top descriptor.id) (some (.dir ino dev es')))) :
    (inspectTarget catalog descriptor temp policy).Meets (device descriptor) R (fun _ _ => True) s := by
  refine Prog.Meets.bind (classify_meets (refl s) fun r reading => ?_)
  cases r with
  | error e => trivial
  | ok tree =>
  cases tree with
  | absent => trivial
  | ownedIncomplete =>
    dsimp only
    split <;> trivial
  | ready =>
    obtain ⟨ino, dev, es, found, -, -⟩ := owned_of_classify (.inl reading.ready)
    exact Prog.Meets.bind (Prog.Meets.attempt (elevateV1_within refl
      (writeReceipt_meets refl
        (fun t _ _ here _ kept => step reading.ready t ino dev _ _ here kept) found)))
  | _ => trivial

/-! ## A foreign entry -/

section Foreign

variable (foreign : classifyNode catalog descriptor (s.get (.top name)) = .foreign)

include foreign

/-- A cleanup of a foreign entry is refused. -/
theorem cleanupOwned_refused (refl : R s s) :
    (cleanupOwned catalog descriptor name).Meets (device descriptor) R
      (fun r t => t = s ∧ r ≠ .ok ()) s := by
  refine Prog.Meets.bind (classify_meets refl fun r reading => ?_)
  rw [foreign] at reading
  cases r with
  | error e => exact ⟨rfl, nofun⟩
  | ok answer =>
    cases reading.not_foreign
    exact ⟨rfl, nofun⟩

/-- No cleanup touches a foreign entry. -/
theorem cleanupOwned_spares :
    (cleanupOwned catalog descriptor other).Meets (device descriptor) (SameEntry name)
      (fun _ t => SameEntry name s t) s := by
  by_cases same : other = name
  · subst same
    refine (cleanupOwned_refused foreign (sameEntry_refl s)).post fun _ _ h => ?_
    rw [h.1]
    exact sameEntry_refl s
  · have ne : name ≠ other := Ne.symm same
    exact (cleanupOwned_meets.linked .refl fun _ _ _ => .trans).mono
      (fun _ _ h => h.others name ne) fun _ _ h => h.1.others name ne

end Foreign

/-- Recovery is refused by a canonical directory that is foreign, or tombstoned. -/
theorem recover_refused (held : classifyNode catalog descriptor (s.canonical descriptor) = .foreign ∨
    classifyNode catalog descriptor (s.canonical descriptor) = .cleanup) (refl : R s s) :
    (recover catalog descriptor).Meets (device descriptor) R (fun r t => t = s ∧ r ≠ .ok ()) s := by
  refine Prog.Meets.bind (classify_meets refl fun final reading => ?_)
  cases final with
  | error e => exact ⟨rfl, nofun⟩
  | ok final =>
  have refused : final = .foreign ∨ final = .cleanup := by
    obtain foreign | cleanup := held
    · rw [foreign] at reading
      exact .inl reading.not_foreign
    · rw [cleanup] at reading
      cases reading with
      | exact => exact .inr rfl
      | foreign => exact .inl rfl
  refine Prog.Meets.bind (classify_meets refl fun slot _ => ?_)
  cases slot with
  | error e => exact ⟨rfl, nofun⟩
  | ok slot =>
    dsimp only
    rw [if_pos refused]
    exact ⟨rfl, nofun⟩

/-! ## What no call cleans up -/

section Withheld

variable (withheld : classifyNode catalog descriptor (s.get (.top name)) = .foreign ∨
  ¬ Selected catalog descriptor s name)

include withheld

theorem withheld_congr (same : SameEntry name s t) (canonical : SameEntry descriptor.id s t) :
    classifyNode catalog descriptor (t.get (.top name)) = .foreign ∨
      ¬ Selected catalog descriptor t name := by
  rwa [show t.get _ = _ from same, Selected, show t.canonical descriptor = _ from canonical]

/-- A cleanup of a selected name leaves it as it is. -/
theorem cleanWork_spares (selected : Selected catalog descriptor s other) :
    (cleanWork catalog descriptor other).Meets (device descriptor) (SameEntry name)
      (fun _ t => SameEntry name s t) s := by
  refine Prog.Meets.bind (Prog.Meets.attempt ?_)
  obtain foreign | unselected := withheld
  · exact cleanupOwned_spares foreign
  · have ne : name ≠ other := by
      rintro rfl
      exact unselected selected
    exact (cleanupOwned_meets.linked .refl fun _ _ _ => .trans).mono
      (fun _ _ h => h.others name ne) fun _ _ h => h.1.others name ne

/-- Recovery leaves it as it is, and fails when it is the canonical directory. -/
theorem recover_spares :
    (recover catalog descriptor).Meets (device descriptor) (SameEntry name)
      (fun r t => (SameEntry name s t ∧ SameEntry descriptor.id s t) ∧
        (name = descriptor.id → r ≠ .ok ())) s := by
  have canonical : (recover catalog descriptor).Meets (device descriptor)
      (SameEntry descriptor.id) (fun _ t => SameEntry descriptor.id s t) s :=
    (recover_meets.linked .refl fun _ _ _ => .trans).mono
      (fun _ _ h => h.others _ (activationSlot_ne_id descriptor).symm)
      fun _ _ h => h.1.others _ (activationSlot_ne_id descriptor).symm
  suffices (recover catalog descriptor).Meets (device descriptor) (SameEntry name)
      (fun r t => SameEntry name s t ∧ (name = descriptor.id → r ≠ .ok ())) s from
    (this.both canonical).mono (fun _ _ h => h.1) fun _ _ h => ⟨⟨h.1.1, h.2⟩, h.1.2⟩
  obtain foreign | unselected := withheld
  swap
  · have slot : name ≠ activationSlot descriptor := fun same => unselected (.inr (.inl same))
    exact (recover_meets.linked .refl fun _ _ _ => .trans).mono (fun _ _ h => h.others _ slot)
      fun _ _ h => ⟨h.1.others _ slot, fun same => absurd (.inl same) unselected⟩
  by_cases apart : name = descriptor.id
  · subst apart
    exact (recover_refused (.inl foreign) (sameEntry_refl s)).post fun _ t h => ⟨h.1 ▸ rfl, fun _ => h.2⟩
  refine Prog.Meets.bind (classify_meets (sameEntry_refl s) fun final _ => ?_)
  cases final with
  | error e => exact ⟨rfl, nofun⟩
  | ok final =>
  refine Prog.Meets.bind (classify_meets (sameEntry_refl s) fun slot _ => ?_)
  cases slot with
  | error e => exact ⟨rfl, nofun⟩
  | ok slot =>
  dsimp only
  split
  next => exact ⟨rfl, nofun⟩
  next =>
  cases slot with
  | absent => exact ⟨rfl, fun same => absurd same apart⟩
  | foreign =>
    dsimp only
    split
    · exact ⟨rfl, fun same => absurd same apart⟩
    · exact ⟨rfl, nofun⟩
  | _ =>
    exact (cleanupOwned_spares foreign).post fun _ _ h => ⟨h, fun same => absurd same apart⟩

theorem sweepResidue_spares (visible : descriptor.Visible) :
    (sweepResidue catalog descriptor).Meets (device descriptor) (SameEntry name)
      (fun _ t => SameEntry name s t ∧ SameEntry descriptor.id s t) s := by
  refine sweepResidue_within sameEntry_refl ⟨rfl, rfl⟩ fun other t residue here => ?_
  have ne := residue_ne_id visible (residue.imp_right And.left)
  have canonical : (cleanWork catalog descriptor other).Meets (device descriptor)
      (SameEntry descriptor.id) (fun _ u => SameEntry descriptor.id t u) t :=
    Prog.Meets.bind (Prog.Meets.attempt
      ((cleanupOwned_meets.linked .refl fun _ _ _ => .trans).mono
        (fun _ _ h => h.others _ ne.symm) fun _ _ h => h.1.others _ ne.symm))
  refine ((cleanWork_spares (withheld_congr withheld here.1 here.2)
    (.inr (.inr residue))).both canonical).mono (fun _ _ h => h.1) fun _ u h => ?_
  exact ⟨sameEntry_trans _ _ _ here.1 h.1, sameEntry_trans _ _ _ here.2 h.2⟩

/-- Only a ready canonical directory gets a new receipt. -/
theorem inspectTarget_spares {policy : ExistingTargetPolicy} :
    (inspectTarget catalog descriptor temp policy).Meets (device descriptor) (SameEntry name)
      (fun _ _ => True) s := by
  refine inspectTarget_within sameEntry_refl fun ready t ino dev es es' _ _ => ?_
  have ne : name ≠ descriptor.id := by
    rintro rfl
    obtain foreign | unselected := withheld
    · rw [show classifyNode _ _ _ = .ready from ready] at foreign
      cases foreign
    · exact unselected (.inl rfl)
  exact Runtime.get_set_of_ne ne

theorem needsInstall_spares (visible : descriptor.Visible)
    {policy : ExistingTargetPolicy} :
    (needsInstall catalog descriptor temp policy).Meets (device descriptor) (SameEntry name)
      (fun _ _ => True) s := by
  refine Prog.Meets.bind ((recover_spares withheld).post ?_)
  rintro (_ | _) t ⟨⟨here, canonical⟩, -⟩
  · trivial
  have withheld := withheld_congr withheld here canonical
  refine Prog.Meets.bind ((sweepResidue_spares withheld visible).post ?_)
  rintro (_ | _) u ⟨here, canonical⟩
  · trivial
  exact inspectTarget_spares (withheld_congr withheld here canonical)

end Withheld

/-! ## An activation -/

section Activation

variable {extracted : Place} {policy : ExistingTargetPolicy}

theorem spared_congr {s t u : Runtime} (h : Spared catalog descriptor (some extracted) name s t)
    (same : SameEntry name t u) : Spared catalog descriptor (some extracted) name s u :=
  h.imp (fun here => same.trans here) fun ⟨apart, place, handed, root, ready, left⟩ =>
    ⟨apart, place, handed, root, ready, same.trans left⟩

/-- What is left at the root of a place when it is taken out. -/
theorem taken_congr {place : Place} {s t : Runtime}
    (same : t.get (.top place.root) = s.get (.top place.root)) :
    (t.set place none).get (.top place.root) = (s.set place none).get (.top place.root) := by
  cases place with
  | top name => exact (Runtime.get_set_top t name none).trans (Runtime.get_set_top s name none).symm
  | inner wrapper inner =>
    have found : t.entries.find wrapper = s.entries.find wrapper := same
    simp only [Runtime.set, found]
    split
    · simp only [Place.root, Runtime.get, Entries.find_put_self]
    · exact same

section Private

variable (final : name ≠ descriptor.id) (slot : name ≠ activationSlot descriptor)

include final slot

theorem commit_spares {replace : Bool} :
    (commit catalog descriptor replace).Meets (device descriptor) (SameEntry name)
      (fun _ _ => True) s := by
  have synced {t : Runtime} : (Prog.perform .read
      fun error => s!"{descriptor.id} quedó activado; falló fsync del padre: {error}" :
      InstallProg Unit).Meets (device descriptor) (SameEntry name) (fun _ _ => True) t :=
    meets_run_read rfl trivial fun _ => trivial
  refine Prog.Meets.bind (artifactCacheStateAt_meets rfl (fun _ => ?_) fun state ne => ?_)
  · cases replace with
    | false =>
      refine Prog.Meets.bind (meets_perform_whole (fun _ _ => id) rfl (fun _ => trivial)
        ((execOp_rename ..).imp_right ?_))
      rintro ⟨node, -, -, exec⟩
      refine ⟨_, exec, ?_, synced⟩
      rw [SameEntry, noteRename_get, Runtime.get_set_of_ne final, Runtime.get_set_of_ne slot]
    | true =>
      refine Prog.Meets.bind (classify_meets rfl fun r _ => ?_)
      cases r with
      | error e => trivial
      | ok tree =>
      dsimp only
      split
      next => trivial
      next =>
      refine Prog.Meets.bind (meets_perform_whole (fun _ _ => id) rfl (fun _ => trivial)
        ((execOp_exchange ..).imp_right ?_))
      rintro ⟨node, node', -, -, exec⟩
      refine ⟨_, exec, ?_, synced⟩
      rw [SameEntry, noteExchange_get, Runtime.get_set_of_ne final, Runtime.get_set_of_ne slot]
  · dsimp only
    rw [if_pos ne]
    trivial

/-- What follows the reservation works in the slot and at the canonical place. -/
theorem reserved_spares :
    (do
      let result ← Prog.attempt do
        run .read
        run .read
        let finalState ← classify catalog descriptor (.top descriptor.id)
        if finalState = .absent then commit catalog descriptor false
        else if finalState = .ownedIncomplete ∧ policy = .replaceNotReady then
          commit catalog descriptor true
        else .fail (ambiguity (.top descriptor.id))
      match ← Prog.attempt (recover catalog descriptor), result with
      | .error (error : String), .error (primary : String) =>
        .fail s!"{primary}; recuperación: {error}"
      | .error error, .ok () => .fail error
      | .ok (), .error primary => .fail primary
      | .ok (), .ok () => .ret () : InstallProg Unit).Meets (device descriptor) (SameEntry name)
        (fun _ _ => True) s := by
  refine Prog.Meets.bind (Prog.Meets.attempt (Prog.Meets.post (Q := fun _ _ => True) ?_ ?_))
  · refine Prog.Meets.bind (meets_run_read rfl ?_ fun e => trivial)
    refine Prog.Meets.bind (meets_run_read rfl ?_ fun e => trivial)
    refine Prog.Meets.bind (classify_meets rfl fun r _ => ?_)
    cases r with
    | error e => trivial
    | ok tree =>
    dsimp only
    split
    next => exact commit_spares final slot
    next =>
    split
    next => exact commit_spares final slot
    next => trivial
  · intro result t _
    refine Prog.Meets.bind (Prog.Meets.attempt (recover_meets.mono
      (fun _ _ h => h.others name slot) fun recovery _ _ => ?_))
    cases recovery <;> cases result <;> trivial

end Private

/-- An activation takes the ready tree it is handed out of it, or leaves it as it is. -/
theorem activate_spares (present : s.get (.top name) ≠ none)
    (withheld : classifyNode catalog descriptor (s.get (.top name)) = .foreign ∨
      ¬ Selected catalog descriptor s name) :
    (activate catalog descriptor extracted policy).Meets (device descriptor)
      (fun _ t => Spared catalog descriptor (some extracted) name s t) (fun _ _ => True) s := by
  have start : Spared catalog descriptor (some extracted) name s s := .inl rfl
  refine Prog.Meets.bind (artifactCacheStateAt_meets start (fun ready => ?_) fun state ne => ?_)
  swap
  · dsimp only
    rw [if_pos ne]
    trivial
  refine Prog.Meets.bind (((recover_spares withheld).reaches sameEntry_refl sameEntry_trans).mono
    (fun _ _ here => .inl here) ?_)
  rintro (_ | _) t ⟨⟨here, -⟩, usable⟩
  · trivial
  have final : name ≠ descriptor.id := fun same => usable same rfl
  have here' : Spared catalog descriptor (some extracted) name s t := .inl here
  refine Prog.Meets.bind (classify_meets here' fun r _ => ?_)
  cases r with
  | error e => trivial
  | ok tree =>
  dsimp only
  split
  next => trivial
  next =>
  split
  next =>
    refine Prog.Meets.bind (meets_perform_whole (fun _ _ => id) here' (fun _ => trivial)
      ((execOp_rename ..).imp_right ?_))
    rintro ⟨node, found, free, exec⟩
    have slot : name ≠ activationSlot descriptor := by
      rintro rfl
      rw [show t.get _ = _ from here] at free
      exact present free
    have moved : Spared catalog descriptor (some extracted) name s
        (noteRename descriptor extracted (activationSlot descriptor)
          ((t.set extracted none).set (.top (activationSlot descriptor)) (some node)) t) := by
      by_cases root : extracted.root = name
      · subst root
        refine .inr ⟨⟨final, slot⟩, extracted, rfl, rfl, ready, ?_⟩
        rw [noteRename_get, Runtime.get_set_of_ne slot]
        exact taken_congr here
      · refine .inl ?_
        rw [SameEntry, noteRename_get, Runtime.get_set_of_ne slot,
          Runtime.get_set_of_ne (Ne.symm root)]
        exact here
    exact ⟨_, exec, moved, ((reserved_spares final slot).reaches sameEntry_refl sameEntry_trans).mono
      (fun _ _ => spared_congr moved) fun _ _ _ => trivial⟩
  next => trivial

end Activation

/-! ## The canonical directory -/

theorem refreshed_of_same (s t : Runtime) (h : SameEntry descriptor.id s t) :
    Refreshed catalog descriptor s t := fun _ _ es found => ⟨es, h.trans found, .refl es⟩

theorem refreshed_refl (s : Runtime) : Refreshed catalog descriptor s s := refreshed_of_same s s rfl

theorem refreshed_trans (s t u : Runtime) (h : Refreshed catalog descriptor s t)
    (h' : Refreshed catalog descriptor t u) : Refreshed catalog descriptor s u := by
  intro ino dev es found
  obtain ⟨es', found', kept⟩ := h ino dev es found
  obtain ⟨es'', found'', kept'⟩ := h' ino dev es' found'
  exact ⟨es'', found'', kept.trans kept'⟩

theorem recover_canonical :
    (recover catalog descriptor).Meets (device descriptor) (SameEntry descriptor.id)
      (fun _ t => SameEntry descriptor.id s t) s :=
  (recover_meets.linked .refl fun _ _ _ => .trans).mono
    (fun _ _ h => h.others _ (activationSlot_ne_id descriptor).symm)
    fun _ _ h => h.1.others _ (activationSlot_ne_id descriptor).symm

theorem cleanWork_canonical (ne : name ≠ descriptor.id) :
    (cleanWork catalog descriptor name).Meets (device descriptor) (SameEntry descriptor.id)
      (fun _ t => SameEntry descriptor.id s t) s :=
  Prog.Meets.bind (Prog.Meets.attempt ((cleanupOwned_meets.linked .refl fun _ _ _ => .trans).mono
    (fun _ _ h => h.others _ ne.symm) fun _ _ h => h.1.others _ ne.symm))

theorem sweepResidue_canonical (visible : descriptor.Visible) :
    (sweepResidue catalog descriptor).Meets (device descriptor) (SameEntry descriptor.id)
      (fun _ t => SameEntry descriptor.id s t) s :=
  sweepResidue_within sameEntry_refl (sameEntry_refl s) fun _ _ residue here =>
    (cleanWork_canonical (residue_ne_id visible (residue.imp_right And.left))).post
      fun _ _ h => sameEntry_trans _ _ _ here h

/-- Only the inspection of `needs_install` can change the canonical directory. -/
theorem needsInstall_canonical (visible : descriptor.Visible) {policy : ExistingTargetPolicy}
    (same : ∀ s t, SameEntry descriptor.id s t → R s t)
    (inspect : ∀ t, SameEntry descriptor.id s t →
      (inspectTarget catalog descriptor temp policy).Meets (device descriptor) R (fun _ _ => True) t) :
    (needsInstall catalog descriptor temp policy).Meets (device descriptor) R (fun _ _ => True) s := by
  refine Prog.Meets.bind (recover_canonical.mono same ?_)
  rintro (_ | _) t here
  · trivial
  refine Prog.Meets.bind ((sweepResidue_canonical visible).mono same ?_)
  rintro (_ | _) u here'
  · trivial
  exact inspect u (sameEntry_trans _ _ _ here here')

theorem inspectTarget_refreshed {policy : ExistingTargetPolicy} :
    (inspectTarget catalog descriptor temp policy).Meets (device descriptor)
      (Refreshed catalog descriptor) (fun _ _ => True) s := by
  refine inspectTarget_within refreshed_refl fun _ t ino dev es es' found kept => ?_
  intro ino₁ dev₁ es₁ found₁
  cases found.symm.trans found₁
  exact ⟨es', Runtime.get_set_top .., kept⟩

/-- A canonical directory that may not be replaced makes an activation do nothing to it. -/
theorem activate_canonical {extracted : Place} {policy : ExistingTargetPolicy}
    (held : classifyNode catalog descriptor (s.canonical descriptor) = .cleanup ∨
      s.canonical descriptor ≠ none ∧ policy ≠ .replaceNotReady) :
    (activate catalog descriptor extracted policy).Meets (device descriptor)
      (SameEntry descriptor.id) (fun _ _ => True) s := by
  refine Prog.Meets.bind (artifactCacheStateAt_meets rfl (fun _ => ?_) fun state ne => ?_)
  swap
  · dsimp only
    rw [if_pos ne]
    trivial
  obtain cleanup | ⟨present, kept⟩ := held
  · refine Prog.Meets.bind ((recover_refused (.inr cleanup) (sameEntry_refl s)).post ?_)
    rintro (_ | _) t ⟨-, refused⟩
    · trivial
    · exact absurd rfl refused
  refine Prog.Meets.bind (recover_canonical.post ?_)
  rintro (_ | _) t here
  · trivial
  refine Prog.Meets.bind (classify_meets rfl fun r reading => ?_)
  cases r with
  | error e => trivial
  | ok tree =>
  have there : tree ≠ .absent := by
    rintro rfl
    exact present (here.symm.trans (absent_of_classify reading.absent))
  dsimp only
  split
  next => trivial
  next =>
  rw [if_neg fun h => h.elim there fun h => kept h.2]
  trivial

/-! ## Every call -/

theorem Owned.not_foreign {entry : Option Node} (h : Owned catalog descriptor entry) :
    classifyNode catalog descriptor entry ≠ .foreign := by
  obtain ⟨ino, dev, es, rfl, ⟨living, matching⟩ | tombstoned⟩ := h
  · simp only [classifyNode, living, matching]
    split_ifs <;> simp_all
  · rw [tombstoned.classify]
    simp

variable {call : CleaningCall}

theorem call_spares (visible : descriptor.Visible)
    (present : s.get (.top name) ≠ none)
    (withheld : classifyNode catalog descriptor (s.get (.top name)) = .foreign ∨
      ¬ Selected catalog descriptor s name) :
    (call.prog catalog descriptor).Meets (device descriptor)
      (fun _ t => Spared catalog descriptor call.extracted name s t) (fun _ _ => True) s := by
  have kept {p : InstallProg Unit} {Q : Except String Unit → Runtime → Prop}
      (h : p.Meets (device descriptor) (SameEntry name) Q s) :
      p.Meets (device descriptor) (fun _ t => Spared catalog descriptor none name s t)
        (fun _ _ => True) s :=
    (h.reaches sameEntry_refl sameEntry_trans).mono (fun _ _ => .inl) fun _ _ _ => trivial
  cases call with
  | needsInstall temp policy => exact kept (needsInstall_spares withheld visible).discard
  | activate extracted policy => exact activate_spares present withheld
  | recover => exact kept (recover_spares withheld)
  | sweepResidue => exact kept (sweepResidue_spares withheld visible)

theorem call_refused (visible : descriptor.Visible)
    (held : classifyNode catalog descriptor (s.canonical descriptor) = .cleanup ∨
      classifyNode catalog descriptor (s.canonical descriptor) = .ownedIncomplete ∧
        ¬ call.Replaces) :
    (call.prog catalog descriptor).Meets (device descriptor)
      (fun _ t => SameEntry descriptor.id s t) (fun _ _ => True) s := by
  have notReady {t : Runtime} (same : SameEntry descriptor.id s t) :
      classifyNode catalog descriptor (t.canonical descriptor) ≠ .ready := by
    rw [show t.canonical descriptor = _ from same]
    rintro ready
    rw [ready] at held
    obtain held | ⟨held, -⟩ := held <;> cases held
  suffices (call.prog catalog descriptor).Meets (device descriptor) (SameEntry descriptor.id)
      (fun _ _ => True) s from this.reaches sameEntry_refl sameEntry_trans
  cases call with
  | needsInstall temp policy =>
    exact (needsInstall_canonical visible (fun _ _ => id) fun t same =>
      inspectTarget_within sameEntry_refl fun ready => absurd ready (notReady same)).discard
  | activate extracted policy =>
    refine activate_canonical (held.imp_right fun ⟨incomplete, kept⟩ => ⟨fun gone => ?_, kept⟩)
    rw [gone] at incomplete
    cases incomplete
  | recover => exact recover_canonical.post fun _ _ _ => trivial
  | sweepResidue => exact (sweepResidue_canonical visible).post fun _ _ _ => trivial

theorem call_refreshed (visible : descriptor.Visible)
    (ready : classifyNode catalog descriptor (s.canonical descriptor) = .ready)
    (kept : ¬ call.Replaces) :
    (call.prog catalog descriptor).Meets (device descriptor)
      (fun _ t => Refreshed catalog descriptor s t) (fun _ _ => True) s := by
  suffices (call.prog catalog descriptor).Meets (device descriptor)
      (Refreshed catalog descriptor) (fun _ _ => True) s from
    this.reaches refreshed_refl refreshed_trans
  cases call with
  | needsInstall temp policy =>
    exact (needsInstall_canonical visible refreshed_of_same fun _ _ =>
      inspectTarget_refreshed).discard
  | activate extracted policy =>
    refine (activate_canonical (.inr ⟨fun gone => ?_, kept⟩)).mono refreshed_of_same fun _ _ h => h
    rw [gone] at ready
    cases ready
  | recover => exact recover_canonical.mono refreshed_of_same fun _ _ _ => trivial
  | sweepResidue => exact (sweepResidue_canonical visible).mono refreshed_of_same fun _ _ _ => trivial

/-- **One call.** -/
theorem call_owned_only (visible : descriptor.Visible) :
    (call.prog catalog descriptor).Meets (device descriptor)
      (fun _ t => OwnedOnly catalog descriptor call s t) (fun _ _ => True) s := by
  have spared (name : String) : (call.prog catalog descriptor).Meets (device descriptor)
      (fun _ t => s.get (.top name) ≠ none →
        Selected catalog descriptor s name ∧ Owned catalog descriptor (s.get (.top name)) ∨
          Spared catalog descriptor call.extracted name s t) (fun _ _ => True) s := by
    by_cases absent : s.get (.top name) = none
    · exact (Prog.Meets.always ..).mono (fun _ _ _ present => absurd absent present) fun _ _ _ => trivial
    by_cases selected : Selected catalog descriptor s name
    · obtain owned | foreign := @owned_or_foreign catalog descriptor _ _ absent
      · exact (Prog.Meets.always ..).mono (fun _ _ _ _ => .inl ⟨selected, owned⟩) fun _ _ _ => trivial
      · exact (call_spares visible absent (.inl foreign)).mono (fun _ _ h _ => .inr h)
          fun _ _ _ => trivial
    · exact (call_spares visible absent (.inr selected)).mono (fun _ _ h _ => .inr h)
        fun _ _ _ => trivial
  have refused : (call.prog catalog descriptor).Meets (device descriptor)
      (fun _ t => classifyNode catalog descriptor (s.canonical descriptor) = .cleanup ∨
        classifyNode catalog descriptor (s.canonical descriptor) = .ownedIncomplete ∧
          ¬ call.Replaces → SameEntry descriptor.id s t) (fun _ _ => True) s := by
    by_cases held : classifyNode catalog descriptor (s.canonical descriptor) = .cleanup ∨
        classifyNode catalog descriptor (s.canonical descriptor) = .ownedIncomplete ∧ ¬ call.Replaces
    · exact (call_refused visible held).mono (fun _ _ h _ => h) fun _ _ _ => trivial
    · exact (Prog.Meets.always ..).mono (fun _ _ _ h => absurd h held) fun _ _ _ => trivial
  have refreshed : (call.prog catalog descriptor).Meets (device descriptor)
      (fun _ t => classifyNode catalog descriptor (s.canonical descriptor) = .ready →
        ¬ call.Replaces → Refreshed catalog descriptor s t) (fun _ _ => True) s := by
    by_cases held : classifyNode catalog descriptor (s.canonical descriptor) = .ready ∧ ¬ call.Replaces
    · exact (call_refreshed visible held.1 held.2).mono (fun _ _ h _ _ => h)
        fun _ _ _ => trivial
    · exact (Prog.Meets.always ..).mono (fun _ _ _ ready kept => absurd ⟨ready, kept⟩ held)
        fun _ _ _ => trivial
  refine ((Prog.Meets.all spared).both (refused.both refreshed)).mono ?_ fun _ _ _ => trivial
  rintro _ t ⟨spared, refused, refreshed⟩
  refine ⟨spared, fun name place foreign => ?_, refused, refreshed⟩
  have present : s.get (.top name) ≠ none := by
    intro gone
    rw [gone] at foreign
    cases foreign
  obtain ⟨-, owned⟩ | same | ⟨apart, -⟩ := spared name present
  · exact absurd foreign owned.not_foreign
  · exact same
  · obtain rfl | rfl := place
    · exact absurd rfl apart.1
    · exact absurd rfl apart.2

end Owned

/-! ## Every run -/

section Runs

variable {catalog : Catalog} {descriptor : ArtifactDescriptor} {s : Runtime}

/-- The calls that a run may start, when no tree is handed over out of one entry. -/
def Calls (catalog : Catalog) (descriptor : ArtifactDescriptor) (name : String)
    (p : InstallProg Unit) : Prop :=
  ∃ call : CleaningCall, p = call.prog catalog descriptor ∧
    ∀ place, call.extracted = some place → place.root ≠ name

/-- **Only what is owned.** Through every call, however its reads and its operations are disturbed,
nothing changes but what the call selects and owns; through every run of calls, a foreign entry
that no tree is taken out of stays as it is. -/
theorem deletes_only_owned (visible : descriptor.Visible)
    (s : Runtime) :
    (∀ call : CleaningCall, (call.prog catalog descriptor).Meets (device descriptor)
      (fun _ t => OwnedOnly catalog descriptor call s t) (fun _ _ => True) s) ∧
    ∀ name, classifyNode catalog descriptor (s.get (.top name)) = .foreign →
      ∀ c, Run (device descriptor) (fun _ => Calls catalog descriptor name) (fun _ => True)
        (s, none) c → SameEntry name s c.1 := by
  refine ⟨fun call => call_owned_only visible, fun name foreign c run => ?_⟩
  refine Run.kept (I := SameEntry name s) ?_ run rfl
  rintro t _ same ⟨call, rfl, apart⟩
  have foreign : classifyNode catalog descriptor (t.get (.top name)) = .foreign := by
    rwa [show t.get _ = _ from same]
  have present : t.get (.top name) ≠ none := by
    intro gone
    rw [gone] at foreign
    cases foreign
  refine (call_spares visible present (.inl foreign)).mono (fun _ u spared => ?_)
    fun _ _ _ => trivial
  obtain here | ⟨-, place, handed, root, -⟩ := spared
  · exact sameEntry_trans _ _ _ same here
  · exact absurd root (apart place handed)

/-- A slot of another artifact is met by a recovery. -/
def foreignRuntime : Runtime where
  entries := [(".dxvk-2.7.activation", .dir 3 1 [("notes.txt", .file (.text "mine"))]),
    (".dxvk-2.7.staging-7-1", .dir 4 1 [("dxvk-2.7", .dir 5 1 [("x64", .dir 2 1 []),
      (MARKER_FILE, .file (.text "receipt"))])])]
  slotRetired := false
  restored := false
  doomed := []

theorem deletes_only_owned_sample :
    SameEntry ".dxvk-2.7.activation" foreignRuntime
      ((recover sampleCatalog sampleDescriptor).killedAfter (device sampleDescriptor) 20
        foreignRuntime) :=
  (@deletes_only_owned sampleCatalog _ sampleDescriptor_visible foreignRuntime).2 _ (by decide) _
    (Run.killedAfter ⟨.recover, rfl, nofun⟩ 20)

/-- The tree that an activation is handed. -/
def handedRuntime : Runtime := { foreignRuntime with entries := foreignRuntime.entries.drop 1 }

/-- It keeps its bytes, and not its path. -/
theorem activation_moves_the_tree :
    ∃ tree t, handedRuntime.get (.inner ".dxvk-2.7.staging-7-1" "dxvk-2.7") = some tree ∧
      (activate sampleCatalog sampleDescriptor (.inner ".dxvk-2.7.staging-7-1" "dxvk-2.7")
        .refuse).exec (device sampleDescriptor) handedRuntime = (.ok (), t) ∧
      t.canonical sampleDescriptor = some tree ∧
      t.get (.inner ".dxvk-2.7.staging-7-1" "dxvk-2.7") = none :=
  ⟨_, _, rfl, rfl, rfl, rfl⟩

end Runs

end RoLauncher.Artifacts
