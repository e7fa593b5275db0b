import RoLauncher.Artifacts.Cleanup
import RoLauncher.Crash.Keeps

/-!
# Crashes during an activation

Every call of the installer, however it is disturbed, changes the canonical
directory only by a `FinalMove`: it refreshes the receipt of a ready tree, or
it brings in the prepared tree of the slot by one rename. From this the
canonical directory stays ready once it is, through any sequence of killed
calls.
-/

namespace RoLauncher.Artifacts

open RoLauncher.Files RoLauncher.Crash

/-! ## Receipts -/

section Receipts

variable (catalog : Catalog) (descriptor : ArtifactDescriptor)

/-- The receipt that the installer writes. -/
def rendered : Node := .file (.text (catalog.renderReceipt (receiptV2FromDescriptor descriptor)))

/-- A directory is as it was, except for the receipt and its temporary files. -/
structure Kept (es es' : Entries) : Prop where
  payload : ∀ name, reserved name = false → es'.find name = es.find name
  cleanup : es'.find CLEANUP = es.find CLEANUP
  marker : es'.find MARKER_FILE = es.find MARKER_FILE ∨
    es'.find MARKER_FILE = some (rendered catalog descriptor)

end Receipts

section Receipts

variable {catalog : Catalog} {descriptor : ArtifactDescriptor} {es es' es'' : Entries} {ino dev : Nat}

theorem Kept.refl (es : Entries) : Kept catalog descriptor es es := ⟨fun _ _ => rfl, rfl, .inl rfl⟩

theorem Kept.trans (h : Kept catalog descriptor es es') (h' : Kept catalog descriptor es' es'') :
    Kept catalog descriptor es es'' := by
  refine ⟨fun name free => (h'.payload name free).trans (h.payload name free),
    h'.cleanup.trans h.cleanup, ?_⟩
  obtain same | new := h'.marker
  · exact h.marker.imp same.trans same.trans
  · exact .inr new

/-- Only a temporary file changes. -/
theorem kept_of_temp {temp : ReceiptTemp}
    (same : ∀ name, name ≠ temp.name → es'.find name = es.find name) :
    Kept catalog descriptor es es' where
  payload name free := same name (ne_of_reserved free (reserved_temp temp))
  cleanup := same _ temp.name_ne_cleanup.symm
  marker := .inl (same _ temp.name_ne_marker.symm)

/-- The temporary file takes the place of the receipt. -/
theorem kept_of_move {temp : ReceiptTemp}
    (written : es.find temp.name = some (rendered catalog descriptor)) :
    Kept catalog descriptor es (es.move temp.name MARKER_FILE) where
  payload _ free := Entries.find_move_of_ne (ne_of_reserved free (reserved_temp temp))
    (ne_of_reserved free reserved_marker)
  cleanup := Entries.find_move_of_ne temp.name_ne_cleanup.symm marker_ne_cleanup.symm
  marker := .inr (Entries.find_move_destination written)

theorem parse_rendered (lawful : catalog.Lawful descriptor) :
    parseStoredReceipt catalog (some (rendered catalog descriptor)) =
      .ok (some (.v2 (receiptV2FromDescriptor descriptor))) := by
  simp only [parseStoredReceipt, rendered, if_pos lawful.fits, lawful.parse_render]

theorem cacheState_ready_iff : cacheStateInDirectory catalog descriptor es = .ready ↔
    matchingReceipt catalog descriptor (es.find MARKER_FILE) = true ∧
      catalog.payloadReady descriptor es = true := by
  simp only [cacheStateInDirectory, matchingReceipt]
  split
  next stored _ =>
    cases storedIdentityMatchesDescriptor descriptor stored <;>
      cases catalog.payloadReady descriptor es <;> simp
  next => simp

/-- A directory is ready when it has a receipt, its payload, and no tombstone. -/
theorem classifyNode_ready_iff : classifyNode catalog descriptor (some (.dir ino dev es)) = .ready ↔
    es.find CLEANUP = none ∧ cacheStateInDirectory catalog descriptor es = .ready := by
  simp only [classifyNode]
  split_ifs with tombstone unmarked unmatched ready
  · simp [Option.isSome_iff_ne_none.mp tombstone]
  · simp [Option.isSome_iff_ne_none.mp tombstone]
  · refine iff_of_false (by decide) fun h => ?_
    rw [(cacheState_ready_iff.mp h.2).1] at unmatched
    cases unmatched
  · exact iff_of_true rfl ⟨by simpa using tombstone, ready⟩
  · exact iff_of_false (by decide) fun h => ready h.2

theorem matching_rendered (lawful : catalog.Lawful descriptor) :
    matchingReceipt catalog descriptor (some (rendered catalog descriptor)) = true := by
  simp only [matchingReceipt, parse_rendered lawful, storedIdentityMatchesDescriptor,
    receiptV2FromDescriptor_matches]

theorem Kept.ready (lawful : catalog.Lawful descriptor) (kept : Kept catalog descriptor es es')
    (ready : classifyNode catalog descriptor (some (.dir ino dev es)) = .ready) :
    classifyNode catalog descriptor (some (.dir ino dev es')) = .ready := by
  rw [classifyNode_ready_iff, cacheState_ready_iff] at ready ⊢
  obtain ⟨living, matching, payload⟩ := ready
  refine ⟨kept.cleanup.trans living, ?_,
    (lawful.payload_reserved es es' kept.payload).trans payload⟩
  obtain same | new := kept.marker
  · rwa [same]
  · rw [new, matching_rendered lawful]

end Receipts

/-! ## Moves of the canonical directory -/

/-- The canonical directory of an artifact. -/
abbrev Runtime.canonical (s : Runtime) (descriptor : ArtifactDescriptor) : Option Node :=
  s.get (.top descriptor.id)

abbrev Runtime.slot (s : Runtime) (descriptor : ArtifactDescriptor) : Option Node :=
  s.get (.top (activationSlot descriptor))

/-- A work directory of a caller: neither the canonical directory nor the slot. -/
def ArtifactDescriptor.Private (descriptor : ArtifactDescriptor) (name : String) : Prop :=
  name ≠ descriptor.id ∧ name ≠ activationSlot descriptor

section Moves

variable (catalog : Catalog) (descriptor : ArtifactDescriptor)

/-- What one step can make of the canonical directory. A ready tree keeps everything but its
receipt; a tree arrives from the slot whole, and only one that was never given up. -/
inductive FinalMove (s t : Runtime) : Prop
  | stays (same : t.canonical descriptor = s.canonical descriptor)
  | receipt {ino dev : Nat} {es es' : Entries}
      (before : s.canonical descriptor = some (.dir ino dev es))
      (after : t.canonical descriptor = some (.dir ino dev es'))
      (ready : classifyNode catalog descriptor (s.canonical descriptor) = .ready)
      (kept : Kept catalog descriptor es es')
  | committed (absent : s.canonical descriptor = none)
      (brought : t.canonical descriptor = s.slot descriptor)
      (ready : classifyNode catalog descriptor (t.canonical descriptor) = .ready)
      (taken : t.slot descriptor = none) (prepared : s.slotRetired = false)
  | exchanged
      (owned : classifyNode catalog descriptor (s.canonical descriptor) = .ready ∨
        classifyNode catalog descriptor (s.canonical descriptor) = .ownedIncomplete)
      (brought : t.canonical descriptor = s.slot descriptor)
      (ready : classifyNode catalog descriptor (t.canonical descriptor) = .ready)
      (given : t.slot descriptor = s.canonical descriptor) (prepared : s.slotRetired = false)

/-- One step of any program of the installer. -/
structure Steps (s t : Runtime) : Prop where
  move : FinalMove catalog descriptor s t
  restored : t.restored = s.restored
  fine : Fine catalog descriptor (s.slot descriptor) → Fine catalog descriptor (t.slot descriptor)

/-- A change below one entry of the runtime directory; it tombstones nothing. -/
structure Elsewhere (root : String) (s t : Runtime) : Prop where
  others : ∀ other, other ≠ root → t.get (.top other) = s.get (.top other)
  restored : t.restored = s.restored
  doomed : ∀ other, other ∈ t.doomed → other ∈ s.doomed

/-- A change of the receipt of the directory at a place. -/
structure Receipted (place : Place) (s t : Runtime) : Prop extends Elsewhere place.root s t where
  cleanup : child (t.get place) CLEANUP = child (s.get place) CLEANUP

end Moves

section Moves

variable {catalog : Catalog} {descriptor : ArtifactDescriptor} {s t u : Runtime} {name : String}
  {place : Place}

theorem Steps.refl (s : Runtime) : Steps catalog descriptor s s := ⟨.stays rfl, rfl, id⟩

theorem Elsewhere.steps (hidden : descriptor.Private name) (h : Elsewhere name s t) :
    Steps catalog descriptor s t :=
  ⟨.stays (h.others _ hidden.1.symm), h.restored, fun fine => by
    rwa [Runtime.slot, h.others _ hidden.2.symm]⟩

theorem Elsewhere.refl (s : Runtime) : Elsewhere name s s := ⟨fun _ _ => rfl, rfl, fun _ => id⟩

theorem Elsewhere.trans (h : Elsewhere name s t) (h' : Elsewhere name t u) : Elsewhere name s u :=
  ⟨fun other ne => (h'.others other ne).trans (h.others other ne), h'.restored.trans h.restored,
    fun other mem => h.doomed other (h'.doomed other mem)⟩

theorem elsewhere_set (s : Runtime) (place : Place) (node : Option Node) :
    Elsewhere place.root s (s.set place node) :=
  ⟨fun _ ne => Runtime.get_set_of_ne ne, Runtime.set_restored ..,
    fun _ mem => by rwa [Runtime.set_doomed] at mem⟩

@[simp] theorem noteMade_get (name : String) (s : Runtime) (place : Place) :
    (noteMade name s).get place = s.get place := by
  cases place <;> rfl

/-- A call inside a directory. -/
theorem elsewhere_inside (s : Runtime) (place : Place) (f : Entries → Except String Entries) :
    Elsewhere place.root s (inside s place f).2 := by
  unfold inside
  split
  · split
    · exact elsewhere_set ..
    · exact .refl s
  · exact .refl s
  · exact .refl s

theorem elsewhere_torn {o : InstallOp} (torn : tornOp o s t)
    (here : ∀ es es', tornInside o es es' → o.tornPlace = place) :
    Elsewhere place.root s t := by
  obtain rfl | ⟨_, _, es, es', _, inside, rfl⟩ := torn
  · exact .refl t
  · rw [here es es' inside]
    exact elsewhere_set ..

/-- A directory is made. -/
theorem elsewhere_made (s : Runtime) (name : String) (node : Option Node) :
    Elsewhere name s (noteMade name (s.set (.top name) node)) :=
  ⟨fun other ne => (noteMade_get ..).trans ((elsewhere_set s (.top name) node).others other ne), rfl,
    fun _ mem => (List.mem_filter.mp mem).1⟩

theorem Receipted.refl (s : Runtime) : Receipted place s s := ⟨.refl s, rfl⟩

theorem Receipted.trans (h : Receipted place s t) (h' : Receipted place t u) : Receipted place s u :=
  ⟨h.toElsewhere.trans h'.toElsewhere, h'.cleanup.trans h.cleanup⟩

theorem receipted_set {ino dev : Nat} {es es' : Entries} (found : s.get place = some (.dir ino dev es))
    (kept : Kept catalog descriptor es es') : Receipted place s (s.set place (some (.dir ino dev es'))) := by
  refine ⟨elsewhere_set .., ?_⟩
  rw [Runtime.get_set_dir found, found, child_dir, child_dir, kept.cleanup]

/-- A cleanup never touches the canonical directory. -/
theorem Cleans.steps (ne : name ≠ descriptor.id) (h : Cleans catalog descriptor name s t) :
    Steps catalog descriptor s t := by
  refine ⟨.stays (h.others _ ne.symm), h.restored, fun fine => ?_⟩
  by_cases slot : name = activationSlot descriptor
  · subst slot
    exact h.fine fine
  · rwa [Runtime.slot, h.others _ (Ne.symm slot)]

/-- A ready canonical directory stays ready. -/
theorem FinalMove.ready (lawful : catalog.Lawful descriptor) (h : FinalMove catalog descriptor s t)
    (ready : classifyNode catalog descriptor (s.canonical descriptor) = .ready) :
    classifyNode catalog descriptor (t.canonical descriptor) = .ready := by
  cases h with
  | stays same => rwa [same]
  | receipt before after _ kept =>
    rw [after]
    rw [before] at ready
    exact kept.ready lawful ready
  | committed _ _ ready _ _ => exact ready
  | exchanged _ _ ready _ _ => exact ready

/-- A canonical directory becomes ready by one rename of the slot. -/
theorem FinalMove.brought (h : FinalMove catalog descriptor s t)
    (before : classifyNode catalog descriptor (s.canonical descriptor) ≠ .ready)
    (after : classifyNode catalog descriptor (t.canonical descriptor) = .ready) :
    t.canonical descriptor = s.slot descriptor ∧ t.slot descriptor = s.canonical descriptor ∧
      s.slotRetired = false := by
  cases h with
  | stays same => exact absurd (same ▸ after) before
  | receipt _ _ ready _ => exact absurd ready before
  | committed absent brought _ taken prepared => exact ⟨brought, taken.trans absent.symm, prepared⟩
  | exchanged _ brought _ given prepared => exact ⟨brought, given, prepared⟩

end Moves

/-! ## What each program does -/

section Programs

variable {catalog : Catalog} {descriptor : ArtifactDescriptor} {s : Runtime}
  {R : Runtime → Runtime → Prop} {place : Place} {ino dev : Nat} {es es₀ : Entries} {temp : ReceiptTemp}

/-- The temporary file is renamed onto the receipt, unless a directory is in the way. -/
theorem exec_renameIn_receipt (found : s.get place = some (.dir ino dev es))
    (written : es.find temp.name = some (rendered catalog descriptor)) :
    execOp descriptor (.renameIn place temp.name MARKER_FILE true) s =
        (.ok (), s.set place (some (.dir ino dev (es.move temp.name MARKER_FILE)))) ∨
      execOp descriptor (.renameIn place temp.name MARKER_FILE true) s =
        (.error eisdir, s) := by
  simp only [execOp, inside, found, written]
  cases es.find MARKER_FILE with
  | none => exact .inl (by simp only [noteTombstone, if_neg marker_ne_cleanup])
  | some target => cases target <;> simp [rendered, Node.kind, noteTombstone, if_neg marker_ne_cleanup]

/-- A directory that started with the entries `es₀` stands at the place, and has kept them. -/
def Holding (catalog : Catalog) (descriptor : ArtifactDescriptor) (place : Place) (ino dev : Nat)
    (es₀ : Entries) (t : Runtime) : Prop :=
  ∃ es, t.get place = some (.dir ino dev es) ∧ Kept catalog descriptor es₀ es

theorem kept_put_temp (es : Entries) (node : Node) : Kept catalog descriptor es (es.put temp.name node) :=
  kept_of_temp fun _ ne => Entries.find_put_of_ne ne

section Write

variable (refl : ∀ s, R s s)
  (step : ∀ s es es', s.get place = some (.dir ino dev es) → Kept catalog descriptor es₀ es →
    Kept catalog descriptor es es' → R s (s.set place (some (.dir ino dev es'))))

include refl step

/-- The written file becomes the receipt. -/
theorem publish_meets (found : s.get place = some (.dir ino dev es))
    (kept : Kept catalog descriptor es₀ es)
    (written : es.find temp.name = some (rendered catalog descriptor)) :
    (do
      run (.renameIn place temp.name MARKER_FILE true)
      run .read : InstallProg Unit).Meets (device descriptor) R
        (fun _ t => Holding catalog descriptor place ino dev es₀ t) s := by
  have moved := kept_of_move written
  have last : Holding catalog descriptor place ino dev es₀
      (s.set place (some (.dir ino dev (es.move temp.name MARKER_FILE)))) :=
    ⟨_, Runtime.get_set_dir found _, kept.trans moved⟩
  refine Prog.Meets.bind (meets_perform_whole (fun _ _ => id) (refl s) (fun _ => ⟨es, found, kept⟩) ?_)
  obtain done | exec := exec_renameIn_receipt found written
  · exact .inr ⟨_, done, step _ _ _ found kept moved, meets_run_read (refl _) last fun _ => last⟩
  · exact .inl ⟨_, exec⟩

/-- The receipt is written to the temporary file, whatever was in it. -/
theorem writeTemp_meets (found : s.get place = some (.dir ino dev es))
    (kept : Kept catalog descriptor es₀ es) :
    (do
      run (.write place temp.name
        (.text (catalog.renderReceipt (receiptV2FromDescriptor descriptor))))
      run (.renameIn place temp.name MARKER_FILE true)
      run .read : InstallProg Unit).Meets (device descriptor) R
        (fun _ t => Holding catalog descriptor place ino dev es₀ t) s := by
  refine Prog.Meets.bind (meets_run_within rfl found (refl s) (fun _ _ _ => rfl) ?_ ?_
    fun _ => ⟨es, found, kept⟩)
  · rintro _ ⟨old, blob, -, -, rfl⟩
    have torn := @kept_put_temp catalog descriptor temp es (.file blob)
    exact ⟨step _ _ _ found kept torn, fun _ => ⟨_, Runtime.get_set_dir found _, kept.trans torn⟩⟩
  · intro es' written
    split at written <;> cases written
    have whole := @kept_put_temp catalog descriptor temp es (rendered catalog descriptor)
    exact ⟨step _ _ _ found kept whole, publish_meets refl step
      (Runtime.get_set_dir found _) (kept.trans whole) (Entries.find_put_self ..)⟩

theorem removeTemp_step (found : s.get place = some (.dir ino dev es))
    (kept : Kept catalog descriptor es₀ es) :
    R s (execOp descriptor (.removeFile place temp.name) s).2 := by
  have erased : Kept catalog descriptor es (es.erase temp.name) :=
    kept_of_temp fun _ ne => Entries.find_erase_of_ne ne
  simp only [execOp, inside, found]
  cases es.find temp.name with
  | none => exact refl s
  | some node =>
    cases node with
    | dir ino dev es => exact refl s
    | _ => exact step _ _ _ found kept erased

/-- While a receipt is written, the directory keeps everything else. -/
theorem writeReceipt_meets (found : s.get place = some (.dir ino dev es₀)) :
    (writeReceipt catalog descriptor temp place).Meets (device descriptor) R (fun _ _ => True) s := by
  refine Prog.Meets.bind (meets_run_read (refl s) ?_ fun e => trivial)
  refine Prog.Meets.bind (Prog.Meets.attempt (Prog.Meets.post
    (Q := fun _ t => Holding catalog descriptor place ino dev es₀ t) ?_ ?_))
  · refine Prog.Meets.bind (meets_run_within rfl found (refl s) nofun nofun ?_
      fun _ => ⟨es₀, found, .refl es₀⟩)
    intro es' created
    split at created <;> cases created
    have empty := @kept_put_temp catalog descriptor temp es₀ (.file (.text ""))
    exact ⟨step _ _ _ found (.refl es₀) empty,
      writeTemp_meets refl step (Runtime.get_set_dir found _) empty⟩
  · rintro (e | _) t ⟨es, found, kept⟩
    · refine Prog.Meets.bind ⟨?_, ?_, trivial⟩
      · rintro u (rfl | ⟨_, _, _, _, _, torn, _⟩)
        · exact ⟨refl u, fun _ => trivial⟩
        · exact torn.elim
      · exact removeTemp_step refl step found kept
    · trivial

end Write

/-- A directory that gets a receipt keeps the rest. -/
theorem writeReceipt_receipted (found : s.get place = some (.dir ino dev es₀)) :
    (writeReceipt catalog descriptor temp place).Meets (device descriptor) (Receipted place)
      (fun _ t => Receipted place s t) s :=
  ((writeReceipt_meets .refl (fun _ _ _ here _ kept => receipted_set here kept) found).linked
    .refl fun _ _ _ => .trans).post fun _ _ h => h.1

/-- An elevation does nothing, or writes the receipt. -/
theorem elevateV1_within (refl : ∀ s, R s s)
    (write : (writeReceipt catalog descriptor temp place).Meets (device descriptor) R
      (fun _ _ => True) s) :
    (elevateV1 catalog descriptor temp place).Meets (device descriptor) R (fun _ _ => True) s := by
  refine Prog.Meets.bind (artifactCacheStateAt_meets (refl s) (fun _ => ?_) fun state ne => ?_)
  · refine meets_reading (refl s) ?_ fun _ => trivial
    split
    next =>
      split
      · exact write
      · trivial
    next => trivial
    next => trivial
  · dsimp only
    rw [if_pos ne]
    trivial

theorem elevateV1_meets (lawful : catalog.Lawful descriptor)
    (ready : classifyNode catalog descriptor (s.canonical descriptor) = .ready) :
    (elevateV1 catalog descriptor temp (.top descriptor.id)).Meets (device descriptor)
      (Steps catalog descriptor) (fun _ _ => True) s := by
  obtain ⟨ino, dev, es, found, -, -⟩ := owned_of_classify (.inl ready)
  have write : (writeReceipt catalog descriptor temp (.top descriptor.id)).Meets (device descriptor)
      (Steps catalog descriptor) (fun _ _ => True) s := by
    refine writeReceipt_meets .refl (fun u es₁ es₂ here kept more => ?_) found
    have ready₁ := kept.ready lawful (found ▸ ready)
    refine ⟨.receipt here (Runtime.get_set_top ..) (by rwa [Runtime.canonical, here]) more, Runtime.set_restored ..,
      fun fine => ?_⟩
    rwa [Runtime.slot, Runtime.get_set_of_ne (activationSlot_ne_id descriptor)]
  exact elevateV1_within .refl write

/-- Recovery touches the slot only. -/
theorem recover_meets :
    (recover catalog descriptor).Meets (device descriptor)
      (Cleans catalog descriptor (activationSlot descriptor)) (fun _ _ => True) s := by
  refine Prog.Meets.bind (classify_meets (.refl s) fun final _ => ?_)
  cases final with
  | error e => trivial
  | ok final =>
  refine Prog.Meets.bind (classify_meets (.refl s) fun slot _ => ?_)
  cases slot with
  | error e => trivial
  | ok slot =>
  dsimp only
  split
  next => trivial
  next =>
  cases slot with
  | absent => trivial
  | foreign =>
    dsimp only
    split <;> trivial
  | _ => exact cleanupOwned_meets.post fun _ _ _ => trivial

theorem cleanWork_meets {name : String} :
    (cleanWork catalog descriptor name).Meets (device descriptor) (Cleans catalog descriptor name)
      (fun _ _ => True) s :=
  Prog.Meets.bind (Prog.Meets.attempt (cleanupOwned_meets.post fun _ _ _ => trivial))

/-- A sweep is made of cleanups of names that residue has; a backup needs a ready tree. -/
theorem sweepResidue_within {I : Runtime → Prop} (refl : ∀ s, R s s) (start : I s)
    (clean : ∀ name t, (isWork descriptor name = true ∨ isPrevious descriptor name = true ∧
      artifactCacheState catalog descriptor (t.canonical descriptor) = .ready) → I t →
      (cleanWork catalog descriptor name).Meets (device descriptor) R (fun _ u => I u) t) :
    (sweepResidue catalog descriptor).Meets (device descriptor) R (fun _ t => I t) s := by
  refine Prog.Meets.bind (meets_run_read (refl s) ?_ fun e => start)
  refine Prog.Meets.forM (I := fun _ t => I t) start ?_ fun _ kept => kept
  intro name rest t here
  split
  next => exact here
  next candidate =>
  refine Prog.Meets.post (Q := fun _ u => I u) ?_ fun r _ kept => by cases r <;> exact kept
  dsimp only
  cases previous : isPrevious descriptor name with
  | true =>
    refine Prog.Meets.bind (artifactCacheStateAt_meets (refl t) (fun ready => ?_) fun state ne => ?_)
    · exact clean name t (.inr ⟨previous, ready⟩) here
    · have kept : (decide (state ≠ .ready)) = true := decide_eq_true ne
      change (if decide (state ≠ .ready) then .ret () else cleanWork catalog descriptor name :
        InstallProg Unit).Meets _ _ _ _
      rw [kept]
      exact here
  | false =>
    have work : isWork descriptor name = true := by
      rw [previous] at candidate
      simpa using candidate
    exact clean name t (.inl work) here

/-- The sweep takes no name that is the canonical one. -/
theorem sweepResidue_meets (visible : descriptor.Visible) :
    (sweepResidue catalog descriptor).Meets (device descriptor) (Steps catalog descriptor)
      (fun _ _ => True) s :=
  sweepResidue_within .refl trivial fun _ _ residue _ =>
    cleanWork_meets.mono (fun _ _ h => h.steps (residue_ne_id visible (residue.imp_right And.left)))
      fun _ _ _ => trivial

theorem inspectTarget_meets (lawful : catalog.Lawful descriptor) {policy : ExistingTargetPolicy} :
    (inspectTarget catalog descriptor temp policy).Meets (device descriptor) (Steps catalog descriptor)
      (fun _ _ => True) s := by
  refine Prog.Meets.bind (classify_meets (.refl s) fun r reading => ?_)
  cases r with
  | error e => trivial
  | ok tree =>
  cases tree with
  | absent => trivial
  | ownedIncomplete =>
    dsimp only
    split <;> trivial
  | ready =>
    exact Prog.Meets.bind (Prog.Meets.attempt (elevateV1_meets lawful reading.ready))
  | _ => trivial

theorem needsInstall_meets (lawful : catalog.Lawful descriptor) (visible : descriptor.Visible)
    {policy : ExistingTargetPolicy} :
    (needsInstall catalog descriptor temp policy).Meets (device descriptor) (Steps catalog descriptor)
      (fun _ _ => True) s := by
  refine Prog.Meets.bind (recover_meets.mono (fun _ _ h => h.steps (activationSlot_ne_id descriptor)) ?_)
  rintro (_ | _) t -
  · trivial
  refine Prog.Meets.bind ((sweepResidue_meets visible).post ?_)
  rintro (_ | _) u -
  · trivial
  exact inspectTarget_meets lawful

/-- A tree that was prepared carries no tombstone, and no entry was given one meanwhile. -/
theorem prepare_meets :
    (prepare catalog descriptor temp place).Meets (device descriptor) (Receipted place)
      (fun r t => r = .ok () → Receipted place s t ∧ child (t.get place) CLEANUP = none) s := by
  refine meets_reading (.refl s) ?_ fun _ => nofun
  split
  next ino dev es found =>
    split
    next => nofun
    next =>
    refine meets_reading (.refl s) ?_ fun _ => nofun
    split
    next => nofun
    next free =>
    have living : child (s.get place) CLEANUP = none := by
      rw [found, child_dir]
      rw [Bool.or_eq_true, not_or] at free
      simpa using free.2
    refine Prog.Meets.bind ((writeReceipt_receipted found).post ?_)
    rintro (_ | _) t written
    · nofun
    have prepared : Receipted place s t ∧ child (t.get place) CLEANUP = none :=
      ⟨written, written.cleanup.trans living⟩
    refine Prog.Meets.bind (artifactCacheStateAt_meets (.refl t) (fun _ _ => prepared) fun state ne => ?_)
    dsimp only
    rw [if_pos ne]
    nofun
  next => nofun

/-- A work directory that was made is a new entry. -/
theorem createWork_meets {name : String} :
    (createWork catalog descriptor temp name).Meets (device descriptor) (Elsewhere name)
      (fun r t => r = .ok () → name ∉ t.doomed) s := by
  refine Prog.Meets.bind (meets_perform_whole (fun _ _ => id) (.refl s) (fun _ failed => by cases failed) ?_)
  simp only [execOp]
  split
  next => exact .inl ⟨_, rfl⟩
  next =>
    refine .inr ⟨_, rfl, elsewhere_made .., ?_⟩
    have found : (noteMade name (s.set (.top name) (some (.dir 0 0 [])))).get (.top name) =
        some (.dir 0 0 []) := by
      rw [noteMade_get, Runtime.get_set_top]
    have made : name ∉ (noteMade name (s.set (.top name) (some (.dir 0 0 [])))).doomed := fun mem => by
      simpa using (List.mem_filter.mp mem).2
    refine Prog.Meets.bind ((writeReceipt_receipted found).mono (fun _ _ h => h.toElsewhere) ?_)
    rintro (_ | _) t written
    · intro failed
      cases failed
    · exact meets_run_read (.refl t) (fun _ mem => made (written.doomed name mem))
        fun _ failed => by cases failed

theorem fill_meets {name : String} {work : Entries → Except String Unit × Entries} :
    (run (.fill name work)).Meets (device descriptor) (Elsewhere name)
      (fun _ t => Elsewhere name s t) s := by
  have step (t : Runtime) (node : Option Node) : Elsewhere name t (t.set (.top name) node) :=
    elsewhere_set t (.top name) node
  refine (Prog.Meets.linked (Q := fun _ _ => True) .refl (fun _ _ _ => .trans)
    (Prog.meets_perform ?_ ?_ (fun _ => trivial) fun _ _ => trivial)).post fun _ _ h => h.1
  · rintro t (rfl | ⟨_, _, _, _, _, _, rfl⟩)
    · exact ⟨.refl t, fun _ => trivial⟩
    · exact ⟨step .., fun _ => trivial⟩
  · simp only [device, execOp]
    split
    · exact step ..
    · exact .refl s

/-! ### The activation -/

/-- The tree that was just reserved in the slot: ready, and never given up. -/
structure Reserved (catalog : Catalog) (descriptor : ArtifactDescriptor) (s : Runtime) : Prop where
  ready : classifyNode catalog descriptor (s.slot descriptor) = .ready
  prepared : s.slotRetired = false

theorem Reserved.found (h : Reserved catalog descriptor s) : ∃ node, s.slot descriptor = some node := by
  obtain ⟨ino, dev, es, found, -, -⟩ := owned_of_classify (.inl h.ready)
  exact ⟨_, found⟩

theorem execOp_rename (s : Runtime) (source : Place) (destination : String) :
    (∃ e, execOp descriptor (.rename source destination) s = (.error e, s)) ∨
      ∃ node, s.get source = some node ∧ s.get (.top destination) = none ∧
        execOp descriptor (.rename source destination) s =
          (.ok (), noteRename descriptor source destination
            ((s.set source none).set (.top destination) (some node)) s) := by
  simp only [execOp]
  split
  next => exact .inl ⟨_, rfl⟩
  next node found =>
    split
    next => exact .inl ⟨_, rfl⟩
    next free => exact .inr ⟨node, found, by simpa using free, rfl⟩

theorem execOp_exchange (s : Runtime) (source destination : String) :
    (∃ e, execOp descriptor (.exchange source destination) s = (.error e, s)) ∨
      ∃ node node', s.get (.top source) = some node ∧ s.get (.top destination) = some node' ∧
        execOp descriptor (.exchange source destination) s =
          (.ok (), noteExchange descriptor source destination
            ((s.set (.top source) (some node')).set (.top destination) (some node)) s) := by
  simp only [execOp]
  split
  next node node' found found' => exact .inr ⟨node, node', found, found', rfl⟩
  next => exact .inl ⟨_, rfl⟩

@[simp] theorem noteRename_get (source : Place) (destination : String) (t before : Runtime)
    (place : Place) :
    (noteRename descriptor source destination t before).get place = t.get place := by
  unfold noteRename
  split_ifs <;> cases place <;> rfl

@[simp] theorem noteExchange_get (source destination : String) (t before : Runtime) (place : Place) :
    (noteExchange descriptor source destination t before).get place = t.get place := by
  unfold noteExchange
  split_ifs <;> cases place <;> rfl

/-- A tree that was never given up is no restoration. -/
theorem noteRename_restored {source : Place} {destination : String} {t before : Runtime}
    (same : t.restored = before.restored) (prepared : before.slotRetired = false) :
    (noteRename descriptor source destination t before).restored = before.restored := by
  unfold noteRename
  split_ifs <;> simp [same, prepared]

theorem noteExchange_restored {source destination : String} {t before : Runtime}
    (same : t.restored = before.restored) (prepared : before.slotRetired = false) :
    (noteExchange descriptor source destination t before).restored = before.restored := by
  unfold noteExchange
  split_ifs <;> simp [same, prepared]

/-- **The commit of an install.** The slot takes the free canonical name. -/
theorem rename_commit_meets (h : Reserved catalog descriptor s) {onError : String → String}
    {Q : Except String Unit → Runtime → Prop} (post : ∀ r t, Q r t) :
    (Prog.perform (.rename (.top (activationSlot descriptor)) descriptor.id) onError :
      InstallProg Unit).Meets (device descriptor) (Steps catalog descriptor) Q s := by
  have ne := activationSlot_ne_id descriptor
  refine meets_perform_whole (fun _ _ => id) (.refl s) (fun _ => post _ _)
    ((execOp_rename ..).imp_right ?_)
  rintro ⟨node, found, absent, exec⟩
  refine ⟨_, exec, ⟨.committed absent ?_ ?_ ?_ h.prepared, ?_, fun _ => .inl ?_⟩, post _ _⟩
  · rw [Runtime.canonical, noteRename_get, Runtime.get_set_top, Runtime.slot, found]
  · rw [Runtime.canonical, noteRename_get, Runtime.get_set_top, ← found]
    exact h.ready
  · rw [Runtime.slot, noteRename_get, Runtime.get_set_of_ne ne, Runtime.get_set_top]
  · exact noteRename_restored (by rw [Runtime.set_restored, Runtime.set_restored]) h.prepared
  · rw [Runtime.slot, noteRename_get, Runtime.get_set_of_ne ne, Runtime.get_set_top]
    nofun

/-- **The commit of a replacement.** The slot and an owned canonical directory change places. -/
theorem exchange_commit_meets (h : Reserved catalog descriptor s)
    (owned : classifyNode catalog descriptor (s.canonical descriptor) = .ready ∨
      classifyNode catalog descriptor (s.canonical descriptor) = .ownedIncomplete)
    {onError : String → String} {Q : Except String Unit → Runtime → Prop} (post : ∀ r t, Q r t) :
    (Prog.perform (.exchange (activationSlot descriptor) descriptor.id) onError :
      InstallProg Unit).Meets (device descriptor) (Steps catalog descriptor) Q s := by
  have ne := activationSlot_ne_id descriptor
  refine meets_perform_whole (fun _ _ => id) (.refl s) (fun _ => post _ _)
    ((execOp_exchange ..).imp_right ?_)
  rintro ⟨node, node', found, found', exec⟩
  refine ⟨_, exec, ⟨.exchanged owned ?_ ?_ ?_ h.prepared, ?_, fun _ => .inl ?_⟩, post _ _⟩
  · rw [Runtime.canonical, noteExchange_get, Runtime.get_set_top, Runtime.slot, found]
  · rw [Runtime.canonical, noteExchange_get, Runtime.get_set_top, ← found]
    exact h.ready
  · rw [Runtime.slot, noteExchange_get, Runtime.get_set_of_ne ne, Runtime.get_set_top,
      Runtime.canonical, found']
  · exact noteExchange_restored (by rw [Runtime.set_restored, Runtime.set_restored]) h.prepared
  · rw [Runtime.slot, noteExchange_get, Runtime.get_set_of_ne ne, Runtime.get_set_top, ← found']
    obtain ready | incomplete := owned
    · rw [ready]
      nofun
    · rw [incomplete]
      nofun

/-- **The commit.** -/
theorem commit_meets (h : Reserved catalog descriptor s) {replace : Bool} :
    (commit catalog descriptor replace).Meets (device descriptor) (Steps catalog descriptor)
      (fun _ _ => True) s := by
  have synced {t : Runtime} : (Prog.perform .read
      fun error => s!"{descriptor.id} quedó activado; falló fsync del padre: {error}" :
      InstallProg Unit).Meets (device descriptor) (Steps catalog descriptor) (fun _ _ => True) t :=
    meets_run_read (.refl t) trivial fun _ => trivial
  refine Prog.Meets.bind (artifactCacheStateAt_meets (.refl s) (fun _ => ?_) fun state ne => ?_)
  · cases replace with
    | false =>
      refine Prog.Meets.bind (rename_commit_meets h ?_)
      rintro (_ | _) t
      · trivial
      · exact synced
    | true =>
      refine Prog.Meets.bind (classify_meets (.refl s) fun r reading => ?_)
      cases r with
      | error e => trivial
      | ok tree =>
      dsimp only
      split
      next => trivial
      next owned =>
      have owned : tree = .ready ∨ tree = .ownedIncomplete := by
        by_contra neither
        exact owned (not_or.mp neither)
      refine Prog.Meets.bind (exchange_commit_meets h (reading.owned owned) ?_)
      · rintro (_ | _) t
        · trivial
        · exact synced
  · dsimp only
    rw [if_pos ne]
    trivial

/-- A directory inside a work directory that the caller may activate: nothing tombstoned it. -/
structure Activatable (s : Runtime) (descriptor : ArtifactDescriptor) (wrapper name : String) :
    Prop where
  hidden : descriptor.Private wrapper
  living : s.tombstoned (.inner wrapper name) = false

/-- **The reservation.** The extracted tree arrives in the slot, ready and never given up. -/
theorem reserve_meets {wrapper name : String} (h : Activatable s descriptor wrapper name)
    (ready : artifactCacheState catalog descriptor (s.get (.inner wrapper name)) = .ready)
    {onError : String → String} {Q : Except String Unit → Runtime → Prop}
    (ok : ∀ t, Reserved catalog descriptor t → Q (.ok ()) t) (failed : ∀ e t, Q (.error e) t) :
    (Prog.perform (.rename (.inner wrapper name) (activationSlot descriptor)) onError :
      InstallProg Unit).Meets (device descriptor) (Steps catalog descriptor) Q s := by
  refine meets_perform_whole (fun _ _ => id) (.refl s) (fun _ => failed _ _)
    ((execOp_rename ..).imp_right ?_)
  rintro ⟨node, found, free, exec⟩
  have living := (Runtime.tombstoned_eq_false.mp h.living).1
  have classified : classifyNode catalog descriptor (some node) = .ready := by
    rw [found] at ready living
    cases node with
    | dir ino dev es =>
      exact classifyNode_ready_iff.mpr ⟨living, ready⟩
    | _ => cases ready
  have slot : (noteRename descriptor (.inner wrapper name) (activationSlot descriptor)
      ((s.set (.inner wrapper name) none).set (.top (activationSlot descriptor)) (some node)) s).slot
        descriptor = some node := by
    rw [Runtime.slot, noteRename_get, Runtime.get_set_top]
  refine ⟨_, exec, ⟨.stays ?_, ?_, fun _ => .inl ?_⟩, ok _ ⟨?_, ?_⟩⟩
  · rw [Runtime.canonical, noteRename_get,
      Runtime.get_set_of_ne (activationSlot_ne_id descriptor).symm,
      @Runtime.get_set_of_ne _ (.inner wrapper name) _ _ h.hidden.1.symm]
  · simp [noteRename]
  · rw [slot, classified]
    nofun
  · rw [slot, classified]
  · simpa [noteRename] using h.living

/-- **The activation.** -/
theorem activate_meets {wrapper name : String} {policy : ExistingTargetPolicy}
    (h : Activatable s descriptor wrapper name) :
    (activate catalog descriptor (.inner wrapper name) policy).Meets (device descriptor)
      (Steps catalog descriptor) (fun _ _ => True) s := by
  refine Prog.Meets.bind (artifactCacheStateAt_meets (.refl s) (fun ready => ?_) fun state ne => ?_)
  · -- recovery leaves the work directory as it is
    refine Prog.Meets.bind ((recover_meets.linked .refl fun _ _ _ => .trans).mono
      (fun _ _ h => h.steps (activationSlot_ne_id descriptor)) ?_)
    rintro (_ | _) t ⟨recovered, -⟩
    · trivial
    have same (inner : String) : t.get (.inner wrapper inner) = s.get (.inner wrapper inner) := by
      have outer := recovered.others wrapper h.hidden.2
      simp only [Runtime.get_top] at outer
      simp only [Runtime.get, outer]
    have ready : artifactCacheState catalog descriptor (t.get (.inner wrapper name)) = .ready := by
      rwa [same]
    have h : Activatable t descriptor wrapper name := by
      obtain ⟨living, entry⟩ := Runtime.tombstoned_eq_false.mp h.living
      refine ⟨h.hidden, Runtime.tombstoned_eq_false.mpr ⟨by rwa [same], fun mem => entry ?_⟩⟩
      exact recovered.doomed _ h.hidden.2 mem
    refine Prog.Meets.bind (classify_meets (.refl t) fun r _ => ?_)
    cases r with
    | error e => trivial
    | ok final =>
    dsimp only
    split
    next => trivial
    next =>
    split
    next =>
      refine Prog.Meets.bind (reserve_meets h ready (fun u reserved => ?_) fun _ _ => trivial)
      refine Prog.Meets.bind (Prog.Meets.attempt (Prog.Meets.post (Q := fun _ _ => True) ?_ ?_))
      · refine Prog.Meets.bind (meets_run_read (.refl u) ?_ fun e => trivial)
        refine Prog.Meets.bind (meets_run_read (.refl u) ?_ fun e => trivial)
        refine Prog.Meets.bind (classify_meets (.refl u) fun r _ => ?_)
        cases r with
        | error e => trivial
        | ok final =>
        dsimp only
        split
        next => exact commit_meets reserved
        next =>
        split
        next => exact commit_meets reserved
        next => trivial
      · intro result v _
        refine Prog.Meets.bind (Prog.Meets.attempt (recover_meets.mono
          (fun _ _ h => h.steps (activationSlot_ne_id descriptor)) fun recovery _ _ => ?_))
        cases recovery <;> cases result <;> trivial
    next => trivial
  · dsimp only
    rw [if_pos ne]
    trivial

/-! ### The import -/

/-- A work directory is neither the canonical directory nor the slot. -/
theorem workName_private {kind : String} {pid unique : Nat} (other : kind.toList.head? ≠ some 'a')
    (named : kind.toList ≠ []) : descriptor.Private (workName descriptor kind pid unique) := by
  have split : (workName descriptor kind pid unique).toList = ('.' :: descriptor.id.toList) ++
      ('.' :: (kind.toList ++ ('-' :: (toString pid ++ "-" ++ toString unique).toList))) := by
    simp [workName, String.toList_append]
  refine ⟨fun same => ?_, fun same => ?_⟩
  · have length := congrArg (fun name : String => name.toList.length) same
    simp only [split, List.length_append, List.length_cons] at length
    omega
  · have slot : (activationSlot descriptor).toList = ('.' :: descriptor.id.toList) ++
        ('.' :: "activation".toList) := by
      simp [activationSlot, String.toList_append]
    rw [← String.toList_inj, split, slot] at same
    have rest := (List.cons.inj (List.append_cancel_left same)).2
    have head := congrArg List.head? rest
    rw [List.head?_append_of_ne_nil _ named] at head
    exact other head

section Import

variable (call : ImportCall)

theorem snapshotDirectory_private : descriptor.Private (call.snapshotDirectory descriptor) :=
  workName_private (by decide) (by decide)

theorem staging_private : descriptor.Private (call.staging descriptor) :=
  workName_private (by decide) (by decide)

/-- What is dropped are work directories of the call. -/
theorem drop_keeps (cleanup : ImportCleanup) :
    (cleanup.drop catalog descriptor call).Keeps (device descriptor) (Steps catalog descriptor)
      fun _ => True := by
  have cleans {name : String} (hidden : descriptor.Private name) :
      (cleanWork catalog descriptor name).Keeps (device descriptor) (Steps catalog descriptor)
        fun _ => True :=
    .of_meets fun s => cleanWork_meets.mono (fun _ _ step => step.steps hidden.1) fun _ _ _ => trivial
  have hidden := @snapshotDirectory_private descriptor call
  refine .bind (.onlyIf fun _ => .performIgnoring (fun s _ => ⟨?_, trivial⟩) fun s t _ torn => ?_)
    fun _ => .bind (.onlyIf fun _ => cleans (staging_private call)) fun _ => cleans hidden
  · exact Elsewhere.steps hidden (elsewhere_inside s (.top _) _)
  · exact ⟨Elsewhere.steps hidden (@elsewhere_torn _ _ (.top _) _ torn nofun), trivial⟩

theorem leave_keeps (cleanup : ImportCleanup) (answer : Except String Unit) :
    (leave catalog descriptor call cleanup answer).Keeps (device descriptor) (Steps catalog descriptor)
      fun _ => True :=
  (drop_keeps call cleanup).bind fun _ => .ofExcept answer

/-- The staging directory is a new one, so the tree in it was never given up. -/
theorem installExtracted_meets (entry : call.staging descriptor ∉ s.doomed) :
    (installExtracted catalog descriptor call).Meets (device descriptor) (Steps catalog descriptor)
      (fun _ _ => True) s := by
  have hidden := @staging_private descriptor call
  refine Prog.Meets.bind (fill_meets.mono (fun _ _ step => step.steps hidden) ?_)
  rintro (_ | _) t filled
  · trivial
  refine Prog.Meets.bind (prepare_meets.mono
    (fun _ _ step => Elsewhere.steps hidden step.toElsewhere) ?_)
  rintro (_ | _) u prepared
  · trivial
  obtain ⟨receipted, living⟩ := prepared rfl
  refine activate_meets ⟨hidden, Runtime.tombstoned_eq_false.mpr ⟨living, fun mem => entry ?_⟩⟩
  exact filled.doomed _ (receipted.doomed _ mem)

theorem installSnapshot_keeps :
    (installSnapshot catalog descriptor call).Keeps (device descriptor) (Steps catalog descriptor)
      fun _ => True := by
  refine .of_meets fun s => Prog.Meets.bind (Prog.Meets.attempt (createWork_meets.mono
    (fun _ _ step => step.steps (staging_private call)) ?_))
  rintro (e | _) t made
  · exact (leave_keeps call _ _).meets t
  refine Prog.Meets.bind (Prog.Meets.attempt ((installExtracted_meets call (made rfl)).post ?_))
  exact fun result u _ => (leave_keeps call _ result).meets u

theorem importSnapshot_keeps (needed : Bool) :
    (importSnapshot catalog descriptor call needed).Keeps (device descriptor) (Steps catalog descriptor)
      fun _ => True := by
  have hidden := @snapshotDirectory_private descriptor call
  refine .bind (.attempt (.perform (fun s _ => ⟨?_, trivial⟩) fun s t _ torn => ?_)) fun created => ?_
  · exact Elsewhere.steps hidden (elsewhere_inside s (.top _) _)
  · exact ⟨Elsewhere.steps hidden (@elsewhere_torn _ _ (.top _) _ torn nofun), trivial⟩
  cases created with
  | error e => exact leave_keeps call _ _
  | ok _ =>
    have copies : (copySnapshot descriptor call).Keeps (device descriptor) (Steps catalog descriptor)
        fun _ => True := by
      refine .bind (.perform (fun s _ => ⟨?_, trivial⟩) fun s t _ torn => ?_) fun _ => .ofExcept _
      · exact Elsewhere.steps hidden (elsewhere_inside s (.top _) _)
      · exact ⟨Elsewhere.steps hidden (@elsewhere_torn _ _ (.top _) _ torn fun _ _ _ => rfl), trivial⟩
    refine .bind (.attempt copies) fun copied => ?_
    cases copied with
    | error e => exact leave_keeps call _ _
    | ok _ =>
      cases needed with
      | false => exact leave_keeps call _ _
      | true => exact installSnapshot_keeps call

/-- **The import.** -/
theorem importArchiveLocked_keeps (lawful : catalog.Lawful descriptor) :
    (importArchiveLocked catalog descriptor call).Keeps (device descriptor) (Steps catalog descriptor)
      fun _ => True := by
  refine .bind (.ofExcept _) fun _ => .bind (.of_meets fun s =>
    meets_run_read (.refl s) trivial fun _ => trivial) fun _ => ?_
  refine .bind (.of_meets fun s => recover_meets.mono
    (fun _ _ step => step.steps (activationSlot_ne_id descriptor)) fun _ _ _ => trivial) fun _ => ?_
  refine .bind (.of_meets fun s => inspectTarget_meets lawful) fun needed => ?_
  refine .bind (.of_meets fun s => createWork_meets.mono
    (fun _ _ step => step.steps (snapshotDirectory_private call)) fun _ _ _ => trivial) fun _ => ?_
  exact importSnapshot_keeps call needed

end Import

end Programs

/-! ## Whole runs -/

/-- The calls of a process that holds the guard of the runtime directory. A download makes and fills
a work directory of its own, imports the package, and cleans up. -/
inductive Entry (catalog : Catalog) (descriptor : ArtifactDescriptor) : InstallProg Unit → Prop
  | needsInstall (temp : ReceiptTemp) (policy : ExistingTargetPolicy) :
      Entry catalog descriptor (needsInstall catalog descriptor temp policy).discard
  | inspectTarget (temp : ReceiptTemp) (policy : ExistingTargetPolicy) :
      Entry catalog descriptor (inspectTarget catalog descriptor temp policy).discard
  | recover : Entry catalog descriptor (recover catalog descriptor)
  | sweepResidue : Entry catalog descriptor (sweepResidue catalog descriptor)
  | cleanupOwned {name : String} (residue : name ≠ descriptor.id) :
      Entry catalog descriptor (cleanupOwned catalog descriptor name)
  | createWork (temp : ReceiptTemp) {name : String} (hidden : descriptor.Private name) :
      Entry catalog descriptor (createWork catalog descriptor temp name)
  | fill {name : String} (work : Entries → Except String Unit × Entries)
      (hidden : descriptor.Private name) :
      Entry catalog descriptor (run (.fill name work))
  | prepare (temp : ReceiptTemp) {wrapper name : String} (hidden : descriptor.Private wrapper) :
      Entry catalog descriptor (prepare catalog descriptor temp (.inner wrapper name))
  | importArchiveLocked (call : ImportCall) :
      Entry catalog descriptor (importArchiveLocked catalog descriptor call)

section Runs

variable {catalog : Catalog} {descriptor : ArtifactDescriptor}

/-- **Every call is made of such steps.** -/
theorem Entry.meets (lawful : catalog.Lawful descriptor) (visible : descriptor.Visible) {s : Runtime}
    {p : InstallProg Unit} (h : Entry catalog descriptor p) :
    p.Meets (device descriptor) (Steps catalog descriptor) (fun _ _ => True) s := by
  have cleans {name : String} (ne : name ≠ descriptor.id) {p : InstallProg Unit}
      {Q : Except String Unit → Runtime → Prop}
      (meets : p.Meets (device descriptor) (Cleans catalog descriptor name) Q s) :
      p.Meets (device descriptor) (Steps catalog descriptor) (fun _ _ => True) s :=
    meets.mono (fun _ _ step => step.steps ne) fun _ _ _ => trivial
  cases h with
  | needsInstall temp policy => exact (needsInstall_meets lawful visible).discard
  | inspectTarget temp policy => exact (inspectTarget_meets lawful).discard
  | recover => exact cleans (activationSlot_ne_id descriptor) recover_meets
  | sweepResidue => exact sweepResidue_meets visible
  | cleanupOwned residue => exact cleans residue cleanupOwned_meets
  | createWork temp hidden =>
    exact createWork_meets.mono (fun _ _ step => step.steps hidden) fun _ _ _ => trivial
  | fill work hidden => exact fill_meets.mono (fun _ _ step => step.steps hidden) fun _ _ _ => trivial
  | prepare temp hidden =>
    exact prepare_meets.mono (fun _ _ step => Elsewhere.steps hidden step.toElsewhere) fun _ _ _ => trivial
  | importArchiveLocked call => exact (importArchiveLocked_keeps call lawful).meets s

/-- **Crash-safe activation.** Along any sequence of calls, killed or failing anywhere: a tree that
was given up is never restored, a ready canonical directory stays ready, and every step changes it
only as `FinalMove` says; it becomes ready by one rename of a slot that was never given up. -/
theorem activation_crash_safe (lawful : catalog.Lawful descriptor) (visible : descriptor.Visible)
    {s : Runtime} (fresh : s.restored = false) {c c' : Config InstallOp Runtime String String}
    (before : Run (device descriptor) (fun _ => Entry catalog descriptor) (fun _ => True) (s, none) c)
    (after : Run (device descriptor) (fun _ => Entry catalog descriptor) (fun _ => True) c c') :
    c'.1.restored = false ∧
      (classifyNode catalog descriptor (c.1.canonical descriptor) = .ready →
        classifyNode catalog descriptor (c'.1.canonical descriptor) = .ready) ∧
      ∀ c'', SysStep (device descriptor) (fun _ => Entry catalog descriptor) c' c'' →
        FinalMove catalog descriptor c'.1 c''.1 ∧
          (classifyNode catalog descriptor (c'.1.canonical descriptor) ≠ .ready →
            classifyNode catalog descriptor (c''.1.canonical descriptor) = .ready →
            c''.1.canonical descriptor = c'.1.slot descriptor ∧
              c''.1.slot descriptor = c'.1.canonical descriptor ∧ c'.1.slotRetired = false) := by
  have entries : ∀ s p, Entry catalog descriptor p →
      p.Meets (device descriptor) (Steps catalog descriptor) (fun _ _ => True) s :=
    fun s p h => h.meets lawful visible
  obtain ⟨-, bounded⟩ := Run.chain entries (bounded_idle s) before
  obtain ⟨-, bounded'⟩ := Run.chain entries bounded after
  refine ⟨?_, fun ready => ?_, fun c'' step => ?_⟩
  · exact Run.invariant (A := fun _ => True) entries (fun _ _ _ step restored => step.restored.trans restored)
      (bounded_idle s) (before.trans after) fresh
  · exact Run.invariant entries (fun _ _ _ step => step.move.ready lawful) bounded after ready
  · have move : FinalMove catalog descriptor c'.1 c''.1 := by
      obtain ⟨same | moved, -⟩ := step.bounded (entries _) bounded'
      · exact .stays (by rw [same])
      · exact moved.move
    exact ⟨move, move.brought⟩

end Runs

/-! ### A sample artifact -/

def sampleDescriptor : ArtifactDescriptor where
  id := "dxvk-2.7"
  kind := .dxvk
  version := "2.7"
  source := .https "https://example.invalid/dxvk-2.7.tar.gz"
  digest := .sha256 "d2"
  archiveName := "dxvk-2.7.tar.gz"
  archiveRoot := "dxvk-2.7"
  platform := "linux"
  architectures := [.x86, .x86_64]
  recipeRevision := 1

def sampleCatalog : Catalog where
  parseReceipt json :=
    if json = "receipt" then .ok (some (.v2 (receiptV2FromDescriptor sampleDescriptor)))
    else .error "JSON inválido"
  renderReceipt _ := "receipt"
  payloadReady _ es := (Entries.find es "x64").isSome

theorem sampleCatalog_lawful : sampleCatalog.Lawful sampleDescriptor where
  parse_render := rfl
  fits := by decide
  payload_reserved es es' same := congrArg Option.isSome (same "x64" (by decide))

theorem sampleDescriptor_visible : sampleDescriptor.Visible := by
  unfold ArtifactDescriptor.Visible
  decide

/-- A canonical directory that lost its payload. -/
def incompleteRuntime : Runtime where
  entries := [("dxvk-2.7", .dir 1 1 [("x32", .dir 2 1 []), (MARKER_FILE, .file (.text "receipt"))])]
  slotRetired := false
  restored := false
  doomed := []

def sampleImport : ImportCall where
  opened := .ok ()
  archive := .text "tar"
  verified := .ok ()
  extract es := (.ok (), es.put "dxvk-2.7" (.dir 5 1 [("x64", .dir 6 1 [])]))
  pid := 7
  unique := 1
  sequence := id

/-- An import of the package is killed just after its commit. -/
def committedRuntime : Runtime :=
  (importArchiveLocked sampleCatalog sampleDescriptor sampleImport).killedAfter (device sampleDescriptor)
    76 incompleteRuntime

/-- The next recovery is killed while it cleans up what the commit gave up. -/
def recoveringRuntime : Runtime :=
  (recover sampleCatalog sampleDescriptor).killedAfter (device sampleDescriptor) 22 committedRuntime

theorem activation_crash_safe_sample :
    classifyNode sampleCatalog sampleDescriptor (incompleteRuntime.canonical sampleDescriptor) ≠ .ready ∧
      classifyNode sampleCatalog sampleDescriptor (committedRuntime.canonical sampleDescriptor) = .ready ∧
      recoveringRuntime.slotRetired = true ∧ recoveringRuntime.restored = false ∧
      classifyNode sampleCatalog sampleDescriptor (recoveringRuntime.canonical sampleDescriptor) = .ready ∧
      ∀ c'', SysStep (device sampleDescriptor) (fun _ => Entry sampleCatalog sampleDescriptor)
        (recoveringRuntime, none) c'' →
        FinalMove sampleCatalog sampleDescriptor recoveringRuntime c''.1 := by
  have committed : classifyNode sampleCatalog sampleDescriptor
      (committedRuntime.canonical sampleDescriptor) = .ready := by decide
  obtain ⟨restored, ready, move⟩ := activation_crash_safe sampleCatalog_lawful sampleDescriptor_visible
    (rfl : incompleteRuntime.restored = false) (Run.killedAfter (.importArchiveLocked sampleImport) 76)
    (Run.killedAfter .recover 22)
  exact ⟨by decide, committed, rfl, restored, ready committed, fun c'' step => (move c'' step).1⟩

end RoLauncher.Artifacts
