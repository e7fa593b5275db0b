import RoLauncher.Artifacts.Activation

/-!
# Trying again after a crash

The undisturbed run of each program, as far as the next attempt needs it: a
cleanup of an owned directory succeeds, so a recovery succeeds unless the slot
is foreign, and then the payload of the caller is prepared and committed.
Of the states that killed calls leave, one is in the way: a slot that was
emptied and lost its tombstone, while the canonical directory is not ready.
-/

namespace RoLauncher.Artifacts

open RoLauncher.Files RoLauncher.Crash

/-! ## Undisturbed reads -/

section Reads

variable {catalog : Catalog} {descriptor : ArtifactDescriptor} {α : Type} {s t : Runtime}

@[simp] theorem exec_reading (ok : Runtime → InstallProg α) (failed : String → InstallProg α) :
    (reading ok failed).exec (device descriptor) s = (ok s).exec (device descriptor) s := rfl

@[simp] theorem exec_read (onError : String → String) :
    (Prog.perform .read onError : InstallProg Unit).exec (device descriptor) s = (.ok (), s) := rfl

theorem exec_call_ok {o : InstallOp} {onError : String → String}
    (h : execOp descriptor o s = (.ok (), t)) :
    (Prog.perform o onError : InstallProg Unit).exec (device descriptor) s = (.ok (), t) :=
  Prog.exec_perform_ok h

theorem artifactCacheStateAt_exec (catalog : Catalog) (s : Runtime) (place : Place) :
    (artifactCacheStateAt catalog descriptor place).exec (device descriptor) s =
      (.ok (artifactCacheState catalog descriptor (s.get place)), s) := by
  simp only [artifactCacheStateAt, exec_reading]
  cases s.get place with
  | none => rfl
  | some node =>
  cases node with
  | dir ino dev es =>
    simp only [artifactCacheState, cacheStateInDirectory, exec_reading]
    rcases parseStoredReceipt catalog (Entries.find es MARKER_FILE) with e | _ | stored
    · rfl
    · rfl
    · cases same : storedIdentityMatchesDescriptor descriptor stored <;>
        cases catalog.payloadReady descriptor es <;> simp [same]
  | _ => rfl

theorem classify_exec (catalog : Catalog) (s : Runtime) (place : Place) :
    (classify catalog descriptor place).exec (device descriptor) s =
      (.ok (classifyNode catalog descriptor (s.get place)), s) := by
  have state := @artifactCacheStateAt_exec descriptor catalog s place
  simp only [classify, exec_reading]
  cases found : s.get place with
  | none => rfl
  | some node =>
  rw [found] at state
  cases node with
  | dir ino dev es =>
    simp only [classifyNode, exec_reading]
    split
    next =>
      cases (Entries.find es MARKER_FILE).isNone <;>
        cases matching : matchingReceipt catalog descriptor (Entries.find es CLEANUP) <;>
          simp [matchingReceiptAt, Prog.exec_bind, matching]
    next =>
      cases matching : matchingReceipt catalog descriptor (Entries.find es MARKER_FILE) <;>
        simp [matchingReceiptAt, Prog.exec_bind, matching, state]
  | _ => rfl

end Reads

/-! ## Undisturbed cleanups -/

section Cleanup

variable {catalog : Catalog} {descriptor : ArtifactDescriptor} {name : String} {s t : Runtime}
  {ino dev : Nat} {es : Entries}

/-- A tombstoned directory with exactly these names left to delete. -/
def Remaining (catalog : Catalog) (descriptor : ArtifactDescriptor) (name : String)
    (names : List String) (t : Runtime) : Prop :=
  names.Nodup ∧ ∃ (ino dev : Nat) (es : Entries), t.get (.top name) = some (.dir ino dev es) ∧
    Tombstoned catalog descriptor es ∧
      (∀ entry ∈ es.names, entry = CLEANUP ∨ entry ∈ names) ∧ ∀ entry ∈ names, entry ∈ es.names

theorem exec_removeFile {entry : String} {node : Node} {onError : String → String}
    (found : s.get (.top name) = some (.dir ino dev es)) (here : es.find entry = some node)
    (file : isDirEntry (some node) = false) :
    (Prog.perform (.removeFile (.top name) entry) onError : InstallProg Unit).exec
      (device descriptor) s = (.ok (), s.set (.top name) (some (.dir ino dev (es.erase entry)))) := by
  refine exec_call_ok ?_
  simp only [execOp, inside, found, here]
  cases node with
  | dir ino dev es => simp [isDirEntry, entryKind, Node.kind] at file
  | _ => rfl

theorem exec_removeDirAll {entry : String} {node : Node} {onError : String → String}
    (found : s.get (.top name) = some (.dir ino dev es)) (here : es.find entry = some node)
    (directory : isDirEntry (some node) = true) :
    (Prog.perform (.removeDirAll (.top name) entry) onError : InstallProg Unit).exec
      (device descriptor) s = (.ok (), s.set (.top name) (some (.dir ino dev (es.erase entry)))) := by
  refine exec_call_ok ?_
  simp only [execOp, inside, found, here]
  cases node with
  | dir ino dev es => rfl
  | _ => simp [isDirEntry, entryKind, Node.kind] at directory

/-- A receipt that matches is a file. -/
theorem matching_file {node : Node} (h : matchingReceipt catalog descriptor (some node) = true) :
    isDirEntry (some node) = false := by
  cases node with
  | dir ino dev es => simp [matchingReceipt, parseStoredReceipt] at h
  | _ => rfl

theorem remaining_erase {entry : String} {rest : List String}
    (found : s.get (.top name) = some (.dir ino dev es)) (ne : entry ≠ CLEANUP)
    (remaining : Remaining catalog descriptor name (entry :: rest) s) :
    Remaining catalog descriptor name rest
      (s.set (.top name) (some (.dir ino dev (es.erase entry)))) := by
  obtain ⟨nodup, _, _, _, found', tombstoned, names, present⟩ := remaining
  cases found.symm.trans found'
  obtain ⟨fresh, nodup⟩ := List.nodup_cons.mp nodup
  refine ⟨nodup, ino, dev, _, Runtime.get_set_top .., tombstoned.erase ne, ?_, ?_⟩
  · intro other mem
    obtain ⟨mem, other_ne⟩ := Entries.mem_names_erase mem
    exact (names other mem).imp_right fun h => (List.mem_cons.mp h).resolve_left other_ne
  · intro other mem
    have other_ne : other ≠ entry := fun same => fresh (same ▸ mem)
    rw [Entries.mem_names, Entries.find_erase_of_ne other_ne, ← Entries.mem_names]
    exact present other (List.mem_cons_of_mem _ mem)

theorem removeEmptied_exec (found : s.get (.top name) = some (.dir ino dev [])) :
    (do run (.removeDir name); run .read : InstallProg Unit).exec (device descriptor) s =
      (.ok (), s.set (.top name) none) := by
  have removed : execOp descriptor (.removeDir name) s = (.ok (), s.set (.top name) none) := by
    simp [execOp, found]
  exact Prog.exec_bind_ok (exec_call_ok removed)

/-- A tombstoned directory is deleted. -/
theorem cleanupTree_exec (found : s.get (.top name) = some (.dir ino dev es))
    (tombstoned : Tombstoned catalog descriptor es) :
    ∃ t, (cleanupTree name).exec (device descriptor) s = (.ok (), t) := by
  have start : Remaining catalog descriptor name (listing (s.get (.top name))) s := by
    refine ⟨?_, ino, dev, es, found, tombstoned, ?_, ?_⟩
    · rw [found]
      exact List.nodup_dedup _
    · exact fun entry mem => .inr (by rwa [found])
    · exact fun entry mem => by rwa [found] at mem
  obtain ⟨t, loop, -, ino, dev, es, found, tombstoned, names, -⟩ := @Prog.exec_forM _ _ _ _ _
    (device descriptor) (fun entry =>
      if entry = CLEANUP then .ret ()
      else
        reading (fun s =>
          if isDirEntry (child (s.get (.top name)) entry) then run (.removeDirAll (.top name) entry)
          else run (.removeFile (.top name) entry)) (.fail : String → InstallProg Unit)) _ _ _ start (by
    intro entry rest t remaining
    split
    next tombstone =>
      obtain ⟨nodup, ino, dev, es, found, tombstoned, names, present⟩ := remaining
      exact ⟨t, rfl, (List.nodup_cons.mp nodup).2, ino, dev, es, found, tombstoned,
        fun other mem => (names other mem).elim .inl fun h =>
          (List.mem_cons.mp h).imp_left (·.trans tombstone),
        fun other mem => present other (List.mem_cons_of_mem _ mem)⟩
    next ne =>
      have remaining' := remaining
      obtain ⟨-, ino, dev, es, found, -, -, present⟩ := remaining
      obtain ⟨node, here⟩ := Option.ne_none_iff_exists'.mp
        (Entries.mem_names.mp (present entry List.mem_cons_self))
      refine ⟨_, ?_, remaining_erase found ne remaining'⟩
      rw [exec_reading, found, child_dir, here]
      split
      next directory => exact exec_removeDirAll found here directory
      next file => exact exec_removeFile found here (by simpa using file))
  obtain ⟨node, here⟩ := tombstoned.found
  have last := @exec_removeFile descriptor _ _ _ _ _ _ _ id found here
    (matching_file (here ▸ tombstoned.matching))
  rw [Entries.erase_eq_nil fun other mem => (names other mem).resolve_right nofun] at last
  have removed := @removeEmptied_exec descriptor _
    (t.set (.top name) (some (.dir ino dev []))) _ _ (Runtime.get_set_top ..)
  exact ⟨_, (Prog.exec_bind_ok loop).trans ((Prog.exec_bind_ok last).trans removed)⟩

/-- What a cleanup that succeeds has done. -/
theorem cleanupOwned_done (done : (cleanupOwned catalog descriptor name).exec (device descriptor) s =
    (.ok (), t)) : Cleans catalog descriptor name s t ∧ t.get (.top name) = none := by
  have meets := ((@cleanupOwned_meets catalog descriptor name s).linked .refl fun _ _ _ => .trans).exec
  rw [done] at meets
  exact ⟨meets.1, meets.2 rfl⟩

/-- **A cleanup.** What is not foreign is deleted. -/
theorem cleanupOwned_exec (owned : classifyNode catalog descriptor (s.get (.top name)) ≠ .foreign) :
    ∃ t, (cleanupOwned catalog descriptor name).exec (device descriptor) s = (.ok (), t) := by
  have mark (h : classifyNode catalog descriptor (s.get (.top name)) = .ready ∨
      classifyNode catalog descriptor (s.get (.top name)) = .ownedIncomplete) :
      ∃ t, (do
        run (.renameIn (.top name) MARKER_FILE CLEANUP false)
        run .read
        cleanupTree name : InstallProg Unit).exec (device descriptor) s = (.ok (), t) := by
    obtain ⟨ino, dev, es, found, living, matching⟩ := owned_of_classify h
    obtain ⟨tombstoned, exec⟩ := @exec_tombstone _ descriptor _ _ _ _ _ found living matching
    obtain ⟨t, cleaned⟩ := @cleanupTree_exec catalog descriptor _ _ _ _ _
      ((noteTombstone_get ..).trans (Runtime.get_set_top ..)) tombstoned
    exact ⟨t, (Prog.exec_bind_ok (exec_call_ok exec)).trans cleaned⟩
  rw [cleanupOwned, Prog.exec_bind_ok (classify_exec catalog s (.top name))]
  cases classified : classifyNode catalog descriptor (s.get (.top name)) with
  | absent => exact ⟨s, rfl⟩
  | ready => exact mark (.inl classified)
  | ownedIncomplete => exact mark (.inr classified)
  | cleanup =>
    obtain ⟨ino, dev, es, found, tombstoned⟩ := tombstoned_of_classify classified
    exact cleanupTree_exec found tombstoned
  | foreign => exact (owned classified).elim

end Cleanup

/-! ## Undisturbed recoveries -/

section Recover

variable {catalog : Catalog} {descriptor : ArtifactDescriptor} {s : Runtime} {temp : ReceiptTemp}

/-- The canonical directory is one that an installer can go on from. -/
def Canonical (catalog : Catalog) (descriptor : ArtifactDescriptor) (policy : ExistingTargetPolicy)
    (s : Runtime) : Prop :=
  s.canonical descriptor = none ∨
    classifyNode catalog descriptor (s.canonical descriptor) = .ready ∨
    classifyNode catalog descriptor (s.canonical descriptor) = .ownedIncomplete ∧
      policy = .replaceNotReady

theorem recover_exec_owned
    (usable : classifyNode catalog descriptor (s.canonical descriptor) ≠ .foreign ∧
      classifyNode catalog descriptor (s.canonical descriptor) ≠ .cleanup)
    (owned : classifyNode catalog descriptor (s.slot descriptor) ≠ .foreign) :
    ∃ t, (recover catalog descriptor).exec (device descriptor) s = (.ok (), t) ∧
      Cleans catalog descriptor (activationSlot descriptor) s t ∧ t.slot descriptor = none := by
  rw [recover, Prog.exec_bind_ok (classify_exec ..), Prog.exec_bind_ok (classify_exec ..),
    if_neg (not_or.mpr usable)]
  cases classified : classifyNode catalog descriptor (s.slot descriptor) with
  | absent => exact ⟨s, rfl, .refl s, absent_of_classify classified⟩
  | foreign => exact (owned classified).elim
  | _ =>
    obtain ⟨t, done⟩ := cleanupOwned_exec owned
    exact ⟨t, done, cleanupOwned_done done⟩

/-- A foreign slot is left alone: next to a ready canonical directory it does not matter. -/
theorem recover_exec_foreign
    (usable : classifyNode catalog descriptor (s.canonical descriptor) ≠ .foreign ∧
      classifyNode catalog descriptor (s.canonical descriptor) ≠ .cleanup)
    (foreign : classifyNode catalog descriptor (s.slot descriptor) = .foreign) :
    (recover catalog descriptor).exec (device descriptor) s =
      if classifyNode catalog descriptor (s.canonical descriptor) = .ready then (.ok (), s)
      else (.error (ambiguity (.top (activationSlot descriptor))), s) := by
  rw [recover, Prog.exec_bind_ok (classify_exec ..), Prog.exec_bind_ok (classify_exec ..),
    if_neg (not_or.mpr usable), foreign]
  dsimp only
  split <;> rfl

/-- Nothing arrives, and the canonical directory stays as it is. -/
structure Swept (descriptor : ArtifactDescriptor) (s t : Runtime) : Prop where
  canonical : t.canonical descriptor = s.canonical descriptor
  gone : ∀ name, s.get (.top name) = none → t.get (.top name) = none

theorem Swept.refl (s : Runtime) : Swept descriptor s s := ⟨rfl, fun _ => id⟩

theorem Swept.trans {t u : Runtime} (h : Swept descriptor s t) (h' : Swept descriptor t u) :
    Swept descriptor s u :=
  ⟨h'.canonical.trans h.canonical, fun name gone => h'.gone name (h.gone name gone)⟩

theorem Cleans.swept {name : String} {t : Runtime} (ne : name ≠ descriptor.id)
    (h : Cleans catalog descriptor name s t) : Swept descriptor s t := by
  refine ⟨h.others _ ne.symm, fun other gone => ?_⟩
  by_cases same : other = name
  · subst same
    exact h.gone gone
  · rwa [h.others other same]

theorem cleanWork_exec {name : String} (ne : name ≠ descriptor.id) :
    ∃ t, (cleanWork catalog descriptor name).exec (device descriptor) s = (.ok (), t) ∧
      Swept descriptor s t := by
  have cleans := (((@cleanupOwned_meets catalog descriptor name s).linked .refl fun _ _ _ => .trans).exec).1
  exact ⟨_, Prog.exec_bind_ok (Prog.exec_attempt ..), cleans.swept ne⟩

/-- A sweep ends well, whatever it could not clean. -/
theorem sweepResidue_exec (visible : descriptor.Visible) :
    ∃ t, (sweepResidue catalog descriptor).exec (device descriptor) s = (.ok (), t) ∧
      Swept descriptor s t := by
  refine Prog.exec_forM (I := fun _ t => Swept descriptor s t) (.refl s) ?_
  intro name rest t swept
  split
  next => exact ⟨t, rfl, swept⟩
  next candidate =>
    have ne : name ≠ descriptor.id := residue_ne_id visible (by simpa [or_iff_not_imp_left] using candidate)
    obtain ⟨u, done, swept'⟩ := @cleanWork_exec catalog _ t _ ne
    dsimp only
    split
    next =>
      rw [Prog.exec_bind_ok (artifactCacheStateAt_exec ..), Prog.ret_bind]
      split
      next => exact ⟨t, rfl, swept⟩
      next => exact ⟨u, done, swept.trans swept'⟩
    next => exact ⟨u, done, swept.trans swept'⟩

theorem inspectTarget_exec_ready (lawful : catalog.Lawful descriptor) {policy : ExistingTargetPolicy}
    (ready : classifyNode catalog descriptor (s.canonical descriptor) = .ready) :
    ∃ t, (inspectTarget catalog descriptor temp policy).exec (device descriptor) s = (.ok false, t) ∧
      classifyNode catalog descriptor (t.canonical descriptor) = .ready := by
  have kept := (@inspectTarget_meets _ _ s temp lawful policy).keeps
    (fun _ _ step => step.move.ready lawful) ready
  have exec : (inspectTarget catalog descriptor temp policy).exec (device descriptor) s =
      (.ok false, ((elevateV1 catalog descriptor temp (.top descriptor.id)).exec (device descriptor) s).2) := by
    rw [inspectTarget, Prog.exec_bind_ok (classify_exec ..), ready]
    exact Prog.exec_bind_ok (Prog.exec_attempt ..)
  exact ⟨_, exec, by rwa [exec] at kept⟩

/-- What is not ready has to be installed. -/
theorem inspectTarget_exec_needed {policy : ExistingTargetPolicy}
    (usable : Canonical catalog descriptor policy s)
    (notReady : classifyNode catalog descriptor (s.canonical descriptor) ≠ .ready) :
    (inspectTarget catalog descriptor temp policy).exec (device descriptor) s = (.ok true, s) := by
  rw [inspectTarget, Prog.exec_bind_ok (classify_exec ..)]
  obtain absent | ready | ⟨incomplete, replace⟩ := usable
  · have absent : s.get (.top descriptor.id) = none := absent
    rw [absent]
    rfl
  · exact (notReady ready).elim
  · rw [incomplete, replace]
    rfl

end Recover

/-! ## Undisturbed installs -/

section Install

variable {catalog : Catalog} {descriptor : ArtifactDescriptor} {s t u : Runtime} {place : Place}
  {ino dev : Nat} {es : Entries} {wrapper name : String} {temp : ReceiptTemp}

/-- A directory that has just been given its receipt. -/
structure Marked (catalog : Catalog) (descriptor : ArtifactDescriptor) (temp : ReceiptTemp)
    (es es' : Entries) : Prop where
  others : ∀ name, name ≠ temp.name → name ≠ MARKER_FILE → es'.find name = es.find name
  marker : es'.find MARKER_FILE = some (rendered catalog descriptor)

/-- A receipt is written to a directory that has none. -/
theorem writeReceipt_exec (found : s.get place = some (.dir ino dev es)) (free : es.find temp.name = none)
    (unmarked : es.find MARKER_FILE = none) :
    ∃ t es', (writeReceipt catalog descriptor temp place).exec (device descriptor) s = (.ok (), t) ∧
      t.get place = some (.dir ino dev es') ∧ Marked catalog descriptor temp es es' ∧
      Elsewhere place.root s t := by
  let es₁ : Entries := es.put temp.name (.file (.text ""))
  let es₂ : Entries := es₁.put temp.name (rendered catalog descriptor)
  let es₃ : Entries := es₂.move temp.name MARKER_FILE
  let s₁ := s.set place (some (.dir ino dev es₁))
  let s₂ := s₁.set place (some (.dir ino dev es₂))
  let s₃ := s₂.set place (some (.dir ino dev es₃))
  have found₁ : s₁.get place = some (.dir ino dev es₁) := Runtime.get_set_dir found _
  have found₂ : s₂.get place = some (.dir ino dev es₂) := Runtime.get_set_dir found₁ _
  have found₃ : s₃.get place = some (.dir ino dev es₃) := Runtime.get_set_dir found₂ _
  have created : execOp descriptor (.createNew place temp.name) s = (.ok (), s₁) := by
    simp only [execOp, inside, found, free]
    rfl
  have wrote : execOp descriptor (.write place temp.name
      (.text (catalog.renderReceipt (receiptV2FromDescriptor descriptor)))) s₁ = (.ok (), s₂) := by
    simp only [execOp, inside, found₁, es₁, Entries.find_put_self]
    rfl
  have written : es₂.find temp.name = some (rendered catalog descriptor) :=
    Entries.find_put_self ..
  have unmarked₂ : es₂.find MARKER_FILE = none := by
    rw [Entries.find_put_of_ne temp.name_ne_marker.symm,
      Entries.find_put_of_ne temp.name_ne_marker.symm, unmarked]
  have renamed : execOp descriptor (.renameIn place temp.name MARKER_FILE true) s₂ =
      (.ok (), s₃) := by
    simp only [execOp, inside, found₂, written, unmarked₂, noteTombstone,
      if_neg marker_ne_cleanup]
    rfl
  have body : (do
      run (.createNew place temp.name)
      run (.write place temp.name
        (.text (catalog.renderReceipt (receiptV2FromDescriptor descriptor))))
      run (.renameIn place temp.name MARKER_FILE true)
      run .read : InstallProg Unit).exec (device descriptor) s = (.ok (), s₃) :=
    (Prog.exec_bind_ok (exec_call_ok created)).trans <|
      (Prog.exec_bind_ok (exec_call_ok wrote)).trans (Prog.exec_bind_ok (exec_call_ok renamed))
  have apart := ((elsewhere_set s place (some (.dir ino dev es₁))).trans
    (elsewhere_set s₁ place (some (.dir ino dev es₂)))).trans
    (elsewhere_set s₂ place (some (.dir ino dev es₃)))
  refine ⟨s₃, es₃, ?_, found₃, ⟨fun name ne ne' => ?_, Entries.find_move_destination written⟩, apart⟩
  · refine (Prog.exec_bind_ok (exec_read ..)).trans ((Prog.exec_bind_ok (Prog.exec_attempt ..)).trans ?_)
    rw [body]
    rfl
  · rw [Entries.find_move_of_ne ne ne', Entries.find_put_of_ne ne, Entries.find_put_of_ne ne]

theorem createWork_exec (free : s.get (.top name) = none) :
    ∃ t es, (createWork catalog descriptor temp name).exec (device descriptor) s = (.ok (), t) ∧
      t.get (.top name) = some (.dir 0 0 es) ∧ Elsewhere name s t := by
  have created : execOp descriptor (.createDir name) s =
      (.ok (), noteMade name (s.set (.top name) (some (.dir 0 0 [])))) := by
    simp [execOp, show s.entries.find name = none from free]
  obtain ⟨t, es, written, found, -, apart⟩ := @writeReceipt_exec catalog descriptor _ (.top name) _ _ _ temp
    ((noteMade_get ..).trans (Runtime.get_set_top s name (some (.dir 0 0 [])))) rfl rfl
  refine ⟨t, es, ?_, found, (elsewhere_made s name _).trans apart⟩
  exact (Prog.exec_bind_ok (exec_call_ok created)).trans (Prog.exec_bind_ok written)

/-- What a caller extracts: a complete payload that uses no name of the installer. -/
structure Payload (catalog : Catalog) (descriptor : ArtifactDescriptor) (es : Entries) : Prop where
  ready : catalog.payloadReady descriptor es = true
  free : ∀ name, reserved name = true → es.find name = none

theorem Marked.ready (lawful : catalog.Lawful descriptor) {es' : Entries}
    (payload : Payload catalog descriptor es) (h : Marked catalog descriptor temp es es') :
    classifyNode catalog descriptor (some (.dir ino dev es')) = .ready := by
  have kept (other : String) (free : reserved other = false) : es'.find other = es.find other :=
    h.others other (ne_of_reserved free (reserved_temp temp)) (ne_of_reserved free reserved_marker)
  rw [classifyNode_ready_iff, cacheState_ready_iff, h.marker]
  refine ⟨?_, matching_rendered lawful,
    (lawful.payload_reserved es es' kept).trans payload.ready⟩
  rw [h.others CLEANUP temp.name_ne_cleanup.symm marker_ne_cleanup.symm]
  exact payload.free CLEANUP reserved_cleanup

theorem artifactCacheState_of_ready {node : Option Node}
    (h : classifyNode catalog descriptor node = .ready) :
    artifactCacheState catalog descriptor node = .ready := by
  obtain ⟨ino, dev, es, rfl, -, -⟩ := owned_of_classify (.inl h)
  exact (classifyNode_ready_iff.mp h).2

/-- A payload is prepared. -/
theorem prepare_exec (lawful : catalog.Lawful descriptor)
    (found : s.get place = some (.dir ino dev es)) (payload : Payload catalog descriptor es) :
    ∃ t, (prepare catalog descriptor temp place).exec (device descriptor) s = (.ok (), t) ∧
      classifyNode catalog descriptor (t.get place) = .ready ∧ Elsewhere place.root s t := by
  have unmarked := payload.free MARKER_FILE reserved_marker
  have living := payload.free CLEANUP reserved_cleanup
  obtain ⟨t, es', written, found', marked, apart⟩ := writeReceipt_exec found
    (payload.free _ (reserved_temp temp)) unmarked
  have ready : classifyNode catalog descriptor (t.get place) = .ready :=
    found' ▸ marked.ready lawful payload
  refine ⟨t, ?_, ready, apart⟩
  simp only [prepare, exec_reading, found, payload.ready, unmarked, living]
  refine (Prog.exec_bind_ok written).trans ((Prog.exec_bind_ok (artifactCacheStateAt_exec ..)).trans ?_)
  rw [artifactCacheState_of_ready ready]
  rfl

theorem exec_rename {source : Place} {destination : String} {node : Node} {onError : String → String}
    (found : s.get source = some node) (free : s.get (.top destination) = none) :
    (Prog.perform (.rename source destination) onError : InstallProg Unit).exec (device descriptor) s =
      (.ok (), noteRename descriptor source destination
        ((s.set source none).set (.top destination) (some node)) s) := by
  refine exec_call_ok ?_
  obtain ⟨e, failed⟩ | ⟨node', found', -, done⟩ := @execOp_rename descriptor s source destination
  · simp [execOp, found, show s.entries.find destination = none from free] at failed
  · cases found.symm.trans found'
    exact done

/-- The reserved tree takes the free canonical name. -/
theorem commit_exec_install (absent : s.canonical descriptor = none)
    (ready : classifyNode catalog descriptor (s.slot descriptor) = .ready) :
    ∃ t, (commit catalog descriptor false).exec (device descriptor) s = (.ok (), t) ∧
      t.canonical descriptor = s.slot descriptor ∧ t.slot descriptor = none := by
  have ne := activationSlot_ne_id descriptor
  obtain ⟨ino, dev, es, found, -, -⟩ := owned_of_classify (.inl ready)
  have done : (commit catalog descriptor false).exec (device descriptor) s = (.ok (),
      noteRename descriptor (.top (activationSlot descriptor)) descriptor.id
        ((s.set (.top (activationSlot descriptor)) none).set (.top descriptor.id)
          (some (.dir ino dev es))) s) := by
    refine (Prog.exec_bind_ok (artifactCacheStateAt_exec ..)).trans ?_
    rw [artifactCacheState_of_ready ready]
    exact (Prog.exec_bind_ok (exec_rename found absent)).trans (exec_read ..)
  refine ⟨_, done, ?_, ?_⟩
  · rw [Runtime.canonical, noteRename_get, Runtime.get_set_top, found]
  · rw [Runtime.slot, noteRename_get, Runtime.get_set_of_ne ne, Runtime.get_set_top]

/-- The reserved tree and an incomplete canonical directory change places. -/
theorem commit_exec_replace
    (incomplete : classifyNode catalog descriptor (s.canonical descriptor) = .ownedIncomplete)
    (ready : classifyNode catalog descriptor (s.slot descriptor) = .ready) :
    ∃ t, (commit catalog descriptor true).exec (device descriptor) s = (.ok (), t) ∧
      t.canonical descriptor = s.slot descriptor ∧ t.slot descriptor = s.canonical descriptor := by
  have ne := activationSlot_ne_id descriptor
  obtain ⟨ino, dev, es, found, -, -⟩ := owned_of_classify (.inl ready)
  obtain ⟨ino', dev', es', found', -, -⟩ := owned_of_classify (.inr incomplete)
  have exchanged : execOp descriptor (.exchange (activationSlot descriptor) descriptor.id) s = (.ok (),
      noteExchange descriptor (activationSlot descriptor) descriptor.id
        ((s.set (.top (activationSlot descriptor)) (some (.dir ino' dev' es'))).set
          (.top descriptor.id) (some (.dir ino dev es))) s) := by
    simp only [execOp, found, found']
  have done : (commit catalog descriptor true).exec (device descriptor) s = (.ok (),
      (execOp descriptor (.exchange (activationSlot descriptor) descriptor.id) s).2) := by
    refine (Prog.exec_bind_ok (artifactCacheStateAt_exec ..)).trans ?_
    rw [artifactCacheState_of_ready ready]
    refine (Prog.exec_bind_ok (classify_exec ..)).trans ?_
    rw [incomplete, exchanged]
    exact (Prog.exec_bind_ok (exec_call_ok exchanged)).trans (exec_read ..)
  refine ⟨_, done, ?_, ?_⟩ <;> rw [exchanged]
  · rw [Runtime.canonical, noteExchange_get, Runtime.get_set_top, found]
  · rw [Runtime.slot, noteExchange_get, Runtime.get_set_of_ne ne, Runtime.get_set_top, found']

/-- What follows the reservation commits it. -/
theorem committed_exec {policy : ExistingTargetPolicy} (usable : Canonical catalog descriptor policy s)
    (notReady : classifyNode catalog descriptor (s.canonical descriptor) ≠ .ready)
    (ready : classifyNode catalog descriptor (s.slot descriptor) = .ready) :
    ∃ t, (do
        run .read
        run .read
        let finalState ← classify catalog descriptor (.top descriptor.id)
        if finalState = .absent then commit catalog descriptor false
        else if finalState = .ownedIncomplete ∧ policy = .replaceNotReady then
          commit catalog descriptor true
        else .fail (ambiguity (.top descriptor.id)) : InstallProg Unit).exec (device descriptor) s =
          (.ok (), t) ∧
      classifyNode catalog descriptor (t.canonical descriptor) = .ready ∧
      classifyNode catalog descriptor (t.slot descriptor) ≠ .foreign := by
  have synced {α : Type} (k : Unit → InstallProg α) :
      (run .read >>= k).exec (device descriptor) s = (k ()).exec (device descriptor) s :=
    Prog.exec_bind_ok (exec_read id)
  rw [synced, synced, Prog.exec_bind_ok (classify_exec ..)]
  obtain absent | ready' | ⟨incomplete, replace⟩ := usable
  · obtain ⟨t, done, brought, taken⟩ := commit_exec_install absent ready
    refine ⟨t, ?_, by rwa [brought], by rw [taken]; nofun⟩
    have absent : s.get (.top descriptor.id) = none := absent
    rwa [absent]
  · exact (notReady ready').elim
  · obtain ⟨t, done, brought, given⟩ := commit_exec_replace incomplete ready
    refine ⟨t, ?_, by rwa [brought], by
      rw [given, incomplete]; nofun⟩
    have incomplete : classifyNode catalog descriptor (s.get (.top descriptor.id)) = .ownedIncomplete :=
      incomplete
    rwa [incomplete, if_neg nofun, if_pos ⟨rfl, replace⟩]

theorem Canonical.usable {policy : ExistingTargetPolicy} (h : Canonical catalog descriptor policy s) :
    classifyNode catalog descriptor (s.canonical descriptor) ≠ .foreign ∧
      classifyNode catalog descriptor (s.canonical descriptor) ≠ .cleanup := by
  obtain absent | ready | ⟨incomplete, -⟩ := h
  · rw [absent]
    exact ⟨nofun, nofun⟩
  · rw [ready]
    exact ⟨nofun, nofun⟩
  · rw [incomplete]
    exact ⟨nofun, nofun⟩

/-- **An activation that nothing disturbs.** A prepared tree becomes the canonical directory. -/
theorem activate_exec {policy : ExistingTargetPolicy} (hidden : descriptor.Private wrapper)
    (usable : Canonical catalog descriptor policy s)
    (notReady : classifyNode catalog descriptor (s.canonical descriptor) ≠ .ready)
    (free : s.slot descriptor = none)
    (ready : classifyNode catalog descriptor (s.get (.inner wrapper name)) = .ready) :
    ∃ t, (activate catalog descriptor (.inner wrapper name) policy).exec (device descriptor) s =
        (.ok (), t) ∧ classifyNode catalog descriptor (t.canonical descriptor) = .ready := by
  have ne := activationSlot_ne_id descriptor
  obtain ⟨ino, dev, es, found, -, -⟩ := owned_of_classify (.inl ready)
  have recovered : (recover catalog descriptor).exec (device descriptor) s = (.ok (), s) := by
    have free : s.get (.top (activationSlot descriptor)) = none := free
    rw [recover, Prog.exec_bind_ok (classify_exec ..), Prog.exec_bind_ok (classify_exec ..),
      if_neg (not_or.mpr usable.usable), free]
    rfl
  have admitted : classifyNode catalog descriptor (s.canonical descriptor) = .absent ∨
      classifyNode catalog descriptor (s.canonical descriptor) = .ownedIncomplete ∧
        policy = .replaceNotReady :=
    usable.imp (fun absent => by rw [absent]; rfl) fun h => h.resolve_left notReady
  -- the reservation
  let u := noteRename descriptor (.inner wrapper name) (activationSlot descriptor)
    ((s.set (.inner wrapper name) none).set (.top (activationSlot descriptor))
      (some (.dir ino dev es))) s
  have slot : u.slot descriptor = s.get (.inner wrapper name) := by
    rw [Runtime.slot, noteRename_get, Runtime.get_set_top, found]
  have canonical : u.canonical descriptor = s.canonical descriptor := by
    rw [Runtime.canonical, noteRename_get, Runtime.get_set_of_ne ne.symm,
      @Runtime.get_set_of_ne _ (.inner wrapper name) _ _ hidden.1.symm]
  obtain ⟨v, committed, canonicalReady, owned⟩ := @committed_exec catalog descriptor u policy
    (by rwa [Canonical, canonical]) (by rwa [canonical]) (by rwa [slot])
  -- what the exchange left in the slot is cleaned
  obtain ⟨t, cleaned, cleans, -⟩ := @recover_exec_owned catalog _ _
    (by rw [canonicalReady]; exact ⟨by decide, by decide⟩) owned
  refine ⟨t, ?_, ?_⟩
  · refine (Prog.exec_bind_ok (artifactCacheStateAt_exec ..)).trans ?_
    rw [artifactCacheState_of_ready ready]
    refine (Prog.exec_bind_ok recovered).trans ((Prog.exec_bind_ok (classify_exec ..)).trans ?_)
    rw [if_neg notReady, if_pos admitted]
    refine (Prog.exec_bind_ok (exec_rename found free)).trans ?_
    refine (Prog.exec_bind_ok (Prog.exec_attempt ..)).trans ?_
    rw [committed]
    refine (Prog.exec_bind_ok (Prog.exec_attempt ..)).trans ?_
    rw [cleaned]
    rfl
  · rwa [Runtime.canonical, cleans.others _ ne.symm]

end Install

/-! ## The next attempt -/

section Retry

variable (catalog : Catalog) (descriptor : ArtifactDescriptor)

/-- The next attempt: `needs_install` and, when it answers so, a work directory, the extraction of
a payload into it, its preparation and its activation. -/
def installAgain (temps : Nat → ReceiptTemp) (policy : ExistingTargetPolicy) (wrapper name : String)
    (payload : Node) : InstallProg Unit := do
  let needed ← needsInstall catalog descriptor (temps 0) policy
  if needed then
    createWork catalog descriptor (temps 1) wrapper
    run (.fill wrapper fun es => (.ok (), es.put name payload))
    prepare catalog descriptor (temps 2) (.inner wrapper name)
    activate catalog descriptor (.inner wrapper name) policy
  else .ret ()

/-- Nothing foreign stands under the two names, and the canonical directory may be installed. -/
structure Unspoiled (policy : ExistingTargetPolicy) (s : Runtime) : Prop where
  canonical : Canonical catalog descriptor policy s
  slot : classifyNode catalog descriptor (s.slot descriptor) ≠ .foreign

/-- The slot was emptied, its tombstone is gone, and no ready tree stands in for it. -/
def Wedged (s : Runtime) : Prop :=
  (∃ ino dev, s.slot descriptor = some (.dir ino dev [])) ∧
    classifyNode catalog descriptor (s.canonical descriptor) ≠ .ready

end Retry

section Retry

variable {catalog : Catalog} {descriptor : ArtifactDescriptor} {policy : ExistingTargetPolicy}
  {s t : Runtime} {wrapper name : String} {ino dev : Nat} {payload : Entries}
  {temp temp' : ReceiptTemp} {temps : Nat → ReceiptTemp}

/-- Every step keeps the canonical directory one that can be gone on from. -/
theorem Steps.canonical (lawful : catalog.Lawful descriptor) (step : Steps catalog descriptor s t)
    (h : Canonical catalog descriptor policy s) : Canonical catalog descriptor policy t := by
  cases step.move with
  | stays same => rwa [Canonical, same]
  | receipt before after ready kept =>
    rw [before] at ready
    exact .inr (.inl (after ▸ kept.ready lawful ready))
  | committed _ _ ready _ _ => exact .inr (.inl ready)
  | exchanged _ _ ready _ _ => exact .inr (.inl ready)

theorem emptied_foreign :
    classifyNode catalog descriptor (some (.dir ino dev [])) = .foreign := rfl

/-- Recovery refuses what is wedged, and nothing else. -/
theorem recover_ok_iff (usable : Canonical catalog descriptor policy s)
    (fine : Fine catalog descriptor (s.slot descriptor)) :
    ((recover catalog descriptor).exec (device descriptor) s).1 = .ok () ↔
      ¬ Wedged catalog descriptor s := by
  by_cases owned : classifyNode catalog descriptor (s.slot descriptor) = .foreign
  · obtain ⟨ino, dev, emptied⟩ := fine.resolve_left (not_not.mpr owned)
    rw [recover_exec_foreign usable.usable owned]
    split
    next ready => exact iff_of_true rfl fun wedged => wedged.2 ready
    next notReady => exact iff_of_false nofun fun h => h ⟨⟨ino, dev, emptied⟩, notReady⟩
  · obtain ⟨t, done, -⟩ := recover_exec_owned usable.usable owned
    rw [done]
    refine iff_of_true rfl ?_
    rintro ⟨⟨ino, dev, emptied⟩, -⟩
    exact owned (by rw [emptied, emptied_foreign])

theorem needsInstall_exec_ready (lawful : catalog.Lawful descriptor) (visible : descriptor.Visible)
    (ready : classifyNode catalog descriptor (s.canonical descriptor) = .ready) :
    ∃ t, (needsInstall catalog descriptor temp policy).exec (device descriptor) s = (.ok false, t) ∧
      classifyNode catalog descriptor (t.canonical descriptor) = .ready := by
  have usable : Canonical catalog descriptor policy s := .inr (.inl ready)
  obtain ⟨t, recovered, same⟩ : ∃ t, (recover catalog descriptor).exec (device descriptor) s =
      (.ok (), t) ∧ t.canonical descriptor = s.canonical descriptor := by
    by_cases owned : classifyNode catalog descriptor (s.slot descriptor) = .foreign
    · exact ⟨s, (recover_exec_foreign usable.usable owned).trans (if_pos ready), rfl⟩
    · obtain ⟨t, done, cleans, -⟩ := recover_exec_owned usable.usable owned
      exact ⟨t, done, cleans.others _ (activationSlot_ne_id descriptor).symm⟩
  obtain ⟨u, swept, frame⟩ := @sweepResidue_exec catalog _ t visible
  obtain ⟨v, inspected, ready⟩ := @inspectTarget_exec_ready _ _ u _ lawful policy
    (by rwa [frame.canonical, same])
  exact ⟨v, (Prog.exec_bind_ok recovered).trans ((Prog.exec_bind_ok swept).trans inspected), ready⟩

/-- When a tree is missing, the runtime directory is cleared for the next one. -/
theorem needsInstall_exec_needed (visible : descriptor.Visible)
    (usable : Canonical catalog descriptor policy s)
    (notReady : classifyNode catalog descriptor (s.canonical descriptor) ≠ .ready)
    (owned : classifyNode catalog descriptor (s.slot descriptor) ≠ .foreign) :
    ∃ t, (needsInstall catalog descriptor temp policy).exec (device descriptor) s = (.ok true, t) ∧
      Swept descriptor s t ∧ t.slot descriptor = none := by
  obtain ⟨t, recovered, cleans, free⟩ := recover_exec_owned usable.usable owned
  obtain ⟨u, done, swept⟩ := @sweepResidue_exec catalog _ t visible
  have swept' := (cleans.swept (activationSlot_ne_id descriptor)).trans swept
  refine ⟨u, ?_, swept', swept.gone _ free⟩
  refine (Prog.exec_bind_ok recovered).trans ((Prog.exec_bind_ok done).trans ?_)
  exact inspectTarget_exec_needed (by rwa [Canonical, swept'.canonical]) (by rwa [swept'.canonical])

/-- A payload is brought in, from a work directory of its own. -/
theorem install_exec (lawful : catalog.Lawful descriptor) (hidden : descriptor.Private wrapper)
    (complete : Payload catalog descriptor payload) (usable : Canonical catalog descriptor policy s)
    (notReady : classifyNode catalog descriptor (s.canonical descriptor) ≠ .ready)
    (free : s.slot descriptor = none) (fresh : s.get (.top wrapper) = none) :
    ∃ t, (do
        createWork catalog descriptor temp wrapper
        run (.fill wrapper fun es => (.ok (), es.put name (.dir ino dev payload)))
        prepare catalog descriptor temp' (.inner wrapper name)
        activate catalog descriptor (.inner wrapper name) policy : InstallProg Unit).exec
          (device descriptor) s = (.ok (), t) ∧
      classifyNode catalog descriptor (t.canonical descriptor) = .ready := by
  obtain ⟨t, es, created, found, apart⟩ := createWork_exec fresh
  let u := t.set (.top wrapper) (some (.dir 0 0 (Entries.put es name (.dir ino dev payload))))
  have filled : execOp descriptor (.fill wrapper fun es => (.ok (), es.put name (.dir ino dev payload)))
      t = (.ok (), u) := by
    simp only [execOp, found]
    rfl
  have extracted : u.get (.inner wrapper name) = some (.dir ino dev payload) := by
    have outer : u.entries.find wrapper = some (.dir 0 0 (Entries.put es name (.dir ino dev payload))) :=
      Runtime.get_set_top ..
    simp only [Runtime.get, outer, Entries.find_put_self]
  obtain ⟨v, prepared, ready, apart'⟩ := prepare_exec lawful extracted complete
  have apart : Elsewhere wrapper s v := (apart.trans (elsewhere_set t (.top wrapper) _)).trans apart'
  have canonical : v.canonical descriptor = s.canonical descriptor := apart.others _ hidden.1.symm
  obtain ⟨w, activated, final⟩ := @activate_exec _ _ _ _ _ policy hidden
    (by rwa [Canonical, canonical]) (by rwa [canonical])
    ((apart.others _ hidden.2.symm).trans free) ready
  exact ⟨w, (Prog.exec_bind_ok created).trans ((Prog.exec_bind_ok (exec_call_ok filled)).trans
    ((Prog.exec_bind_ok prepared).trans activated)), final⟩

/-- Every state that killed calls reach from an unspoiled one can be gone on from. -/
theorem reached (lawful : catalog.Lawful descriptor) (visible : descriptor.Visible)
    {c : Config InstallOp Runtime String String}
    (unspoiled : Unspoiled catalog descriptor policy s)
    (run : Run (device descriptor) (fun _ => Entry catalog descriptor) (fun _ => True) (s, none) c) :
    Canonical catalog descriptor policy c.1 ∧ Fine catalog descriptor (c.1.slot descriptor) :=
  Run.invariant (I := fun s => Canonical catalog descriptor policy s ∧
      Fine catalog descriptor (s.slot descriptor)) (fun _ _ h => h.meets lawful visible)
    (fun _ _ _ step h => ⟨step.canonical lawful h.1, step.fine h.2⟩) (bounded_idle s) run
    ⟨unspoiled.canonical, .inl unspoiled.slot⟩

/-- **Trying again.** Whatever killed calls left of an unspoiled runtime directory, recovery
succeeds, and the next attempt leaves the canonical directory ready, unless the slot is wedged: that
state is kept as ambiguous. -/
theorem install_again_iff (lawful : catalog.Lawful descriptor) (visible : descriptor.Visible)
    (hidden : descriptor.Private wrapper) (complete : Payload catalog descriptor payload)
    {c : Config InstallOp Runtime String String}
    (unspoiled : Unspoiled catalog descriptor policy s)
    (run : Run (device descriptor) (fun _ => Entry catalog descriptor) (fun _ => True) (s, none) c)
    (fresh : c.1.get (.top wrapper) = none) :
    (((recover catalog descriptor).exec (device descriptor) c.1).1 = .ok () ↔
        ¬ Wedged catalog descriptor c.1) ∧
      ((∃ t, (installAgain catalog descriptor temps policy wrapper name (.dir ino dev payload)).exec
          (device descriptor) c.1 = (.ok (), t) ∧
          classifyNode catalog descriptor (t.canonical descriptor) = .ready) ↔
        ¬ Wedged catalog descriptor c.1) := by
  obtain ⟨usable, fine⟩ := reached lawful visible unspoiled run
  have recovers := recover_ok_iff usable fine
  refine ⟨recovers, ?_⟩
  by_cases ready : classifyNode catalog descriptor (c.1.canonical descriptor) = .ready
  · obtain ⟨t, checked, final⟩ := @needsInstall_exec_ready _ _ policy _ (temps 0) lawful visible ready
    exact iff_of_true ⟨t, Prog.exec_bind_ok checked, final⟩ fun wedged => wedged.2 ready
  by_cases wedged : Wedged catalog descriptor c.1
  · refine iff_of_false ?_ (not_not.mpr wedged)
    rintro ⟨t, done, -⟩
    cases refused : (recover catalog descriptor).exec (device descriptor) c.1 with
    | mk answer u =>
    cases answer with
    | ok _ => exact recovers.mp (by rw [refused]) wedged
    | error e =>
      have again : (installAgain catalog descriptor temps policy wrapper name (.dir ino dev payload)).exec
          (device descriptor) c.1 = (.error e, u) :=
        Prog.exec_bind_error (Prog.exec_bind_error refused)
      rw [again] at done
      cases done
  · have owned : classifyNode catalog descriptor (c.1.slot descriptor) ≠ .foreign := fun foreign =>
      wedged ⟨fine.resolve_left (not_not.mpr foreign), ready⟩
    obtain ⟨t, checked, swept, free⟩ := needsInstall_exec_needed visible usable ready owned
    obtain ⟨u, installed, final⟩ := @install_exec _ _ policy _ _ name ino dev _ (temps 1) (temps 2) lawful hidden
      complete (by rwa [Canonical, swept.canonical]) (by rwa [swept.canonical]) free (swept.gone _ fresh)
    exact iff_of_true ⟨u, (Prog.exec_bind_ok checked).trans installed, final⟩ wedged

end Retry

/-! ### A wedged slot -/

def emptyRuntime : Runtime := ⟨[], false, false, []⟩

def samplePayload : Entries := [("x64", .dir 2 1 [])]

theorem samplePayload_complete : Payload sampleCatalog sampleDescriptor samplePayload where
  ready := rfl
  free name reserved := by
    have ne : name ≠ "x64" := by
      rintro rfl
      exact absurd reserved (by decide)
    simp [samplePayload, Entries.find_cons, ne.symm]

theorem emptyRuntime_unspoiled :
    Unspoiled sampleCatalog sampleDescriptor .replaceNotReady emptyRuntime :=
  ⟨.inl rfl, nofun⟩

/-- An import into an empty runtime directory is killed just before its commit; the recovery of
the next process is killed between the tombstone and the directory. -/
def wedgedRuntime : Runtime :=
  let reserved := (importArchiveLocked sampleCatalog sampleDescriptor sampleImport).killedAfter
    (device sampleDescriptor) 42 emptyRuntime
  (recover sampleCatalog sampleDescriptor).killedAfter (device sampleDescriptor) 20 reserved

theorem wedgedRuntime_reached :
    Run (device sampleDescriptor) (fun _ => Entry sampleCatalog sampleDescriptor) (fun _ => True)
      (emptyRuntime, none) (wedgedRuntime, none) :=
  (Run.killedAfter (.importArchiveLocked sampleImport) 42).trans (Run.killedAfter .recover 20)

/-- An import that is killed between the reservation and the commit is in nobody's way. -/
theorem install_again_iff_sample :
    ∃ t, (installAgain sampleCatalog sampleDescriptor (ReceiptTemp.mk 8) .replaceNotReady
        ".dxvk-2.7.staging-8-1" "dxvk-2.7" (.dir 5 1 samplePayload)).exec (device sampleDescriptor)
        ((importArchiveLocked sampleCatalog sampleDescriptor sampleImport).killedAfter
          (device sampleDescriptor) 42 emptyRuntime) = (.ok (), t) ∧
      classifyNode sampleCatalog sampleDescriptor (t.canonical sampleDescriptor) = .ready := by
  have hidden : sampleDescriptor.Private ".dxvk-2.7.staging-8-1" := ⟨by decide, by decide⟩
  have killed : Run (device sampleDescriptor) (fun _ => Entry sampleCatalog sampleDescriptor)
      (fun _ => True) (emptyRuntime, none) ((importArchiveLocked sampleCatalog sampleDescriptor
        sampleImport).killedAfter (device sampleDescriptor) 42 emptyRuntime, none) :=
    Run.killedAfter (.importArchiveLocked sampleImport) 42
  have fresh : ((importArchiveLocked sampleCatalog sampleDescriptor sampleImport).killedAfter
      (device sampleDescriptor) 42 emptyRuntime).get (.top ".dxvk-2.7.staging-8-1") = none := rfl
  have again := @install_again_iff _ _ .replaceNotReady _ _ "dxvk-2.7" 5 1 _ (ReceiptTemp.mk 8)
    sampleCatalog_lawful sampleDescriptor_visible hidden samplePayload_complete _
    emptyRuntime_unspoiled killed fresh
  apply again.2.mpr
  rintro ⟨⟨ino, dev, emptied⟩, -⟩
  have names : listing (((importArchiveLocked sampleCatalog sampleDescriptor sampleImport).killedAfter
      (device sampleDescriptor) 42 emptyRuntime).slot sampleDescriptor) = [] := congrArg listing emptied
  exact absurd names (by decide)

/-- The next attempt is refused, by recovery, and so is every later one. -/
theorem install_refused_when_wedged :
    Unspoiled sampleCatalog sampleDescriptor .replaceNotReady emptyRuntime ∧
      Run (device sampleDescriptor) (fun _ => Entry sampleCatalog sampleDescriptor) (fun _ => True)
        (emptyRuntime, none) (wedgedRuntime, none) ∧
      (recover sampleCatalog sampleDescriptor).exec (device sampleDescriptor) wedgedRuntime =
        (.error (ambiguity (.top (activationSlot sampleDescriptor))), wedgedRuntime) ∧
      (installAgain sampleCatalog sampleDescriptor (ReceiptTemp.mk 8) .replaceNotReady
          ".dxvk-2.7.staging-8-1" "dxvk-2.7" (.dir 5 1 samplePayload)).exec (device sampleDescriptor)
          wedgedRuntime =
        (.error (ambiguity (.top (activationSlot sampleDescriptor))), wedgedRuntime) :=
  ⟨emptyRuntime_unspoiled, wedgedRuntime_reached, rfl, rfl⟩

end RoLauncher.Artifacts
