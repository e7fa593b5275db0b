import RoLauncher.Artifacts.Install

/-!
# Reads and cleanups under crashes

What a program of the installer learns from a read that can fail (`Reading`),
and what a cleanup does to its directory however it is disturbed: it takes
nothing but that directory (`Cleans`), and leaves it owned, tombstoned, emptied
or gone.
-/

namespace RoLauncher.Artifacts

open RoLauncher.Files RoLauncher.Crash

/-! ## Places -/

namespace Runtime

variable {s : Runtime} {place : Place} {node : Option Node} {name : String}

@[simp] theorem get_top (s : Runtime) (name : String) : s.get (.top name) = s.entries.find name := rfl

@[simp] theorem get_set_top (s : Runtime) (name : String) (node : Option Node) :
    (s.set (.top name) node).get (.top name) = node := by
  cases node with
  | none => exact Entries.find_erase_self ..
  | some node => exact Entries.find_put_self ..

theorem get_set_of_ne (h : name ≠ place.root) :
    (s.set place node).get (.top name) = s.get (.top name) := by
  cases place with
  | top other =>
    cases node with
    | none => exact Entries.find_erase_of_ne h
    | some node => exact Entries.find_put_of_ne h
  | inner wrapper inner =>
    simp only [set]
    split
    · exact Entries.find_put_of_ne h
    · rfl

@[simp] theorem set_restored (s : Runtime) (place : Place) (node : Option Node) :
    (s.set place node).restored = s.restored := by
  cases place with
  | top name => rfl
  | inner wrapper name =>
    simp only [set]
    split <;> rfl

@[simp] theorem set_slotRetired (s : Runtime) (place : Place) (node : Option Node) :
    (s.set place node).slotRetired = s.slotRetired := by
  cases place with
  | top name => rfl
  | inner wrapper name =>
    simp only [set]
    split <;> rfl

@[simp] theorem set_doomed (s : Runtime) (place : Place) (node : Option Node) :
    (s.set place node).doomed = s.doomed := by
  cases place with
  | top name => rfl
  | inner wrapper name =>
    simp only [set]
    split <;> rfl

theorem tombstoned_eq_false : s.tombstoned place = false ↔
    child (s.get place) CLEANUP = none ∧ place.root ∉ s.doomed := by
  simp [tombstoned]

/-- What a directory is replaced by is found where it was. -/
theorem get_set_dir {ino dev : Nat} {es : Entries}
    (found : s.get place = some (.dir ino dev es)) (node : Node) :
    (s.set place (some node)).get place = some node := by
  cases place with
  | top name => exact get_set_top ..
  | inner wrapper name =>
    simp only [get] at found
    split at found
    next outer here =>
      simp only [set, here, get, rebind, Entries.find_put_self]
    next => cases found

end Runtime

/-! ## Names -/

theorem activationSlot_ne_id (descriptor : ArtifactDescriptor) :
    activationSlot descriptor ≠ descriptor.id := by
  intro same
  have length := congrArg String.length same
  rw [activationSlot, String.length_append, String.length_append] at length
  have : ".".length = 1 := rfl
  omega

/-- An artifact that is not hidden has a name unlike those of its residue. -/
def ArtifactDescriptor.Visible (descriptor : ArtifactDescriptor) : Prop :=
  ¬ ['.'].isPrefixOf descriptor.id.toList

theorem dot_prefix {name start : String} (h : ("." ++ start).toList.isPrefixOf name.toList = true) :
    ['.'].isPrefixOf name.toList = true := by
  rw [List.isPrefixOf_iff_prefix] at h ⊢
  refine List.IsPrefix.trans ?_ h
  rw [String.toList_append]
  exact List.prefix_append ..

theorem residue_ne_id {descriptor : ArtifactDescriptor} (visible : descriptor.Visible)
    {name : String} (h : isWork descriptor name = true ∨ isPrevious descriptor name = true) :
    name ≠ descriptor.id := by
  rintro rfl
  apply visible
  obtain work | previous := h
  · rw [isWork, Bool.or_eq_true] at work
    obtain kinds | download := work
    · obtain ⟨kind, -, suffix⟩ := List.any_eq_true.mp kinds
      simp only [exactSuffix, Bool.and_eq_true, String.append_assoc] at suffix
      exact dot_prefix suffix.1
    · simp only [exactSuffix, Bool.and_eq_true, String.append_assoc] at download
      exact dot_prefix download.1
  · simp only [isPrevious, Bool.and_eq_true, String.append_assoc] at previous
    exact dot_prefix previous.1

/-! ## Reads -/

section Reads

variable {catalog : Catalog} {descriptor : ArtifactDescriptor} {R : Runtime → Runtime → Prop}
  {α : Type} {s : Runtime}

theorem torn_read {t : Runtime} (h : tornOp .read s t) : t = s := by
  obtain h | ⟨_, _, _, _, _, torn, _⟩ := h
  · exact h
  · exact torn.elim

/-- A read finds the state as it is, or fails and leaves it so. -/
theorem meets_reading {ok : Runtime → InstallProg α} {failed : String → InstallProg α}
    {Q : Except String α → Runtime → Prop} (refl : R s s)
    (hok : (ok s).Meets (device descriptor) R Q s)
    (hfailed : ∀ e, (failed e).Meets (device descriptor) R Q s) :
    (reading ok failed).Meets (device descriptor) R Q s := by
  refine ⟨fun t torn => ?_, refl, hok⟩
  cases torn_read torn
  exact ⟨refl, hfailed⟩

theorem meets_run_read {onError : String → String} {Q : Except String Unit → Runtime → Prop}
    (refl : R s s) (ok : Q (.ok ()) s) (failed : ∀ e, Q (.error e) s) :
    (Prog.perform .read onError : InstallProg Unit).Meets (device descriptor) R Q s := by
  refine ⟨fun t torn => ?_, refl, ok⟩
  cases torn_read torn
  exact ⟨refl, fun e => failed _⟩

/-- A state that is reported ready is. -/
theorem artifactCacheStateAt_meets {place : Place}
    {Q : Except String ArtifactCacheState → Runtime → Prop} (refl : R s s)
    (ready : artifactCacheState catalog descriptor (s.get place) = .ready → Q (.ok .ready) s)
    (other : ∀ state, state ≠ .ready → Q (.ok state) s) :
    (artifactCacheStateAt catalog descriptor place).Meets (device descriptor) R Q s := by
  refine meets_reading refl ?_ fun _ => other _ (by decide)
  unfold artifactCacheState at ready
  split
  next => exact other _ (by decide)
  next es found =>
    refine meets_reading refl ?_ fun _ => other _ (by decide)
    simp only [found, cacheStateInDirectory] at ready
    split
    next stored parsed =>
      simp only [parsed] at ready
      split
      next => exact other _ (by decide)
      next matching =>
        refine meets_reading refl ?_ fun _ => other _ (by decide)
        rw [if_neg matching] at ready
        cases payload : catalog.payloadReady descriptor es with
        | true => exact ready (by simp [payload])
        | false => exact other _ (by decide)
    next => exact other _ (by decide)
  next => exact other _ (by decide)

/-- What `classify` may answer of a tree: reads that fail make it less. -/
inductive Reading : Tree → Except String Tree → Prop
  | failed {tree : Tree} (e : String) : Reading tree (.error e)
  | exact {tree : Tree} : Reading tree (.ok tree)
  | foreign {tree : Tree} : tree ≠ .absent → Reading tree (.ok .foreign)
  | incomplete : Reading .ready (.ok .ownedIncomplete)

/-- What is read as owned is owned. -/
theorem Reading.owned {tree answer : Tree} (h : Reading tree (.ok answer))
    (owned : answer = .ready ∨ answer = .ownedIncomplete) :
    tree = .ready ∨ tree = .ownedIncomplete := by
  cases h with
  | exact => exact owned
  | foreign => simp at owned
  | incomplete => exact .inl rfl

theorem Reading.ready {tree : Tree} (h : Reading tree (.ok .ready)) : tree = .ready := by
  cases h
  rfl

/-- What does not match, or cannot be read, does not count. -/
theorem matchingReceiptAt_meets {entry : Option Node} {Q : Except String Bool → Runtime → Prop}
    (refl : R s s) (yes : matchingReceipt catalog descriptor entry = true → Q (.ok true) s)
    (no : Q (.ok false) s) :
    (matchingReceiptAt catalog descriptor entry).Meets (device descriptor) R Q s := by
  refine meets_reading refl ?_ fun _ => no
  cases matching : matchingReceipt catalog descriptor entry with
  | true => exact yes matching
  | false => exact no

theorem classify_meets {place : Place} {Q : Except String Tree → Runtime → Prop} (refl : R s s)
    (answer : ∀ r, Reading (classifyNode catalog descriptor (s.get place)) r → Q r s) :
    (classify catalog descriptor place).Meets (device descriptor) R Q s := by
  refine meets_reading refl ?_ fun e => answer _ (.failed e)
  split
  next none =>
    rw [none] at answer
    exact answer _ .exact
  next ino dev es found =>
    rw [found] at answer
    simp only [classifyNode] at answer
    refine meets_reading refl ?_ fun e => answer _ (.failed e)
    split
    next cleanup =>
      rw [if_pos cleanup] at answer
      have foreign : Q (.ok .foreign) s := answer _ (.foreign (by split <;> decide))
      refine meets_reading refl ?_ fun e => answer _ (.failed e)
      split
      next unmarked =>
        refine Prog.Meets.bind (matchingReceiptAt_meets refl (fun matching => ?_) foreign)
        rw [unmarked, matching] at answer
        exact answer _ .exact
      next => exact foreign
    next living =>
      rw [if_neg living] at answer
      have foreign : Q (.ok .foreign) s := answer _ (.foreign (by split_ifs <;> decide))
      refine Prog.Meets.bind (matchingReceiptAt_meets refl (fun matching => ?_) foreign)
      rw [matching] at answer
      refine Prog.Meets.bind (artifactCacheStateAt_meets refl (fun ready => ?_) fun state ne => ?_)
      · rw [found] at ready
        rw [if_pos ready] at answer
        exact answer _ .exact
      · simp only [if_neg ne]
        by_cases ready : artifactCacheState catalog descriptor (some (.dir ino dev es)) = .ready
        · rw [if_pos ready] at answer
          exact answer _ .incomplete
        · rw [if_neg ready] at answer
          exact answer _ .exact
  next node notDir found =>
    have foreign : classifyNode catalog descriptor (some node) = .foreign := by
      cases node with
      | dir ino dev es => exact (notDir ino dev es rfl).elim
      | _ => rfl
    rw [found, foreign] at answer
    exact answer _ .exact

/-- A call that cannot be cut short either happens or does not. -/
theorem meets_perform_whole {o : InstallOp} {onError : String → String}
    {Q : Except String Unit → Runtime → Prop} (whole : ∀ es es', ¬ tornInside o es es')
    (refl : R s s) (failed : ∀ e, Q (.error e) s)
    (effect : (∃ e, execOp descriptor o s = (.error e, s)) ∨
      ∃ t, execOp descriptor o s = (.ok (), t) ∧ R s t ∧ Q (.ok ()) t) :
    (Prog.perform o onError : InstallProg Unit).Meets (device descriptor) R Q s := by
  have exec : (device descriptor).exec o s = execOp descriptor o s := rfl
  refine Prog.meets_perform ?_ ?_ ?_ ?_
  · rintro t (rfl | ⟨_, _, _, _, _, torn, _⟩)
    · exact ⟨refl, fun e => failed _⟩
    · exact (whole _ _ torn).elim
  all_goals rw [exec]
  all_goals obtain ⟨e, fails⟩ | ⟨t, done, moved, after⟩ := effect
  · rwa [fails]
  · rwa [done]
  · rw [fails]
    nofun
  · exact fun _ => by rwa [done]
  · exact fun _ _ => by simpa only [fails] using failed _
  · rw [done]
    nofun

/-- A call inside a directory: what it makes of the entries, done or cut short. -/
theorem meets_run_within {o : InstallOp} {place : Place} {f : Entries → Except String Entries}
    {Q : Except String Unit → Runtime → Prop} {ino dev : Nat} {es : Entries}
    (exec : execOp descriptor o s = inside s place f)
    (found : s.get place = some (.dir ino dev es)) (refl : R s s)
    (here : ∀ es es', tornInside o es es' → o.tornPlace = place)
    (torn : ∀ es', tornInside o es es' → R s (s.set place (some (.dir ino dev es'))) ∧
      ∀ e, Q (.error e) (s.set place (some (.dir ino dev es'))))
    (done : ∀ es', f es = .ok es' → R s (s.set place (some (.dir ino dev es'))) ∧
      Q (.ok ()) (s.set place (some (.dir ino dev es'))))
    (failed : ∀ e, Q (.error e) s) : (run o).Meets (device descriptor) R Q s := by
  have applied : ∀ es', f es = .ok es' →
      (device descriptor).exec o s = (.ok (), s.set place (some (.dir ino dev es'))) := by
    intro es' result
    refine exec.trans ?_
    simp only [inside, found, result]
  have refused : ∀ e, f es = .error e → (device descriptor).exec o s = (.error e, s) := by
    intro e result
    refine exec.trans ?_
    simp only [inside, found, result]
  refine Prog.meets_perform ?_ ?_ ?_ ?_
  · rintro t (rfl | ⟨_, _, _, es', found', cut, rfl⟩)
    · exact ⟨refl, failed⟩
    · cases here _ _ cut
      cases found.symm.trans found'
      exact torn es' cut
  all_goals cases result : f es with
    | ok es' => simp [applied es' result, done es' result]
    | error e => simp [refused e result, refl, failed]

end Reads

/-! ## Cleanups -/

section Cleanup

variable (catalog : Catalog) (descriptor : ArtifactDescriptor)

/-- An entry that the installer can leave in the slot: owned in some way, or a directory whose
tombstone went last. -/
def Fine (entry : Option Node) : Prop :=
  classifyNode catalog descriptor entry ≠ .foreign ∨ ∃ ino dev, entry = some (.dir ino dev [])

/-- A change of one entry of the runtime directory that is not the canonical one. -/
structure Cleans (name : String) (s t : Runtime) : Prop where
  others : ∀ other, other ≠ name → t.get (.top other) = s.get (.top other)
  restored : t.restored = s.restored
  doomed : ∀ other, other ≠ name → other ∈ t.doomed → other ∈ s.doomed
  gone : s.get (.top name) = none → t.get (.top name) = none
  fine : Fine catalog descriptor (s.get (.top name)) → Fine catalog descriptor (t.get (.top name))

end Cleanup

section Cleanup

variable {catalog : Catalog} {descriptor : ArtifactDescriptor} {name : String} {s t u : Runtime}
  {ino dev : Nat} {es es' : Entries}

theorem Cleans.refl (s : Runtime) : Cleans catalog descriptor name s s :=
  ⟨fun _ _ => rfl, rfl, fun _ _ => id, id, id⟩

theorem Cleans.trans (h : Cleans catalog descriptor name s t)
    (h' : Cleans catalog descriptor name t u) : Cleans catalog descriptor name s u :=
  ⟨fun other ne => (h'.others other ne).trans (h.others other ne), h'.restored.trans h.restored,
    fun other ne mem => h.doomed other ne (h'.doomed other ne mem), h'.gone ∘ h.gone, h'.fine ∘ h.fine⟩

/-- A directory is replaced, and what it becomes is fine. -/
theorem cleans_set {node : Option Node} (found : s.get (.top name) = some (.dir ino dev es))
    (fine : Fine catalog descriptor node) :
    Cleans catalog descriptor name s (s.set (.top name) node) :=
  ⟨fun _ ne => Runtime.get_set_of_ne ne, Runtime.set_restored ..,
    fun _ _ mem => by rwa [Runtime.set_doomed] at mem, fun gone => (nomatch gone.symm.trans found), fun _ => by rwa [Runtime.get_set_top]⟩

/-- A directory that carries the tombstone and no receipt. -/
structure Tombstoned (catalog : Catalog) (descriptor : ArtifactDescriptor) (es : Entries) : Prop where
  unmarked : es.find MARKER_FILE = none
  matching : matchingReceipt catalog descriptor (es.find CLEANUP) = true

theorem Tombstoned.found (h : Tombstoned catalog descriptor es) :
    ∃ node, es.find CLEANUP = some node := by
  have matching := h.matching
  cases found : es.find CLEANUP with
  | none =>
    rw [found] at matching
    cases matching
  | some node => exact ⟨node, rfl⟩

theorem Tombstoned.classify (h : Tombstoned catalog descriptor es) :
    classifyNode catalog descriptor (some (.dir ino dev es)) = .cleanup := by
  obtain ⟨node, found⟩ := h.found
  have matching := h.matching
  rw [found] at matching
  simp [classifyNode, found, h.unmarked, matching]

theorem Tombstoned.fine (h : Tombstoned catalog descriptor es) :
    Fine catalog descriptor (some (.dir ino dev es)) :=
  .inl (by rw [h.classify]; nofun)

/-- Deleting something else keeps the tombstone. -/
theorem Tombstoned.congr (h : Tombstoned catalog descriptor es)
    (unmarked : es'.find MARKER_FILE = none) (same : es'.find CLEANUP = es.find CLEANUP) :
    Tombstoned catalog descriptor es' :=
  ⟨unmarked, same ▸ h.matching⟩

theorem absent_of_classify {entry : Option Node}
    (h : classifyNode catalog descriptor entry = .absent) : entry = none := by
  unfold classifyNode at h
  split at h
  next => rfl
  next => split_ifs at h
  next => cases h

theorem tombstoned_of_classify {entry : Option Node}
    (h : classifyNode catalog descriptor entry = .cleanup) :
    ∃ (ino dev : Nat) (es : Entries), entry = some (.dir ino dev es) ∧
      Tombstoned catalog descriptor es := by
  unfold classifyNode at h
  split at h
  next => cases h
  next ino dev es =>
    refine ⟨ino, dev, es, rfl, ?_⟩
    split at h
    next =>
      split at h
      next both =>
        rw [Bool.and_eq_true, Option.isNone_iff_eq_none] at both
        exact ⟨both.1, both.2⟩
      next => cases h
    next => split_ifs at h
  next => cases h

theorem owned_of_classify {entry : Option Node}
    (h : classifyNode catalog descriptor entry = .ready ∨
      classifyNode catalog descriptor entry = .ownedIncomplete) :
    ∃ (ino dev : Nat) (es : Entries), entry = some (.dir ino dev es) ∧ es.find CLEANUP = none ∧
      matchingReceipt catalog descriptor (es.find MARKER_FILE) = true := by
  unfold classifyNode at h
  split at h
  next => obtain h | h := h <;> cases h
  next ino dev es =>
    refine ⟨ino, dev, es, rfl, ?_⟩
    split at h
    next => split_ifs at h <;> obtain h | h := h <;> cases h
    next living =>
      rw [Bool.not_eq_true, Option.isSome_eq_false_iff, Option.isNone_iff_eq_none] at living
      split at h
      next => obtain h | h := h <;> cases h
      next matching => exact ⟨living, by simpa using matching⟩
  next => obtain h | h := h <;> cases h

theorem marker_ne_cleanup : MARKER_FILE ≠ CLEANUP := by decide

/-- A tombstoned directory stands at the entry, and of its names only these are left. -/
def Left (catalog : Catalog) (descriptor : ArtifactDescriptor) (name : String) (names : List String)
    (t : Runtime) : Prop :=
  ∃ (ino dev : Nat) (es : Entries), t.get (.top name) = some (.dir ino dev es) ∧
    Tombstoned catalog descriptor es ∧ ∀ entry ∈ es.names, entry = CLEANUP ∨ entry ∈ names

theorem Tombstoned.erase (h : Tombstoned catalog descriptor es) {entry : String}
    (ne : entry ≠ CLEANUP) : Tombstoned catalog descriptor (es.erase entry) :=
  h.congr ((PartOf.erase es entry).find_eq_none h.unmarked) (Entries.find_erase_of_ne ne.symm)

/-- What is erased is no longer among the names left. -/
theorem left_erase {entry : String} {rest : List String}
    (tombstoned : Tombstoned catalog descriptor es) (ne : entry ≠ CLEANUP)
    (names : ∀ other ∈ es.names, other = CLEANUP ∨ other ∈ entry :: rest) :
    Left catalog descriptor name rest
      (s.set (.top name) (some (.dir ino dev (es.erase entry)))) := by
  refine ⟨ino, dev, _, Runtime.get_set_top .., tombstoned.erase ne, fun other mem => ?_⟩
  obtain ⟨mem, other_ne⟩ := Entries.mem_names_erase mem
  exact (names other mem).imp_right fun h => (List.mem_cons.mp h).resolve_left other_ne

/-- The last step of a cleanup: the emptied directory goes. -/
theorem removeEmptied_meets (found : s.get (.top name) = some (.dir ino dev [])) :
    (do run (.removeDir name); run .read : InstallProg Unit).Meets (device descriptor)
      (Cleans catalog descriptor name) (fun r t => r = .ok () → t.get (.top name) = none) s := by
  have exec : execOp descriptor (.removeDir name) s = (.ok (), s.set (.top name) none) := by
    simp [execOp, found]
  exact Prog.Meets.bind (meets_perform_whole (fun _ _ => id) (.refl s) (fun _ => nofun)
    (.inr ⟨_, exec, cleans_set found (.inl nofun),
      meets_run_read (.refl _) (fun _ => Runtime.get_set_top ..) fun _ => nofun⟩))

theorem cleanupTree_meets (left : Left catalog descriptor name (listing (s.get (.top name))) s) :
    (cleanupTree name).Meets (device descriptor) (Cleans catalog descriptor name)
      (fun r t => r = .ok () → t.get (.top name) = none) s := by
  refine Prog.Meets.bind (meets_run_read (.refl s) ?_ fun e => nofun)
  refine Prog.Meets.bind ?_
  refine Prog.Meets.forM (I := Left catalog descriptor name) left ?_ ?_
  · intro entry rest t ⟨ino, dev, es, found, tombstoned, names⟩
    split_ifs with tombstone
    · exact ⟨ino, dev, es, found, tombstoned, fun other mem =>
        (names other mem).elim .inl fun h => (List.mem_cons.mp h).imp_left (·.trans tombstone)⟩
    · have erased : Cleans catalog descriptor name t
          (t.set (.top name) (some (.dir ino dev (es.erase entry)))) :=
        cleans_set found (tombstoned.erase tombstone).fine
      refine meets_reading (.refl t) ?_ fun e => nofun
      split_ifs
      · refine meets_run_within rfl found (.refl t) (fun _ _ _ => rfl) ?_ ?_ fun e => nofun
        · intro es' torn
          refine ⟨cleans_set found ?_, fun e => nofun⟩
          obtain rfl | ⟨node, node', here, part, rfl⟩ := torn
          · exact (tombstoned.erase tombstone).fine
          · exact (tombstoned.congr ((PartOf.thin here part).find_eq_none tombstoned.unmarked)
              (Entries.find_thin_of_ne (Ne.symm tombstone))).fine
        · intro es' done
          split at done <;> cases done
          exact ⟨erased, left_erase tombstoned tombstone names⟩
      · refine meets_run_within rfl found (.refl t) nofun nofun ?_ fun e => nofun
        intro es' done
        split at done <;> cases done
        exact ⟨erased, left_erase tombstoned tombstone names⟩
  · intro t ⟨ino, dev, es, found, tombstoned, names⟩
    refine Prog.Meets.bind (meets_run_read (.refl t) ?_ fun e => nofun)
    refine Prog.Meets.bind (meets_run_within rfl found (.refl t) nofun nofun ?_ fun e => nofun)
    intro es' done
    split at done <;> cases done
    all_goals rw [Entries.erase_eq_nil fun other mem => (names other mem).resolve_right nofun]
    all_goals exact ⟨cleans_set found (.inr ⟨_, _, rfl⟩), removeEmptied_meets (Runtime.get_set_top ..)⟩

theorem left_listing (found : s.get (.top name) = some (.dir ino dev es))
    (tombstoned : Tombstoned catalog descriptor es) :
    Left catalog descriptor name (listing (s.get (.top name))) s :=
  ⟨ino, dev, es, found, tombstoned, fun _ mem => .inr (by rwa [found])⟩

@[simp] theorem noteTombstone_get {place : Place} {destination : String} (place' : Place) :
    (noteTombstone descriptor place destination s).get place' = s.get place' := by
  unfold noteTombstone
  split <;> rfl

@[simp] theorem noteTombstone_restored {place : Place} {destination : String} :
    (noteTombstone descriptor place destination s).restored = s.restored := by
  unfold noteTombstone
  split <;> rfl

/-- A tombstone dooms the entry it is put in, and no other. -/
theorem noteTombstone_doomed {place : Place} {destination other : String} (ne : other ≠ place.root)
    (mem : other ∈ (noteTombstone descriptor place destination s).doomed) : other ∈ s.doomed := by
  unfold noteTombstone at mem
  split at mem
  · exact (List.mem_cons.mp mem).resolve_left ne
  · exact mem

/-- The receipt becomes the tombstone. -/
theorem exec_tombstone (found : s.get (.top name) = some (.dir ino dev es))
    (living : es.find CLEANUP = none)
    (matching : matchingReceipt catalog descriptor (es.find MARKER_FILE) = true) :
    Tombstoned catalog descriptor (es.move MARKER_FILE CLEANUP) ∧
      execOp descriptor (.renameIn (.top name) MARKER_FILE CLEANUP false) s =
        (.ok (), noteTombstone descriptor (.top name) CLEANUP
          (s.set (.top name) (some (.dir ino dev (es.move MARKER_FILE CLEANUP))))) := by
  obtain ⟨node, marked⟩ : ∃ node, es.find MARKER_FILE = some node := by
    cases marked : es.find MARKER_FILE with
    | none =>
      rw [marked] at matching
      cases matching
    | some node => exact ⟨node, rfl⟩
  refine ⟨⟨Entries.find_move_source marked marker_ne_cleanup, ?_⟩, ?_⟩
  · rw [Entries.find_move_destination marked, ← marked, matching]
  · simp only [execOp, inside, found, marked, living]

theorem tombstone_meets {Q : Except String Unit → Runtime → Prop}
    (found : s.get (.top name) = some (.dir ino dev es)) (living : es.find CLEANUP = none)
    (matching : matchingReceipt catalog descriptor (es.find MARKER_FILE) = true)
    (done : ∀ t es', t.get (.top name) = some (.dir ino dev es') →
      Tombstoned catalog descriptor es' → Q (.ok ()) t)
    (failed : ∀ e, Q (.error e) s) :
    (run (.renameIn (.top name) MARKER_FILE CLEANUP false)).Meets (device descriptor)
      (Cleans catalog descriptor name) Q s := by
  obtain ⟨tombstoned, exec⟩ := @exec_tombstone _ descriptor _ _ _ _ _ found living matching
  have moved := cleans_set found (@Tombstoned.fine _ _ ino dev _ tombstoned)
  refine meets_perform_whole (fun _ _ => id) (.refl s) failed (.inr ⟨_, exec, ?_, ?_⟩)
  · refine ⟨fun other ne => ?_, ?_, fun other ne mem => ?_, fun gone => ?_, fun fine => ?_⟩
    · rw [noteTombstone_get, moved.others other ne]
    · rw [noteTombstone_restored, moved.restored]
    · exact moved.doomed other ne (@noteTombstone_doomed _ _ (.top name) _ _ ne mem)
    · rw [noteTombstone_get, moved.gone gone]
    · rw [noteTombstone_get]
      exact moved.fine fine
  · exact done _ _ (by rw [noteTombstone_get, Runtime.get_set_top]) tombstoned

/-- **A cleanup.** It deletes what it owns, or leaves it tombstoned, or emptied. -/
theorem cleanupOwned_meets :
    (cleanupOwned catalog descriptor name).Meets (device descriptor) (Cleans catalog descriptor name)
      (fun r t => r = .ok () → t.get (.top name) = none) s := by
  have owned (h : classifyNode catalog descriptor (s.get (.top name)) = .ready ∨
      classifyNode catalog descriptor (s.get (.top name)) = .ownedIncomplete) :
      (do
        run (.renameIn (.top name) MARKER_FILE CLEANUP false)
        run .read
        cleanupTree name : InstallProg Unit).Meets (device descriptor)
        (Cleans catalog descriptor name) (fun r t => r = .ok () → t.get (.top name) = none) s := by
    obtain ⟨ino, dev, es, found, living, matching⟩ := owned_of_classify h
    refine Prog.Meets.bind (tombstone_meets found living matching (fun t es' found' tombstoned => ?_)
      fun e => nofun)
    exact Prog.Meets.bind (meets_run_read (.refl t) (cleanupTree_meets (left_listing found' tombstoned))
      fun e => nofun)
  refine Prog.Meets.bind (classify_meets (.refl s) fun r reading => ?_)
  generalize classified : classifyNode catalog descriptor (s.get (.top name)) = tree at reading owned
  cases reading with
  | failed e => exact nofun
  | foreign => exact nofun
  | incomplete => exact owned (.inl rfl)
  | exact =>
    cases tree with
    | absent => exact fun _ => absent_of_classify classified
    | ready => exact owned (.inl rfl)
    | ownedIncomplete => exact owned (.inr rfl)
    | cleanup =>
      obtain ⟨ino, dev, es, found, tombstoned⟩ := tombstoned_of_classify classified
      exact cleanupTree_meets (left_listing found tombstoned)
    | foreign => exact nofun

end Cleanup

end RoLauncher.Artifacts
