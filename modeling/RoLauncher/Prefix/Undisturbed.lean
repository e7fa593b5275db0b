import RoLauncher.Prefix.Recover

/-!
# Recovery when nothing disturbs it

The undisturbed run of `recover` as a function of the disk. `recover_exec`
gives it in full: a refusal leaves the disk alone, an idle decision too, and
otherwise the outcome is the decision's and the disk is `Assessment.result`,
unless the disk itself is in the way (`Obstructed`): a root that has to be
removed is a mount point, or the temporary marker of a committed root is a
directory.
-/

namespace RoLauncher.Prefix

open RoLauncher.Files RoLauncher.Crash

/-! ## Single calls -/

section Calls

variable {disk : Disk} {slot : Slot} {ino dev : Nat} {es : Entries} {io : IoError → String}

theorem exec_call_ok {o : FsOp} {t : Disk} (h : execOp o disk = (.ok (), t)) :
    (Prog.perform o io : FsProg Unit).exec device disk = (.ok (), t) :=
  Prog.exec_perform_ok h

theorem exec_syncDir (found : disk.get slot = some (.dir ino dev es)) :
    (Prog.perform (.syncDir slot) io : FsProg Unit).exec device disk = (.ok (), disk) := by
  refine exec_call_ok ?_
  simp only [execOp, found, Option.isSome_some, if_true]

/-- A directory of the parent's device goes when it is empty; a mount point never does. -/
theorem exec_removeDir (found : disk.get slot = some (.dir ino dev [])) :
    (Prog.perform (.removeDir slot) io : FsProg Unit).exec device disk =
      if dev = disk.parentDev then (.ok (), disk.set slot none) else (.error (io .ebusy), disk) := by
  split
  next h =>
    subst h
    refine exec_call_ok ?_
    simp [execOp, found, isMount]
  next h =>
    refine Prog.exec_perform_error ?_
    change execOp (.removeDir slot) disk = _
    simp [execOp, found, isMount, h]

theorem exec_removeFileIfPresent {name : String} (fixed : slot = .root ∨ slot = .backup)
    (found : disk.get slot = some (.dir ino dev es))
    (file : entryKind (es.find name) ≠ .directory) :
    (removeFileIfPresent slot name io).exec device disk =
      (.ok (), disk.set slot (some (.dir ino dev (es.erase name)))) := by
  unfold removeFileIfPresent
  rw [Prog.exec_act]
  cases hf : es.find name with
  | none =>
    have hexec : device.exec (.removeFile slot name) disk = (.error .enoent, disk) :=
      inside_error found (by simp only [hf])
    rw [hexec, Entries.erase_of_find_none hf, Disk.set_self fixed found]
    rfl
  | some node =>
    have hexec : device.exec (.removeFile slot name) disk =
        (.ok (), disk.set slot (some (.dir ino dev (es.erase name)))) := by
      refine inside_ok found ?_
      cases node with
      | dir => rw [hf] at file; exact absurd rfl file
      | _ => simp only [hf]
    rw [hexec]
    rfl

/-- A directory is in the way of `unlink`. -/
theorem exec_removeFileIfPresent_directory {name : String}
    (found : disk.get slot = some (.dir ino dev es))
    (directory : entryKind (es.find name) = .directory) :
    (removeFileIfPresent slot name io).exec device disk = (.error (io .eisdir), disk) := by
  obtain ⟨ino', dev', es', hf⟩ := entryKind_eq_directory.mp directory
  have hexec : device.exec (.removeFile slot name) disk = (.error .eisdir, disk) :=
    inside_error found (by simp only [hf])
  unfold removeFileIfPresent
  rw [Prog.exec_act, hexec]
  rfl

theorem exec_deleteEntry {name : String} (found : disk.get slot = some (.dir ino dev es))
    (present : es.find name ≠ none) :
    (deleteEntry slot io name).exec device disk =
      (.ok (), disk.set slot (some (.dir ino dev (es.erase name)))) := by
  rw [deleteEntry, Prog.exec_look]
  rw [found, child_dir]
  split
  next hname => exact exec_call_ok (inside_ok found (by simp only [hname]))
  next other =>
    refine exec_call_ok (inside_ok found ?_)
    cases hf : es.find name with
    | none => exact absurd hf present
    | some node =>
      cases node with
      | dir ino' dev' es' => exact absurd hf (other ino' dev' es')
      | _ => rfl

/-- The deletion loop erases exactly the names it was given. -/
theorem exec_deleteEntries {names : List String} (distinct : names.Nodup)
    (fixed : slot = .root ∨ slot = .backup) (found : disk.get slot = some (.dir ino dev es))
    (present : ∀ name ∈ names, es.find name ≠ none) :
    (names.forM (deleteEntry slot io)).exec device disk =
      (.ok (), disk.set slot (some (.dir ino dev (es.filter fun e => !names.contains e.1)))) := by
  induction names generalizing disk es with
  | nil =>
    have all : (es.filter fun e => !([] : List String).contains e.1) = es := by simp
    rw [all, Disk.set_self fixed found]
    rfl
  | cons name rest ih =>
    rw [List.nodup_cons] at distinct
    change (deleteEntry slot io name >>= fun _ => rest.forM (deleteEntry slot io)).exec device disk = _
    rw [Prog.exec_bind_ok (exec_deleteEntry found (present _ List.mem_cons_self)),
      ih distinct.2 (Disk.get_set _ _ _), Disk.set_set]
    · have same : ((es.erase name).filter fun e => !rest.contains e.1) =
          es.filter fun e => !(name :: rest).contains e.1 := by
        rw [Entries.erase, List.filter_filter]
        apply List.filter_congr
        intro e _
        by_cases hn : e.1 = name <;> simp [hn]
      rw [same]
    · intro other hother
      have hne : other ≠ name := fun h => distinct.1 (h ▸ hother)
      rw [Entries.find_erase_of_ne hne]
      exact present other (List.mem_cons_of_mem _ hother)

/-- Deleting a directory that holds its authorizing entry. On a mount point only the content
goes. -/
theorem exec_deleteTreeLast {last : String} (fixed : slot = .root ∨ slot = .backup)
    (found : disk.get slot = some (.dir ino dev es)) (file : entryKind (es.find last) = .file) :
    (deleteTreeLast slot last io).exec device disk =
      if dev = disk.parentDev then (.ok (), disk.set slot none)
      else (.error (io .ebusy), disk.set slot (some (.dir ino dev []))) := by
  rw [deleteTreeLast, Prog.exec_look]
  rw [found]
  dsimp only
  have loop : ((es.names.filter (· ≠ last)).forM (deleteEntry slot io)).exec device disk = _ :=
    exec_deleteEntries ((List.nodup_dedup _).filter _) fixed found
      fun name hname => Entries.mem_names.mp (List.mem_filter.mp hname).1
  generalize hleft : (es.filter fun e => !(es.names.filter (· ≠ last)).contains e.1) = left at loop
  have lastHere : Entries.find left last = es.find last := by
    rw [← hleft]
    exact Entries.find_filter_of_pos (k := fun n => !(es.names.filter (· ≠ last)).contains n)
      (by simp)
  have onlyLast : Entries.erase left last = [] := by
    refine Entries.erase_eq_nil fun name hname => ?_
    by_contra other
    have present := Entries.mem_names.mp hname
    rw [← hleft] at present
    by_cases listed : es.find name = none
    · refine present ?_
      have part := PartOf.filter (fun e => !(es.names.filter (· ≠ last)).contains e.1) es
      exact part.find_eq_none listed
    · refine present (Entries.find_filter_of_neg
        (k := fun n => !(es.names.filter (· ≠ last)).contains n) ?_)
      simp [Entries.mem_names.mpr listed, other]
  have notDir : entryKind (Entries.find left last) ≠ .directory := by
    rw [lastHere, file]
    simp
  have here : ∀ node, (disk.set slot node).get slot = node := Disk.get_set disk slot
  have sameDev : (disk.set slot (some (.dir ino dev []))).parentDev = disk.parentDev := by
    obtain rfl | rfl := fixed <;> rfl
  rw [Prog.exec_bind_ok loop, Prog.exec_bind_ok (exec_syncDir (here _)),
    Prog.exec_bind_ok (exec_removeFileIfPresent fixed (here _) notDir), Disk.set_set, onlyLast,
    Prog.exec_bind_ok (exec_syncDir (here _)), exec_removeDir (here _), sameDev, Disk.set_set]

end Calls

/-! ## Actions -/

/-- The root is a mount point. -/
def rootMounted (disk : Disk) : Bool :=
  match disk.root with
  | some node => isMount disk node
  | none => false

/-- The temporary of `P` is a directory, which no `unlink` removes. -/
def tmpIsDirectory (disk : Disk) : Bool :=
  entryKind (child disk.root provisioningMarkerTmp) = .directory

/-- The program removes the root, unless the root is a mount point. -/
def ClearsRoot (disk : Disk) (p : FsProg Unit) : Prop :=
  (rootMounted disk = false → p.exec device disk = (.ok (), { disk with root := none })) ∧
    (rootMounted disk = true → ∃ e t, p.exec device disk = (.error e, t))

section Actions

variable {host : Host} {pfx : ManagedPrefix} {disk : Disk}

theorem rootMounted_dir {ino dev : Nat} {es : Entries} (found : disk.root = some (.dir ino dev es)) :
    rootMounted disk = decide (dev ≠ disk.parentDev) := by
  simp [rootMounted, found, isMount]

theorem ClearsRoot.of_if {p : FsProg Unit} {ino dev : Nat} {es : Entries} {e : String} {t : Disk}
    (found : disk.root = some (.dir ino dev es))
    (h : p.exec device disk =
      if dev = disk.parentDev then (.ok (), { disk with root := none }) else (.error e, t)) :
    ClearsRoot disk p := by
  rw [ClearsRoot, rootMounted_dir found, h]
  constructor
  · intro hd
    rw [if_pos (by simpa using hd)]
  · intro hd
    rw [if_neg (by simpa using hd)]
    exact ⟨e, t, rfl⟩

/-- A flush of the parent after it changes nothing. -/
theorem ClearsRoot.thenSyncParent {p : FsProg Unit} (h : ClearsRoot disk p) :
    ClearsRoot disk (do p; pfx.syncParent) := by
  refine ⟨fun hm => Prog.exec_bind_ok (h.1 hm), fun hm => ?_⟩
  obtain ⟨e, t, he⟩ := h.2 hm
  exact ⟨e, t, Prog.exec_bind_error he⟩

theorem exec_clearNonDataRoot {identity : Option V3Identity} {rootState : RootState}
    (seen : rootState = classifyRoot host pfx.location identity disk.root)
    (state : rootState.Vacant ∨ rootState = .pendingMarker) :
    ClearsRoot disk (pfx.clearNonDataRoot rootState) := by
  obtain ⟨hstate, none⟩ | ⟨reason, hstate⟩ | ⟨ino, dev, es, found, h⟩ := classifyRoot_cases seen.symm
  · subst hstate
    have here : { disk with root := Option.none } = disk := by rw [← none]
    refine ⟨fun _ => ?_, fun hm => ?_⟩
    · rw [here]
      rfl
    · rw [rootMounted, none] at hm
      cases hm
  · subst hstate
    rcases state with h | h <;> cases h
  cases rootState with
  | empty =>
    rw [classifyEntries_empty] at h
    subst h
    have here : disk.get .root = some (.dir ino dev []) := found
    exact (ClearsRoot.of_if found (exec_removeDir here)).thenSyncParent
  | pendingMarker =>
    have only := classifyEntries_pendingMarker.mp h
    obtain ⟨names, data, file, _⟩ := holdsOnlyPendingTmp_iff.mp only
    have emptied : Entries.erase es provisioningMarkerTmp = [] :=
      Entries.erase_eq_nil fun name hname => by
        rw [names] at hname
        exact List.mem_singleton.mp hname
    have first : (removeFileIfPresent .root provisioningMarkerTmp
        (pfx.io "retirar el marcador temporal")).exec device disk =
        (.ok (), disk.set .root (some (.dir ino dev []))) := by
      rw [← emptied]
      exact exec_removeFileIfPresent (.inl rfl) found (by rw [file]; simp [entryKind, Node.kind])
    have here : ∀ node, (disk.set .root node).get .root = node := Disk.get_set disk .root
    suffices (pfx.clearNonDataRoot .pendingMarker).exec device disk =
        if dev = disk.parentDev then (.ok (), { disk with root := none })
        else (.error (pfx.io "retirar el entorno incompleto" .ebusy),
          disk.set .root (some (.dir ino dev []))) from ClearsRoot.of_if found this
    unfold ManagedPrefix.clearNonDataRoot
    dsimp only
    have sameDev : (disk.set .root (some (.dir ino dev []))).parentDev = disk.parentDev := rfl
    have last : (Prog.perform (.removeDir .root) (pfx.io "retirar el entorno incompleto") :
        FsProg Unit).exec device (disk.set .root (some (.dir ino dev []))) = _ :=
      exec_removeDir (here _)
    rw [sameDev, Disk.set_set] at last
    rw [Prog.exec_bind_ok first]
    split at last
    next hd =>
      rw [if_pos hd, Prog.exec_bind_ok last]
      rfl
    next hd => rw [if_neg hd, Prog.exec_bind_error last]
  | absent => exact absurd h classifyEntries_ne_absent
  | provisioning | commitPending | committed | legacyValid | foreign =>
    rcases state with h | h <;> cases h

theorem exec_discardPartialRoot {identity : Option V3Identity}
    (seen : classifyRoot host pfx.location identity disk.root = .provisioning) :
    ClearsRoot disk pfx.discardPartialRoot := by
  obtain ⟨h, _⟩ | ⟨reason, h⟩ | ⟨ino, dev, es, found, h⟩ := classifyRoot_cases seen
  · cases h
  · cases h
  obtain ⟨_, marker, _⟩ := classifyEntries_provisioning.mp h
  obtain ⟨_, hP, _⟩ := transactionMarker_authority.mp marker
  exact (ClearsRoot.of_if found
    (exec_deleteTreeLast (.inl rfl) found (entryKind_eq_file.mpr hP))).thenSyncParent

theorem exec_restoreFrom {source : Slot} {node : Node} (vacant : disk.root = none)
    (found : disk.get source = some node) (mount : isMount disk node = false) :
    (pfx.restoreFrom source).exec device disk =
      (.ok (), (disk.set source none).set .root (some node)) := by
  refine Prog.exec_bind_ok (exec_call_ok ?_)
  simp [execOp, found, vacant, mount]

theorem payload_eq_erase (es : Entries) :
    ((es.erase provisioningMarker).erase commitPendingMarker).erase provisioningMarkerTmp =
      payload es := by
  simp only [Entries.erase, payload, List.filter_filter]
  apply List.filter_congr
  intro e _
  by_cases h1 : e.1 = provisioningMarker <;> by_cases h2 : e.1 = commitPendingMarker <;>
    by_cases h3 : e.1 = provisioningMarkerTmp <;> simp [rootEvidence, h1, h2, h3]

theorem exec_dropStaleMarkers {ino dev : Nat} {es : Entries}
    (found : disk.root = some (.dir ino dev es))
    (authority : entryKind (es.find provisioningMarker) ≠ .directory)
    (pending : entryKind (es.find commitPendingMarker) ≠ .directory) :
    (tmpIsDirectory disk = false → pfx.dropStaleMarkers.exec device disk =
        (.ok (), { disk with root := some (.dir ino dev (payload es)) })) ∧
      (tmpIsDirectory disk = true → ∃ e t, pfx.dropStaleMarkers.exec device disk = (.error e, t)) := by
  generalize hio : pfx.io "retirar el marcador de preparación" = io
  have first : (removeFileIfPresent .root provisioningMarker io).exec device disk =
      (.ok (), { disk with root := some (.dir ino dev (es.erase provisioningMarker)) }) :=
    exec_removeFileIfPresent (.inl rfl) found authority
  have second : (removeFileIfPresent .root commitPendingMarker io).exec device
      { disk with root := some (.dir ino dev (es.erase provisioningMarker)) } =
      (.ok (), { disk with
        root := some (.dir ino dev ((es.erase provisioningMarker).erase commitPendingMarker)) }) := by
    refine exec_removeFileIfPresent (.inl rfl) rfl ?_
    rwa [Entries.find_erase_of_ne (by decide)]
  have tmp : ((es.erase provisioningMarker).erase commitPendingMarker).find provisioningMarkerTmp =
      es.find provisioningMarkerTmp := by
    rw [Entries.find_erase_of_ne (by decide), Entries.find_erase_of_ne (by decide)]
  have kind : tmpIsDirectory disk =
      decide (entryKind (es.find provisioningMarkerTmp) = .directory) := by
    rw [tmpIsDirectory, found, child_dir]
  have three : ∀ r t, (removeFileIfPresent .root provisioningMarkerTmp io).exec device
      { disk with
        root := some (.dir ino dev ((es.erase provisioningMarker).erase commitPendingMarker)) } =
      (r, t) →
      (([provisioningMarker, commitPendingMarker, provisioningMarkerTmp].forM fun name =>
        removeFileIfPresent .root name io : FsProg Unit)).exec device disk = (r, t) := by
    intro r t third
    change (removeFileIfPresent .root provisioningMarker io >>= fun _ =>
      removeFileIfPresent .root commitPendingMarker io >>= fun _ =>
      removeFileIfPresent .root provisioningMarkerTmp io >>= fun _ => .ret ()).exec device disk = _
    rw [Prog.exec_bind_ok first, Prog.exec_bind_ok second]
    cases r with
    | ok u => rw [Prog.exec_bind_ok third]; rfl
    | error e => rw [Prog.exec_bind_error third]
  unfold ManagedPrefix.dropStaleMarkers
  rw [hio]
  constructor
  · intro notDir
    rw [kind, decide_eq_false_iff_not] at notDir
    have third := three _ _ (exec_removeFileIfPresent (.inl rfl) rfl (by rw [tmp]; exact notDir))
    rw [payload_eq_erase] at third
    rw [Prog.exec_bind_ok third]
    exact exec_syncDir rfl
  · intro isDir
    rw [kind, decide_eq_true_eq] at isDir
    exact ⟨_, _, Prog.exec_bind_error (three _ _
      (exec_removeFileIfPresent_directory rfl (by rw [tmp]; exact isDir)))⟩

theorem exec_invalidate {ino : Nat} {es : Entries} {identity : Option V3Identity}
    {structureOk : Bool} (found : disk.backup = some (.dir ino disk.parentDev es))
    (restorable : Restorable host pfx.location identity es structureOk) :
    ∃ tombstone left, pfx.invalidateRestorationAuthority.exec device disk =
        (.ok tombstone, { disk with backup := some (.dir ino disk.parentDev left) }) ∧
      entryKind (Entries.find left tombstone) = .file := by
  obtain ⟨unprotected, untombed, owned⟩ := restorable
  obtain ⟨noManifest, noLegacy⟩ := backupTombstone_none.mp untombed
  have run : ∀ source tombstone data,
      (if entryKind (es.find prefixMarker) = .file then (prefixMarker, backupRemovingManifest)
        else (legacyPrefixMarker, backupRemovingLegacy)) = (source, tombstone) →
      es.find source = some (.file data) → es.find tombstone = none →
      ∃ tombstone left, pfx.invalidateRestorationAuthority.exec device disk =
          (.ok tombstone, { disk with backup := some (.dir ino disk.parentDev left) }) ∧
        entryKind (Entries.find left tombstone) = .file := by
    intro source tombstone data pair hsource free
    refine ⟨tombstone, es.move source tombstone, ?_, ?_⟩
    · unfold ManagedPrefix.invalidateRestorationAuthority
      rw [Prog.exec_look, found]
      dsimp only
      rw [unprotected, if_neg Bool.false_ne_true, pair]
      have renamed : execOp (.renameIn .backup source tombstone false) disk =
          (.ok (), disk.set .backup (some (.dir ino disk.parentDev (es.move source tombstone)))) :=
        inside_ok found (by simp only [hsource, free, renameError])
      rw [Prog.exec_bind_ok (exec_call_ok renamed),
        Prog.exec_bind_ok (exec_syncDir (Disk.get_set _ _ _))]
      rfl
    · rw [Entries.find_move_destination hsource]
      rfl
  rcases owned with valid | ⟨noM, ⟨data, hd⟩, _⟩
  · obtain ⟨data, hd⟩ := validatedManifest_file valid
    exact run _ _ data (if_pos (entryKind_eq_file.mpr ⟨data, hd⟩)) hd noManifest
  · refine run _ _ data (if_neg ?_) hd noLegacy
    rw [noM]
    exact fun h => by cases h

theorem exec_removeBackup {identity : Option V3Identity} {state : BackupState}
    (seen : classifyBackup host disk.parentDev pfx.location identity disk.backup = state)
    (state' : state = .restorable ∨ state = .removing) :
    (pfx.removeBackup state).exec device disk = (.ok (), { disk with backup := none }) := by
  have delete : ∀ (ino : Nat) (left : Entries) (tombstone : String) (io : IoError → String),
      entryKind (left.find tombstone) = .file →
      (do deleteTreeLast .backup tombstone io; pfx.syncParent : FsProg Unit).exec device
        { disk with backup := some (.dir ino disk.parentDev left) } =
        (.ok (), { disk with backup := none }) := by
    intro ino left tombstone io file
    have deleted : (deleteTreeLast .backup tombstone io).exec device
        { disk with backup := some (.dir ino disk.parentDev left) } = _ :=
      exec_deleteTreeLast (.inr rfl) rfl file
    rw [if_pos rfl] at deleted
    exact Prog.exec_bind_ok deleted
  unfold ManagedPrefix.removeBackup
  rcases state' with rfl | rfl
  · obtain ⟨ino, es, found, restorable⟩ := classifyBackup_restorable.mp seen
    obtain ⟨tombstone, left, invalidated, file⟩ := exec_invalidate found restorable
    dsimp only
    rw [Prog.exec_bind_ok invalidated]
    exact delete ino left tombstone _ file
  · obtain ⟨ino, es, name, data, found, _, htomb, hname⟩ := classifyBackup_removing seen
    have here : { disk with backup := some (.dir ino disk.parentDev es) } = disk :=
      Disk.set_backup_self found
    dsimp only
    have named : ∀ io, (pfx.tombstoneOf io).exec device disk = (.ok name, disk) := by
      intro io
      unfold ManagedPrefix.tombstoneOf
      rw [Prog.exec_look, found]
      dsimp only
      rw [htomb]
      rfl
    rw [Prog.exec_bind_ok (named _)]
    have := delete ino es name (pfx.io "retirar el respaldo del entorno anterior")
      (entryKind_eq_file.mpr ⟨data, hname⟩)
    rw [here] at this
    exact this

end Actions

/-! ## The whole recovery -/

/-- What an action makes of the disk. -/
def actionResult (action : RecoveryAction) (disk : Disk) : Disk :=
  match action with
  | .none => disk
  | .restoreBackup | .discardPartialAndRestore => { disk with root := disk.backup, backup := none }
  | .discardPartial => { disk with root := none }
  | .completeCommit stale remove =>
    { disk with
      root := match stale, disk.root with
        | true, some (.dir ino dev es) => some (.dir ino dev (payload es))
        | _, root => root
      backup := if remove then none else disk.backup }
  | .restoreLegacyBackup name =>
    { disk with root := disk.siblings.find name, siblings := disk.siblings.erase name }

/-- The disk an undisturbed recovery ends with. -/
def Assessment.result (a : Assessment) (disk : Disk) : Disk := actionResult a.action (a.cleaned disk)

/-- The disk is in the way of the action: nobody could carry it out. -/
def RecoveryAction.obstructed (action : RecoveryAction) (disk : Disk) : Bool :=
  match action with
  | .restoreBackup | .discardPartialAndRestore | .discardPartial | .restoreLegacyBackup _ =>
    rootMounted disk
  | .completeCommit true _ => tmpIsDirectory disk
  | .none | .completeCommit false _ => false

section Whole

variable {host : Host} {pfx : ManagedPrefix} {disk : Disk}

/-- A program that ends with this disk, unless something is in the way. -/
def Carries (disk : Disk) (p : FsProg Unit) (obstructed : Bool) (result : Disk) : Prop :=
  (obstructed = false → p.exec device disk = (.ok (), result)) ∧
    (obstructed = true → ∃ e t, p.exec device disk = (.error e, t))

/-- The root gone, a backup is moved back. -/
theorem exec_thenRestore {p : FsProg Unit} {source : Slot} {node : Node}
    (clears : ClearsRoot disk p) (found : ({ disk with root := none } : Disk).get source = some node)
    (mount : isMount disk node = false) :
    Carries disk (do p; pfx.restoreFrom source) (rootMounted disk)
      ((({ disk with root := none } : Disk).set source none).set .root (some node)) := by
  refine ⟨fun hm => ?_, fun hm => ?_⟩
  · rw [Prog.exec_bind_ok (clears.1 hm)]
    exact exec_restoreFrom rfl found mount
  · obtain ⟨e, t, he⟩ := clears.2 hm
    exact ⟨e, t, Prog.exec_bind_error he⟩

theorem isMount_parentDev (ino : Nat) (es : Entries) :
    isMount disk (.dir ino disk.parentDev es) = false := by
  simp [isMount]

theorem exec_execute {a : Assessment} (judged : Judged host pfx disk a) :
    Carries disk (pfx.execute a.action a.rootState a.backupState) (a.action.obstructed disk)
      (actionResult a.action disk) := by
  obtain ⟨root, backup, absent, legacy, planned, old⟩ := judged
  have chosen := plan_action planned
  generalize a.action = action at planned chosen
  cases action with
  | none => exact ⟨fun _ => rfl, fun h => by cases h⟩
  | restoreBackup =>
    obtain ⟨ino, es, found, _⟩ := classifyBackup_restorable.mp
      ((backup (.inl chosen.1)).trans chosen.1)
    have restored : Carries disk (do _; pfx.restoreFrom _) _ _ := exec_thenRestore (exec_clearNonDataRoot root chosen.2)
      (show Disk.get { disk with root := none } .backup = _ from found) (isMount_parentDev ino es)
    rw [actionResult, found]
    exact restored
  | discardPartialAndRestore =>
    obtain ⟨ino, es, found, _⟩ := classifyBackup_restorable.mp
      ((backup (.inl chosen.1)).trans chosen.1)
    have restored : Carries disk (do _; pfx.restoreFrom _) _ _ := exec_thenRestore
      (exec_discardPartialRoot (root.symm.trans chosen.2))
      (show Disk.get { disk with root := none } .backup = _ from found) (isMount_parentDev ino es)
    rw [actionResult, found]
    exact restored
  | discardPartial =>
    unfold ManagedPrefix.execute
    dsimp only
    split
    next pending =>
      have cleared : ClearsRoot disk _ := exec_clearNonDataRoot root (.inr pending)
      exact cleared
    next other =>
      have cleared : ClearsRoot disk _ :=
        exec_discardPartialRoot (root.symm.trans (chosen.2.provisioning other))
      exact cleared
  | completeCommit stale remove =>
    obtain ⟨committed, removed, _⟩ := chosen
    obtain ⟨h, _⟩ | ⟨reason, h⟩ | ⟨ino, dev, es, found, h⟩ :=
      classifyRoot_cases (root.symm.trans committed)
    · cases h
    · cases h
    obtain ⟨_, marker, hm, _⟩ := classifyEntries_committed.mp h
    have removal : ∀ es', (Prog.onlyIf remove (pfx.removeBackup a.backupState) : FsProg Unit).exec
        device { disk with root := some (.dir ino dev es') } =
        (.ok (), { disk with
          root := some (.dir ino dev es')
          backup := if remove then none else disk.backup }) := by
      intro es'
      cases remove with
      | false => rfl
      | true => exact exec_removeBackup (backup (removed rfl)) (removed rfl)
    cases stale with
    | false =>
      refine ⟨fun _ => ?_, fun h => by cases h⟩
      have := removal es
      rw [show { disk with root := some (.dir ino dev es) } = disk from Disk.set_root_self found]
        at this
      refine Eq.trans (Prog.exec_bind_ok rfl) (this.trans ?_)
      simp only [actionResult, found]
    | true =>
      have kinds := transactionMarker_kinds hm
      have dropped : (tmpIsDirectory disk = false → pfx.dropStaleMarkers.exec device disk = _) ∧ _ :=
        exec_dropStaleMarkers found kinds.1 kinds.2
      refine ⟨fun clear => ?_, fun directory => ?_⟩
      · refine Eq.trans (Prog.exec_bind_ok (dropped.1 clear)) ((removal _).trans ?_)
        simp only [actionResult, found]
      · obtain ⟨e, t, he⟩ := dropped.2 directory
        exact ⟨e, t, Prog.exec_bind_error he⟩
  | restoreLegacyBackup name =>
    obtain ⟨_, vacant, only⟩ := chosen
    obtain ⟨ino, es, found, _⟩ := classifyBackup_restorable.mp
      (old name (by rw [only]; exact List.mem_singleton_self name))
    have restored : Carries disk (do _; pfx.restoreFrom _) _ _ := exec_thenRestore (exec_clearNonDataRoot root (.inl vacant))
      (show Disk.get { disk with root := none } (.sibling name) = _ from found)
      (isMount_parentDev ino es)
    rw [actionResult, found]
    exact restored

theorem obstructed_cleaned (a : Assessment) (action : RecoveryAction) :
    action.obstructed (a.cleaned disk) = action.obstructed disk := by
  unfold Assessment.cleaned
  split <;> rfl

/-- What a decision leads to, when nobody uses the prefix and something is to be done. -/
theorem exec_carryOut {a : Assessment} (ha : assess host pfx disk = .ok a)
    (busy : ¬ (a.action = .none ∧ a.removedEmptyBackup = false)) :
    (pfx.carryOut 0 a).exec device disk =
      (do pfx.execute a.action a.rootState a.backupState
          return a.outcome pfx : FsProg RecoveryOutcome).exec device (a.cleaned disk) := by
  have cleaning : (Prog.onlyIf a.removedEmptyBackup (do
      .perform (.removeDir .backup) (pfx.io "retirar el respaldo vacío")
      pfx.syncParent) : FsProg Unit).exec device disk = (.ok (), a.cleaned disk) := by
    unfold Assessment.cleaned
    cases hr : a.removedEmptyBackup with
    | false => rfl
    | true =>
      obtain ⟨ino, found⟩ := (assess_removedEmptyBackup ha).mp hr
      have removed : (Prog.perform (.removeDir .backup) (pfx.io "retirar el respaldo vacío") :
          FsProg Unit).exec device disk = _ := exec_removeDir found
      rw [if_pos rfl] at removed
      exact Prog.exec_bind_ok removed
  unfold ManagedPrefix.carryOut
  rw [if_neg (by simpa using busy)]
  change Prog.exec device (Prog.onlyIf a.removedEmptyBackup _ >>= fun _ => _) disk = _
  rw [Prog.exec_bind_ok cleaning]

/-- **The undisturbed recovery.** -/
theorem recover_exec (host : Host) (pfx : ManagedPrefix) (disk : Disk) (active : Nat) :
    match assess host pfx disk with
    | .error message => (recover host pfx active).exec device disk = (.error message, disk)
    | .ok a =>
      if a.action = .none ∧ a.removedEmptyBackup = false then
        (recover host pfx active).exec device disk = (.ok (a.outcome pfx), disk)
      else if active ≠ 0 then
        ∃ message, (recover host pfx active).exec device disk = (.error message, disk)
      else if a.action.obstructed disk then
        ∃ e t, (recover host pfx active).exec device disk = (.error e, t)
      else (recover host pfx active).exec device disk = (.ok (a.outcome pfx), a.result disk) := by
  have unfolded : (recover host pfx active).exec device disk =
      (do let a ← Prog.ofExcept (assess host pfx disk); pfx.carryOut active a :
        FsProg RecoveryOutcome).exec device disk := rfl
  rw [unfolded]
  cases ha : assess host pfx disk with
  | error message => rfl
  | ok a =>
    change if _ then (pfx.carryOut active a).exec device disk = _
      else if _ then ∃ message, (pfx.carryOut active a).exec device disk = _
      else if _ then ∃ e t, (pfx.carryOut active a).exec device disk = _
      else (pfx.carryOut active a).exec device disk = _
    split
    next idle =>
      unfold ManagedPrefix.carryOut
      rw [if_pos (by simpa using idle)]
      rfl
    next busy =>
      split
      next inUse =>
        unfold ManagedPrefix.carryOut ManagedPrefix.ensureQuiet
        rw [if_neg (by simpa using busy), if_neg inUse]
        exact ⟨_, rfl⟩
      next quiet =>
        have hactive : active = 0 := not_not.mp quiet
        subst hactive
        rw [exec_carryOut ha busy]
        obtain ⟨carried, blocked⟩ := exec_execute (assess_judged ha)
        rw [obstructed_cleaned] at carried blocked
        split
        next h =>
          obtain ⟨e, t, he⟩ := blocked h
          exact ⟨e, t, Prog.exec_bind_error he⟩
        next h => exact Prog.exec_bind_ok (carried (Bool.not_eq_true _ ▸ h))

/-- The result of an idle decision is the disk itself. -/
theorem Assessment.result_idle {a : Assessment} (none : a.action = .none)
    (kept : a.removedEmptyBackup = false) : a.result disk = disk := by
  rw [Assessment.result, Assessment.cleaned, none, if_neg (by simp [kept])]
  rfl

theorem recover_refused {message : String} (h : assess host pfx disk = .error message)
    (active : Nat) : (recover host pfx active).exec device disk = (.error message, disk) := by
  have whole := recover_exec host pfx disk active
  rw [h] at whole
  exact whole

/-- **When recovery succeeds**: it decided, and either there is nothing to do, or nobody uses the
prefix and nothing is in the way. -/
theorem recover_ok_iff {active : Nat} {outcome : RecoveryOutcome} {t : Disk} :
    (recover host pfx active).exec device disk = (.ok outcome, t) ↔
      ∃ a, assess host pfx disk = .ok a ∧
        (a.action = .none ∧ a.removedEmptyBackup = false ∨
          active = 0 ∧ a.action.obstructed disk = false) ∧
        outcome = a.outcome pfx ∧ t = a.result disk := by
  have whole := recover_exec host pfx disk active
  cases ha : assess host pfx disk with
  | error message =>
    rw [recover_refused ha]
    simp
  | ok a =>
    rw [ha] at whole
    simp only [Except.ok.injEq, exists_eq_left']
    dsimp only at whole
    split at whole
    next idle =>
      rw [whole, a.result_idle idle.1 idle.2, Prod.mk.injEq, Except.ok.injEq]
      exact ⟨fun h => ⟨.inl idle, h.1.symm, h.2.symm⟩, fun h => ⟨h.2.1.symm, h.2.2.symm⟩⟩
    next busy =>
      split at whole
      next inUse =>
        obtain ⟨message, h⟩ := whole
        rw [h]
        simp [inUse, busy]
      next quiet =>
        split at whole
        next blocked =>
          obtain ⟨e, t', h⟩ := whole
          rw [h]
          simp [blocked, busy]
        next clear =>
          rw [whole, Prod.mk.injEq, Except.ok.injEq]
          exact ⟨fun h => ⟨.inr ⟨not_not.mp quiet, Bool.not_eq_true _ ▸ clear⟩, h.1.symm, h.2.symm⟩,
            fun h => ⟨h.2.1.symm, h.2.2.symm⟩⟩

end Whole

end RoLauncher.Prefix
