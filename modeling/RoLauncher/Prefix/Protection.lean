import RoLauncher.Crash.Keeps
import RoLauncher.Installations.Repository
import RoLauncher.Prefix.Setup
import RoLauncher.Prefix.Claims
import RoLauncher.Prefix.Safety

/-!
# A protected root

A root with an installation receipt holds a game that was installed into it.
`Protected` fixes such a root by its identity, and `Spared` is what a step may
still do to it: the launcher touches its own files, the engine everything
else, and the receipts go on naming the installation they name.

No class that recovery deletes or moves is the class of a protected root, so
what is left of the table is a committed root whose leftovers are cleaned up,
or nothing. A backup with a receipt is foreign whatever else it carries.
-/

namespace RoLauncher.Prefix

open RoLauncher.Files RoLauncher.Crash
open RoLauncher.Installations (InstallationBinding)

/-! ## Receipts -/

/-- `serde_json`, for the receipt: what it writes it reads back. -/
structure ReceiptSerde where
  decode : String → Except String InstallationBinding
  render : InstallationBinding → String
  decode_render : ∀ binding, decode (render binding) = .ok binding

/-- A file that reads as this binding. -/
def ReadsAs (receipt : ReceiptSerde) (binding : InstallationBinding) (node : Node) : Prop :=
  ∃ data text, node = .file data ∧ data.text? = some text ∧ receipt.decode text = .ok binding

/-- Every receipt in the directory names this binding, and there is one. -/
structure Named (receipt : ReceiptSerde) (binding : InstallationBinding) (es : Entries) : Prop where
  marker : ∀ node, es.find installationMarker = some node → ReadsAs receipt binding node
  backup : ∀ node, es.find (backupName installationMarker) = some node →
    ReadsAs receipt binding node
  present : isProtected es = true

/-- How the temporaries begin that the launcher writes beside its records: of a manifest, and of a
receipt. -/
def temporaryStarts : List String :=
  [".ro-launcher-prefix.tmp-", "..ro-launcher-installation.json.tmp-"]

/-- Files that only the launcher writes: its records and their temporaries. -/
def isOwnName (name : String) : Bool :=
  isLauncherName name || temporaryStarts.any fun start => start.toList.isPrefixOf name.toList

/-- Files that its own calls may change under a receipt. -/
def isTouchable (name : String) : Bool :=
  isOwnName name && name ≠ installationMarker && name ≠ backupName installationMarker

theorem isLauncherName_installationMarker : isLauncherName installationMarker = true :=
  isLauncherName_of_record (by simp [launcherRecords])

theorem isLauncherName_receiptBackup : isLauncherName (backupName installationMarker) = true :=
  isLauncherName_of_record (by simp [launcherRecords])

theorem isTouchable_installationMarker : isTouchable installationMarker = false := by
  simp [isTouchable]

theorem isTouchable_receiptBackup : isTouchable (backupName installationMarker) = false := by
  simp [isTouchable]

/-- A record that is no receipt. -/
theorem isTouchable_of_record {name : String} (record : name ∈ launcherRecords)
    (marker : name ≠ installationMarker) (backup : name ≠ backupName installationMarker) :
    isTouchable name = true := by
  simp [isTouchable, isOwnName, isLauncherName_of_record record, marker, backup]

/-- A temporary is no receipt: no receipt begins as one. -/
theorem isTouchable_of_temporary {start name : String} (temporary : start ∈ temporaryStarts)
    (begins : start.toList <+: name.toList) : isTouchable name = true := by
  have starts := List.isPrefixOf_iff_prefix.mpr begins
  have own : isOwnName name = true := by
    rw [isOwnName, Bool.or_eq_true, List.any_eq_true]
    exact .inr ⟨start, temporary, starts⟩
  have marker : start.toList.isPrefixOf installationMarker.toList = false := by
    obtain rfl | rfl := by simpa [temporaryStarts] using temporary
    · exact isPrefixOf_ofList _ _
    · exact isPrefixOf_ofList _ _
  have backup : start.toList.isPrefixOf (backupName installationMarker).toList = false := by
    rw [backupName, installationMarker, String.toList_append, String.toList_ofList,
      String.toList_ofList]
    obtain rfl | rfl := by simpa [temporaryStarts] using temporary
    · rw [String.toList_ofList]
      rfl
    · rw [String.toList_ofList]
      rfl
  have other : name ≠ installationMarker ∧ name ≠ backupName installationMarker := by
    constructor
    · rintro rfl
      rw [marker] at starts
      cases starts
    · rintro rfl
      rw [backup] at starts
      cases starts
  simp [isTouchable, own, other]

theorem isTouchable_provisioningMarker : isTouchable provisioningMarker = true :=
  isTouchable_of_record (by simp [launcherRecords]) (by decide) (by decide)

theorem isTouchable_provisioningMarkerTmp : isTouchable provisioningMarkerTmp = true :=
  isTouchable_of_record (by simp [launcherRecords]) (by decide) (by decide)

theorem isTouchable_prefixMarker : isTouchable prefixMarker = true :=
  isTouchable_of_record (by simp [launcherRecords]) (by decide) (by decide)

theorem isTouchable_commitPendingMarker : isTouchable commitPendingMarker = true :=
  isTouchable_of_record (by simp [launcherRecords]) (by decide) (by decide)

/-- Everything that is not the launcher's own is as it was. -/
def GameKept (es es' : Entries) : Prop :=
  ∀ name, isOwnName name = false → es'.find name = es.find name

/-- What may happen to the entries of a protected root. -/
structure EntriesSpared (receipt : ReceiptSerde) (es es' : Entries) : Prop where
  present : isProtected es' = true
  named : ∀ binding, Named receipt binding es → Named receipt binding es'
  /-- A call of the launcher, or the engine's work. -/
  contents : GameKept es es' ∨ SameRecords es' es

/-- The root is this directory, and it holds a receipt. -/
def Protected (ino : Nat) (disk : Disk) : Prop :=
  ∃ dev es, disk.root = some (.dir ino dev es) ∧ isProtected es = true

/-- What may happen to a protected root. -/
def Spared (receipt : ReceiptSerde) (disk disk' : Disk) : Prop :=
  ∃ ino dev es es', disk.root = some (.dir ino dev es) ∧ disk'.root = some (.dir ino dev es') ∧
    EntriesSpared receipt es es'

section Receipts

variable {receipt : ReceiptSerde} {es es' : Entries} {ino dev : Nat} {disk disk' : Disk}

theorem isProtected_iff :
    isProtected es = true ↔
      es.find installationMarker ≠ none ∨ es.find (backupName installationMarker) ≠ none := by
  rw [isProtected, Bool.or_eq_true, Option.isSome_iff_ne_none, Option.isSome_iff_ne_none]

theorem ne_nil_of_protected (h : isProtected es = true) : es.names ≠ [] := by
  intro none
  rw [Entries.names_eq_nil.mp none] at h
  cases h

/-- Receipts that are left alone protect and name as before. -/
theorem EntriesSpared.of_same (present : isProtected es = true)
    (marker : es'.find installationMarker = es.find installationMarker)
    (backup : es'.find (backupName installationMarker) = es.find (backupName installationMarker))
    (contents : GameKept es es' ∨ SameRecords es' es) : EntriesSpared receipt es es' := by
  have kept : isProtected es' = true := by
    unfold isProtected at present ⊢
    rw [marker, backup]
    exact present
  refine ⟨kept, fun binding named => ⟨?_, ?_, kept⟩, contents⟩
  · rw [marker]
    exact named.marker
  · rw [backup]
    exact named.backup

theorem EntriesSpared.refl (present : isProtected es = true) : EntriesSpared receipt es es :=
  .of_same present rfl rfl (.inl fun _ _ => rfl)

/-- The engine leaves receipts alone. -/
theorem EntriesSpared.provisioned (present : isProtected es = true) (same : SameRecords es' es) :
    EntriesSpared receipt es es' :=
  .of_same present (same _ isLauncherName_installationMarker) (same _ isLauncherName_receiptBackup)
    (.inr same)

theorem Spared.protected (h : Spared receipt disk disk') (here : Protected ino disk) :
    Protected ino disk' := by
  obtain ⟨ino', dev, es, es', found, found', spared⟩ := h
  obtain ⟨dev', es'', found'', _⟩ := here
  rw [found] at found''
  cases found''
  exact ⟨dev, es', found', spared.present⟩

theorem Spared.of_root (here : Protected ino disk) (same : disk'.root = disk.root) :
    Spared receipt disk disk' := by
  obtain ⟨dev, es, found, present⟩ := here
  exact ⟨ino, dev, es, es, found, same.trans found, .refl present⟩

/-- A call of the launcher that changes touchable files only. -/
theorem EntriesSpared.own (present : isProtected es = true)
    (same : ∀ name, isTouchable name = false → es'.find name = es.find name) :
    EntriesSpared receipt es es' := by
  refine .of_same present (same _ isTouchable_installationMarker) (same _ isTouchable_receiptBackup)
    (.inl fun name own => same name ?_)
  rw [isTouchable, own]
  rfl

/-- A marker of a transaction is the launcher's own, and no receipt. -/
theorem EntriesSpared.erased {name : String} (present : isProtected es = true)
    (evidence : name ∈ rootEvidence) : EntriesSpared receipt es (es.erase name) := by
  refine .own present fun kept out => Entries.find_erase_of_ne ?_
  rintro rfl
  have touchable : ∀ kept ∈ rootEvidence, isTouchable kept = true := by
    unfold rootEvidence
    simp only [List.forall_mem_cons, List.not_mem_nil, false_implies, implies_true, and_true]
    exact ⟨isTouchable_provisioningMarker, isTouchable_provisioningMarkerTmp,
      isTouchable_commitPendingMarker⟩
  rw [touchable kept evidence] at out
  cases out

end Receipts

/-! ## Recovery -/

section Recovery

variable {host : Host} {location : PrefixLocation} {identity : Option V3Identity}
  {receipt : ReceiptSerde} {pfx : ManagedPrefix} {disk : Disk} {ino : Nat}

/-- Neither deletion nor restoration has a claim on a protected root. -/
theorem class_of_protected {es : Entries} {structureOk : Bool} (present : isProtected es = true) :
    ¬ (classifyEntries host location identity es structureOk).Vacant ∧
      ¬ (classifyEntries host location identity es structureOk).Partial := by
  have nonempty := ne_nil_of_protected present
  cases hs : classifyEntries host location identity es structureOk with
  | absent => exact absurd hs classifyEntries_ne_absent
  | empty => exact absurd (Entries.names_eq_nil.mpr (classifyEntries_empty.mp hs)) nonempty
  | pendingMarker =>
    have only := classifyEntries_pendingMarker.mp hs
    rcases isProtected_iff.mp present with marker | backup
    · exact absurd (find_of_holdsOnlyPendingTmp only (by decide)) marker
    · exact absurd (find_of_holdsOnlyPendingTmp only (by decide)) backup
  | provisioning =>
    obtain ⟨_, _, _, free, _⟩ := classifyEntries_provisioning.mp hs
    rw [free] at present
    cases present
  | _ => exact ⟨fun vacant => vacant, fun unfinished => unfinished⟩

theorem rootClass_of_protected (host : Host) (pfx : ManagedPrefix) (here : Protected ino disk) :
    ¬ (pfx.rootClass host disk).Vacant ∧ ¬ (pfx.rootClass host disk).Partial := by
  obtain ⟨dev, es, found, present⟩ := here
  unfold ManagedPrefix.rootClass
  rw [found, classifyRoot_dir]
  exact class_of_protected present

/-- **What is left of the table.** -/
theorem action_of_protected (here : Protected ino disk) {a : Assessment}
    (ha : assess host pfx disk = .ok a) :
    a.action = .none ∨ ∃ stale remove, a.action = .completeCommit stale remove ∧
      pfx.rootClass host disk = .committed stale := by
  obtain ⟨root, _, _, _, planned, _⟩ := assess_ok ha
  obtain ⟨full, whole⟩ := rootClass_of_protected host pfx here
  change a.rootState = pfx.rootClass host disk at root
  rw [root] at planned
  generalize a.action = action at planned ⊢
  cases action with
  | none => exact .inl rfl
  | completeCommit stale remove => exact .inr ⟨stale, remove, rfl, (plan_action planned).1⟩
  | restoreBackup =>
    obtain ⟨_, vacant | pending⟩ := plan_action planned
    · exact absurd vacant full
    · exact absurd (by rw [pending]; trivial) whole
  | discardPartialAndRestore =>
    exact absurd (by rw [(plan_action planned).2]; trivial) whole
  | discardPartial => exact absurd (plan_action planned).2 whole
  | restoreLegacyBackup name => exact absurd (plan_action planned).2.1 full

/-- Around a protected root that is a prefix, every recovery move spares it. -/
theorem recoverMove_spares {t : Disk} (move : RecoverMove host location disk t)
    (here : ∃ dev es, disk.root = some (.dir ino dev es) ∧ isProtected es = true ∧ Owned es) :
    Spared receipt disk t ∧
      ∃ dev es, t.root = some (.dir ino dev es) ∧ isProtected es = true ∧ Owned es := by
  obtain ⟨dev, es, found, present, owned⟩ := here
  have kept (same : t.root = disk.root) : Spared receipt disk t ∧
      ∃ dev es, t.root = some (.dir ino dev es) ∧ isProtected es = true ∧ Owned es :=
    ⟨.of_root ⟨dev, es, found, present⟩ same, dev, es, same.trans found, present, owned⟩
  cases move with
  | stay | dropEmptyBackup | invalidate | deleteBackup => exact kept rfl
  | dropEmptyRoot empty =>
    rw [found] at empty
    cases empty
    cases present
  | discard root unclaimed =>
    rw [found] at root
    cases root
    exact absurd unclaimed owned.not_unclaimed
  | restoreBackup root | restoreLegacy root =>
    rw [found] at root
    cases root
  | @dropStale _ _ es' name root _ evidence =>
    rw [found] at root
    cases root
    have spared : EntriesSpared receipt es (Entries.erase es name) := .erased present evidence
    exact ⟨⟨ino, dev, es, _, found, rfl, spared⟩, dev, _, rfl, spared.present,
      owned.of_payload (payload_erase evidence)⟩

/-- Where every decision is to do nothing, an empty backup may still go. -/
theorem recover_idle_meets (active : Nat)
    (idle : ∀ a, assess host pfx disk = .ok a → a.action = .none) :
    (recover host pfx active).Meets device EmptyBackupGone (fun _ _ => True) disk := by
  refine Prog.meets_look (Prog.Meets.bind (Prog.meets_ofExcept ?_))
  cases ha : assess host pfx disk with
  | error e => trivial
  | ok a => exact carryOut_idle_meets ha (idle a ha) active

/-- **Recovery spares a protected root**, however its calls are disturbed. -/
theorem recover_spares (active : Nat) (here : Protected ino disk) :
    (recover host pfx active).Meets device (fun s t => Spared receipt s t ∧ Protected ino t)
      (fun _ t => Protected ino t) disk := by
  by_cases owned : ∃ dev es, disk.root = some (.dir ino dev es) ∧ isProtected es = true ∧ Owned es
  · have step : ∀ s t, (∃ dev es, s.root = some (.dir ino dev es) ∧ isProtected es = true ∧ Owned es) →
        RecoverMove host pfx.location s t → (Spared receipt s t ∧ Protected ino t) ∧
          ∃ dev es, t.root = some (.dir ino dev es) ∧ isProtected es = true ∧ Owned es := by
      intro s t here move
      obtain ⟨spared, dev, es, found, present, owned⟩ := recoverMove_spares move here
      exact ⟨⟨spared, dev, es, found, present⟩, dev, es, found, present, owned⟩
    refine ((recover_meets host pfx active disk).within step owned).post ?_
    rintro r t ⟨_, dev, es, found, present, _⟩
    exact ⟨dev, es, found, present⟩
  · have idle : ∀ a, assess host pfx disk = .ok a → a.action = .none := fun a ha => by
      obtain none | ⟨stale, remove, _, committed⟩ := action_of_protected here ha
      · exact none
      · obtain ⟨dev, es, found, present⟩ := here
        unfold ManagedPrefix.rootClass at committed
        rw [found, classifyRoot_dir] at committed
        have commit : HoldsCommit host pfx.location es :=
          validatedManifest_own (classifyEntries_committed.mp committed).1
        exact absurd ⟨dev, es, found, present, commit.owned⟩ owned
    refine ((recover_idle_meets active idle).within (fun s t here gone => ?_) here).post
      fun r t after => after.2
    have same : t.root = s.root := by
      rcases gone with rfl | ⟨_, _, rfl⟩ <;> rfl
    have spared : Spared receipt s t := .of_root here same
    exact ⟨⟨spared, spared.protected here⟩, spared.protected here⟩

end Recovery

/-! ## Calls and programs that spare it -/

/-- Calls that spare a protected root wherever they are made. -/
def FsOp.harmless : FsOp → Prop
  | .createParent | .syncParent | .syncDir _ | .syncFilesystem _ => True
  | .createDirAll slot | .createDir slot => slot = .root
  | .removeFile slot name | .createNew slot name | .write slot name _ =>
    slot = .root ∧ isTouchable name = true
  | .renameIn slot source destination _ =>
    slot = .root ∧ isTouchable source = true ∧ isTouchable destination = true
  | .provision work => ∀ es, SameRecords (work es).2 es
  | .removeDir _ | .rename _ _ | .removeDirAll _ _ => False

section Calls

variable {receipt : ReceiptSerde} {disk t : Disk} {ino : Nat} {o : FsOp}

theorem Spared.refl (here : Protected ino disk) : Spared receipt disk disk := .of_root here rfl

theorem Spared.set_root {dev : Nat} {es es' : Entries} (found : disk.root = some (.dir ino dev es))
    (spared : EntriesSpared receipt es es') :
    Spared receipt disk (disk.set .root (some (.dir ino dev es'))) :=
  ⟨ino, dev, es, es', found, rfl, spared⟩

theorem inside_spared {f : Entries → Except IoError Entries} (here : Protected ino disk)
    (spares : ∀ (dev : Nat) (es es' : Entries), disk.root = some (.dir ino dev es) → isProtected es = true →
      f es = .ok es' → EntriesSpared receipt es es') :
    Spared receipt disk (inside disk .root f).2 := by
  obtain ⟨dev, es, found, present⟩ := here
  have held : disk.get .root = some (.dir ino dev es) := found
  cases hf : f es with
  | error e =>
    rw [inside_error held hf]
    exact .refl ⟨dev, es, found, present⟩
  | ok es' =>
    rw [inside_ok held hf]
    exact .set_root found (spares dev es es' found present hf)

theorem find_put_touchable {es : Entries} {name kept : String} {node : Node}
    (touchable : isTouchable name = true) (out : isTouchable kept = false) :
    (es.put name node).find kept = es.find kept :=
  Entries.find_put_of_ne fun same => by rw [same, touchable] at out; cases out

theorem find_erase_touchable {es : Entries} {name kept : String}
    (touchable : isTouchable name = true) (out : isTouchable kept = false) :
    (es.erase name).find kept = es.find kept :=
  Entries.find_erase_of_ne fun same => by rw [same, touchable] at out; cases out

theorem find_move_touchable {es : Entries} {source destination kept : String}
    (touchable : isTouchable source = true) (touchable' : isTouchable destination = true)
    (out : isTouchable kept = false) : (es.move source destination).find kept = es.find kept :=
  Entries.find_move_of_ne (fun same => by rw [same, touchable] at out; cases out)
    fun same => by rw [same, touchable'] at out; cases out

/-- **A harmless call**, undisturbed. -/
theorem execOp_spares (harmless : o.harmless) (here : Protected ino disk) :
    Spared receipt disk (execOp o disk).2 := by
  have stay : Spared receipt disk disk := .refl here
  cases o with
  | createParent | syncParent => exact stay
  | syncDir slot =>
    rw [syncDir_idle]
    exact stay
  | syncFilesystem slot =>
    rw [syncFilesystem_idle]
    exact stay
  | createDir slot | createDirAll slot =>
    obtain ⟨dev, es, found, _⟩ := here
    have root : slot = .root := harmless
    subst root
    simp only [execOp, Disk.get_root, found]
    exact stay
  | removeFile slot name =>
    obtain ⟨rfl, touchable⟩ := harmless
    refine inside_spared here fun _ es es' _ present done => ?_
    have erased : es' = es.erase name := by
      split at done <;> cases done
      rfl
    rw [erased]
    exact .own present fun kept out => find_erase_touchable touchable out
  | createNew slot name | write slot name =>
    obtain ⟨rfl, touchable⟩ := harmless
    refine inside_spared here fun _ es es' _ present done => ?_
    split at done <;> cases done
    exact .own present fun kept out => find_put_touchable touchable out
  | renameIn slot source destination replace =>
    obtain ⟨rfl, touchable, touchable'⟩ := harmless
    refine inside_spared here fun _ es es' _ present done => ?_
    split at done <;> cases done
    exact .own present fun kept out => find_move_touchable touchable touchable' out
  | provision work =>
    obtain ⟨dev, es, found, present⟩ := here
    simp only [execOp, found]
    exact ⟨ino, dev, es, _, found, rfl, .provisioned present (harmless es)⟩
  | removeDir | rename | removeDirAll => exact harmless.elim

/-- **A harmless call**, cut short. -/
theorem tornOp_spares (harmless : o.harmless) (here : Protected ino disk)
    (torn : tornOp o disk t) : Spared receipt disk t := by
  rcases torn with rfl | ⟨ino', dev', es, es', held, left, rfl⟩
  · exact .refl here
  cases o with
  | write slot name data =>
    obtain ⟨rfl, touchable⟩ := harmless
    obtain ⟨dev, es₀, found, present⟩ := here
    have root : disk.root = some (.dir ino' dev' es) := held
    rw [found] at root
    cases root
    obtain ⟨_, blob, _, _, rfl⟩ := left
    exact .set_root found (.own present fun kept out => find_put_touchable touchable out)
  | provision work =>
    obtain ⟨dev, es₀, found, present⟩ := here
    have root : disk.root = some (.dir ino' dev' es) := held
    rw [found] at root
    cases root
    exact .set_root found (.provisioned present left)
  | removeDirAll => exact harmless.elim
  | _ => exact left.elim

end Calls

/-- Whatever the disk, the program spares a protected root. -/
abbrev Spares {Err α : Type} (receipt : ReceiptSerde) (ino : Nat)
    (p : Prog FsOp Disk IoError Err α) : Prop :=
  p.Keeps device (Spared receipt) (Protected ino)

namespace FsOp.harmless

variable {receipt : ReceiptSerde} {ino : Nat} {Err α : Type} {o : FsOp}

theorem moved (harmless : o.harmless) (disk : Disk) (here : Protected ino disk) :
    Spared receipt disk (device.exec o disk).2 ∧ Protected ino (device.exec o disk).2 := by
  have spared : Spared receipt disk (device.exec o disk).2 := execOp_spares harmless here
  exact ⟨spared, spared.protected here⟩

theorem torn (harmless : o.harmless) (disk t : Disk) (here : Protected ino disk)
    (left : device.torn o disk t) : Spared receipt disk t ∧ Protected ino t := by
  have spared : Spared receipt disk t := tornOp_spares harmless here left
  exact ⟨spared, spared.protected here⟩

/-- A harmless call, whatever follows its result. -/
theorem act {k : Except IoError Unit → Prog FsOp Disk IoError Err α} (harmless : o.harmless)
    (rest : ∀ r, Spares receipt ino (k r)) : Spares receipt ino (.act o k) :=
  .act harmless.moved harmless.torn rest

theorem perform {onError : IoError → Err} (harmless : o.harmless) :
    Spares receipt ino (.perform o onError : Prog FsOp Disk IoError Err Unit) :=
  .perform harmless.moved harmless.torn

theorem performIgnoring (harmless : o.harmless) :
    Spares receipt ino (.performIgnoring o : Prog FsOp Disk IoError Err Unit) :=
  .performIgnoring harmless.moved harmless.torn

end FsOp.harmless

/-! ## Transactions -/

section Transactions

variable {host : Host} {pfx : ManagedPrefix} {receipt : ReceiptSerde} {ino : Nat}
  {process : Process} {work : Work}

theorem recover_sparesRoot (active : Nat) : Spares receipt ino (recover host pfx active) :=
  fun _ here => recover_spares active here

theorem syncParent_spares : Spares receipt ino pfx.syncParent := FsOp.harmless.perform trivial

/-- A protected root has data: no clean preparation begins over it. -/
theorem openRoot_spares : Spares receipt ino (pfx.openRoot host) := by
  refine .look fun disk here => ?_
  have full := (rootClass_of_protected host pfx here).1
  split
  next absent => exact absurd (by rw [absent]; trivial) full
  next => exact .ret ()
  next => exact .fail _

/-- Nor is it moved out of the way of a reset. -/
theorem preserveForReset_spares : Spares receipt ino (pfx.preserveForReset host) := by
  refine .look fun disk here => ?_
  have full := (rootClass_of_protected host pfx here).1
  have receipted : isProtectedAt disk.root = true := by
    obtain ⟨dev, es, found, present⟩ := here
    rw [found]
    exact present
  split
  next => exact .ret false
  next empty => exact absurd (by rw [empty]; trivial) full
  all_goals
    first
    | exact .fail _
    | (rw [receipted]
       split
       · exact .fail _
       · exact .fail _)

theorem writeRecord_spares (data : Blob) : Spares receipt ino (pfx.writeRecord data) := by
  have temporary := isTouchable_provisioningMarkerTmp
  refine .bind (FsOp.harmless.perform ⟨rfl, temporary⟩) fun _ =>
    .bind (FsOp.harmless.perform ⟨rfl, temporary⟩) fun _ => ?_
  exact .bind (FsOp.harmless.perform ⟨rfl, temporary, isTouchable_provisioningMarker⟩) fun _ =>
    FsOp.harmless.perform trivial

theorem beginProvisioning_spares (fingerprint : String) :
    Spares receipt ino (pfx.beginProvisioning host process fingerprint) := by
  refine .bind (.ofExcept _) fun recorded => .bind (FsOp.harmless.perform trivial) fun _ => ?_
  exact .bind openRoot_spares fun _ => .bind syncParent_spares fun _ => writeRecord_spares _

theorem isTouchable_temporary (process : Process) (nanos : Nat) :
    isTouchable (manifestTemporary process nanos) = true :=
  isTouchable_of_temporary (.head _) (manifestTemporary_start process nanos)

theorem commitPrefixManifest_spares (json : String) :
    Spares receipt ino (commitPrefixManifest process json) := by
  refine .bind (FsOp.harmless.perform rfl) fun _ => .look fun disk _ => ?_
  split
  · exact .fail _
  split
  · exact .fail _
  split
  · exact .fail _
  next nanos _ =>
    have temporary := isTouchable_temporary process nanos
    have abandoned (error : IoError) :
        Spares receipt ino (abandonTemporary (manifestTemporary process nanos) error) :=
      .bind (FsOp.harmless.performIgnoring ⟨rfl, temporary⟩) fun _ => .fail _
    refine .bind (FsOp.harmless.perform ⟨rfl, temporary⟩) fun _ => FsOp.harmless.act ⟨rfl, temporary⟩ fun r => ?_
    cases r with
    | error error => exact abandoned error
    | ok _ =>
      refine FsOp.harmless.act ⟨rfl, temporary, isTouchable_prefixMarker⟩ fun r => ?_
      cases r with
      | error error => exact abandoned error
      | ok _ => exact FsOp.harmless.perform trivial

theorem commit_spares : Spares receipt ino (work.commit process) := by
  unfold Work.commit
  split
  · exact .fail _
  · exact commitPrefixManifest_spares _

theorem provisionAndCommit_spares : Spares receipt ino (provisionAndCommit pfx process work) := by
  refine .bind (FsOp.harmless.perform work.recordsKept) fun _ => .bind (.ofExcept _) fun _ => ?_
  refine .bind (.mapError (FsOp.harmless.perform trivial)) fun _ => .bind (.mapError ?_) fun _ => ?_
  · exact .bind (FsOp.harmless.perform ⟨rfl, isTouchable_provisioningMarker,
      isTouchable_commitPendingMarker⟩) fun _ => FsOp.harmless.perform trivial
  · exact .mapError commit_spares

theorem forward_spares (fingerprint : String) :
    Spares receipt ino (forward host pfx process fingerprint work) :=
  .bind (.mapError (beginProvisioning_spares fingerprint)) fun _ => provisionAndCommit_spares

theorem reconcile_spares {α : Type} (primary : String) :
    Spares receipt ino (reconcile host pfx process primary : FsProg α) := by
  refine .bind (.attempt (recover_sparesRoot _)) fun r => ?_
  cases r with
  | error e => exact .fail _
  | ok outcome =>
    dsimp only
    split
    · exact .fail _
    · exact .fail _

theorem rollback_spares {α : Type} (authority : Authority) (primary : String) :
    Spares receipt ino (rollback host pfx process work authority primary : FsProg α) := by
  unfold rollback
  dsimp only
  split
  · exact .fail _
  split
  · refine .bind (.attempt (.look fun disk _ => ?_)) fun r => ?_
    · split
      · exact .ret ()
      · exact .bind (FsOp.harmless.perform ⟨rfl, isTouchable_commitPendingMarker,
          isTouchable_provisioningMarker⟩) fun _ => FsOp.harmless.perform trivial
    · cases r with
      | ok _ => exact reconcile_spares _
      | error e => exact .fail _
  · exact reconcile_spares _

theorem transact_spares (fingerprint : String) :
    Spares receipt ino (transact host pfx process fingerprint work) := by
  refine .bind (.attempt (forward_spares fingerprint)) fun r => ?_
  cases r with
  | ok _ => exact .attempt (recover_sparesRoot _)
  | error failure => exact rollback_spares _ _

/-- **A transaction spares a protected root**: it is neither moved away nor opened. -/
theorem runManagedTransaction_spares (fingerprint : String) (kind : TransactionKind) :
    Spares receipt ino (runManagedTransaction host pfx process fingerprint work kind) := by
  cases kind with
  | initialSetup => exact transact_spares fingerprint
  | reset =>
    refine .bind (.attempt preserveForReset_spares) fun r => ?_
    cases r with
    | ok _ => exact transact_spares fingerprint
    | error primary =>
      refine .look fun disk _ => ?_
      split
      · exact reconcile_spares _
      · exact .fail _

end Transactions

/-! ## Setup, reset and recovery -/

section Operations

variable {setup : SetupHost} {ctx : WineContext} {receipt : ReceiptSerde} {ino : Nat}
  {process : Process} {work : Work}

theorem repairInPlace_spares : Spares receipt ino (repairInPlace process work) := by
  refine .bind (.attempt (.bind (FsOp.harmless.perform work.recordsKept) fun _ => ?_)) fun r => ?_
  · exact .bind (.ofExcept _) fun _ => .mapError commit_spares
  · cases r with
    | ok _ => exact .ret ()
    | error primary =>
      dsimp only
      split
      · exact .fail _
      · exact .fail _

theorem recoverWithGuardHeld_spares (host : Host) (around : Surroundings) (paths : ManagedPaths)
    (location : PrefixLocation) (desired : Option String) (active : Nat) :
    Spares receipt ino (recoverWithGuardHeld host around paths location desired active) := by
  unfold recoverWithGuardHeld
  split
  · exact .ret _
  · exact .look fun disk _ => .bind (.ofExcept _) fun pfx => recover_sparesRoot active

theorem recoverResidueWithGuardHeld_spares (host : Host) (around : Surroundings)
    (paths : ManagedPaths) (location : PrefixLocation) (desired : Option String) (active : Nat) :
    Spares receipt ino (recoverResidueWithGuardHeld host around paths location desired active) := by
  refine .look fun disk _ => ?_
  split
  · exact .ret _
  · exact recoverWithGuardHeld_spares host around paths location desired active

theorem ensureRecoveredUnderGuard_spares (active : Nat) :
    Spares receipt ino (ensureRecoveredUnderGuard setup ctx active) := by
  refine .bind (recoverWithGuardHeld_spares _ _ _ _ _ active) fun outcome => ?_
  split
  · exact .fail _
  · exact .ret ()

theorem setupUnderGuard_spares : Spares receipt ino (setupUnderGuard setup ctx process work) := by
  refine .look fun disk _ => .bind (.ofExcept _) fun _ => .bind (.onlyIf fun _ => ?_) fun _ => ?_
  · exact .bind (.ofExcept _) fun _ => ensureRecoveredUnderGuard_spares process.active
  · refine .look fun disk _ => ?_
    split
    · refine .bind (.ofExcept _) fun pfx => ?_
      exact .bind (runManagedTransaction_spares _ .initialSetup) fun _ => .ret ()
    · exact repairInPlace_spares

theorem resetUnderGuard_spares (shutdown : Except String Unit) :
    Spares receipt ino (resetUnderGuard setup ctx process shutdown work) := by
  refine .look fun disk _ => .bind (.ofExcept _) fun _ => .bind (.ofExcept _) fun _ => ?_
  refine .bind (ensureRecoveredUnderGuard_spares process.active) fun _ => ?_
  refine .bind (.ofExcept _) fun _ => .look fun disk _ => .bind (.ofExcept _) fun pfx => ?_
  exact .bind (runManagedTransaction_spares _ .reset) fun _ => .ret ()

end Operations

end RoLauncher.Prefix
