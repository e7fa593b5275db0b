import RoLauncher.Installations.Frames
import RoLauncher.Installations.Session

/-!
# A protected game is never rebuilt away

Three facts meet here. A run of `writeProtection` that succeeds leaves a root
all of whose receipts name the given installation (`writeProtection_meets`).
From then on every program that may be entered under the prefix guard spares
that root (`PrefixEntry.spares`), the rest of the run included. And an
installer is started only after its run wrote both the receipt and the
binding of its draft (`PrefixEntry.authorizes`).
-/

namespace RoLauncher.Installations

open RoLauncher.Files RoLauncher.Crash RoLauncher.Prefix

/-- A root all of whose receipts name this installation, and that has one. -/
def Receipted (receipt : ReceiptSerde) (binding : InstallationBinding) (ino : Nat)
    (root : Option Node) : Prop :=
  ∃ dev es, root = some (.dir ino dev es) ∧ Named receipt binding es

/-- What the root lists, links followed. -/
def entriesAt (root : Option Node) : Entries :=
  match root with
  | some node => node.children
  | none => []

/-- The receipts at the path of the root name this installation, and there is one. -/
def NamedAt (receipt : ReceiptSerde) (binding : InstallationBinding) (root : Option Node) : Prop :=
  Named receipt binding (entriesAt root)

/-- The binding that the saved drafts have for an installation. -/
def persistedBinding (drafts : List InstallationDraft) (id : String) : Option InstallationBinding :=
  (drafts.find? fun draft => draft.id = id).bind InstallationDraft.binding

/-- The durable receipt and the persisted binding both name what the installer was started for. -/
def Started.Authorized (receipt : ReceiptSerde) (s : Started) : Prop :=
  NamedAt receipt s.wanted s.root ∧
    persistedBinding s.drafts s.wanted.installationId = some s.wanted

section Receipts

variable {receipt : ReceiptSerde} {binding other : InstallationBinding} {disk t : Disk}

theorem ReadsAs.unique {node : Node} (h : ReadsAs receipt binding node)
    (h' : ReadsAs receipt other node) : binding = other := by
  obtain ⟨data, text, rfl, read, decoded⟩ := h
  obtain ⟨data', text', same, read', decoded'⟩ := h'
  cases same
  rw [read] at read'
  cases read'
  rw [decoded] at decoded'
  cases decoded'
  rfl

theorem child_eq_find (root : Option Node) (name : String) :
    child root name = (entriesAt root).find name := by
  cases root <;> rfl

theorem Receipted.namedAt {ino : Nat} {root : Option Node}
    (h : Receipted receipt binding ino root) : NamedAt receipt binding root := by
  obtain ⟨dev, es, rfl, named⟩ := h
  exact named

/-- What lists a receipt is a directory, or a link to one. -/
theorem NamedAt.receipted {root : Option Node} (h : NamedAt receipt binding root)
    (real : isSymlink root = false) : ∃ ino, Receipted receipt binding ino root := by
  rcases root with _ | (_ | ⟨ino, dev, es⟩ | _ | _)
  · cases h.present
  · cases h.present
  · exact ⟨ino, dev, es, rfl, h⟩
  · cases real
  · cases h.present

theorem Receipted.protected {ino : Nat} (h : Receipted receipt binding ino disk.root) :
    Protected ino disk := by
  obtain ⟨dev, es, found, named⟩ := h
  exact ⟨dev, es, found, named.present⟩

theorem Receipted.spared {ino : Nat} (h : Receipted receipt binding ino disk.root)
    (spared : Spared receipt disk t) : Receipted receipt binding ino t.root := by
  obtain ⟨dev, es, found, named⟩ := h
  obtain ⟨ino', dev', es', es'', found', left, spared⟩ := spared
  rw [found] at found'
  cases found'
  exact ⟨dev, es'', left, spared.named binding named⟩

/-! ## Writing the receipt -/

/-- A receipt that was accepted reads as the binding; without one nothing is there. -/
theorem checkReceipt_ok {found : Option Node} {present : Bool}
    (h : checkReceipt receipt binding found = .ok present) :
    (∀ node, found = some node → ReadsAs receipt binding node) ∧ (present = found.isSome) := by
  unfold checkReceipt at h
  split at h
  next =>
    cases h
    exact ⟨fun node some => (by cases some), rfl⟩
  next data =>
    split at h
    · cases h
    split at h
    next saved read =>
      split at h
      · cases h
      next same =>
        cases h
        refine ⟨fun node found => ?_, rfl⟩
        cases found
        obtain ⟨text, decodes, decoded⟩ := Option.map_eq_some_iff.mp read
        rw [not_not.mp same] at decoded
        exact ⟨data, text, rfl, decodes, decoded⟩
    · cases h
  next => cases h

/-- A receipt of this installation may still be written: there is none, and its backup agrees. -/
structure Open (receipt : ReceiptSerde) (binding : InstallationBinding) (es : Entries) : Prop where
  marker : es.find installationMarker = none
  backup : ∀ node, es.find (backupName installationMarker) = some node →
    ReadsAs receipt binding node

/-- Whatever the root holds, as long as it is a directory. -/
def RootHolds (P : Entries → Prop) (disk : Disk) : Prop :=
  ∀ ino dev es, disk.root = some (.dir ino dev es) → P es

/-- A step that spares the root if it is protected. -/
def Sparing (receipt : ReceiptSerde) (disk t : Disk) : Prop :=
  ∀ ino, Protected ino disk → Spared receipt disk t

theorem meets_harmless {o : FsOp} {onError : IoError → String} {Q : Except String Unit → Disk → Prop}
    (harmless : o.harmless) (failed : ∀ e t, Q (.error e) t)
    (done : (execOp o disk).1 = .ok () → Q (.ok ()) (execOp o disk).2) :
    (Prog.perform o onError : FsProg Unit).Meets device (Sparing receipt) Q disk :=
  Prog.meets_perform
    (fun t torn => ⟨fun _ here => tornOp_spares harmless here torn, fun _ => failed _ t⟩)
    (fun _ here => execOp_spares harmless here) done fun _ _ => failed _ _

theorem isTouchable_temporaryOf (pid sequence : Nat) :
    isTouchable (temporaryOf installationMarker pid sequence) = true := by
  have begins : "..ro-launcher-installation.json.tmp-".toList <+:
      (temporaryOf installationMarker pid sequence).toList := by
    simp only [temporaryOf, toString, installationMarker, String.toList_append, String.toList_ofList]
    exact ⟨_, rfl⟩
  exact isTouchable_of_temporary (.tail _ (.head _)) begins

/-- The receipt is ready under its temporary name. -/
structure Prepared (receipt : ReceiptSerde) (binding : InstallationBinding) (temporary : String)
    (es : Entries) : Prop extends Open receipt binding es where
  ready : es.find temporary = some (.file (.text (receipt.render binding)))

theorem Open.put {es : Entries} {temporary : String} (node : Node) (h : Open receipt binding es)
    (touchable : isTouchable temporary = true) : Open receipt binding (es.put temporary node) where
  marker := by rw [find_put_touchable touchable isTouchable_installationMarker, h.marker]
  backup := by
    rw [find_put_touchable touchable isTouchable_receiptBackup]
    exact h.backup

theorem reads_rendered : ReadsAs receipt binding (.file (.text (receipt.render binding))) :=
  ⟨_, _, rfl, rfl, receipt.decode_render binding⟩

/-- The receipt gets its name: a protected root was protected by this installation's backup. -/
theorem Prepared.published {es : Entries} {temporary : String}
    (h : Prepared receipt binding temporary es) (touchable : isTouchable temporary = true) :
    Named receipt binding (es.move temporary installationMarker) ∧
      (isProtected es = true → EntriesSpared receipt es (es.move temporary installationMarker)) := by
  have written : (es.move temporary installationMarker).find installationMarker =
      some (.file (.text (receipt.render binding))) := Entries.find_move_destination h.ready
  have kept : ∀ name, name ≠ temporary → name ≠ installationMarker →
      (es.move temporary installationMarker).find name = es.find name :=
    fun name notTemporary notMarker => Entries.find_move_of_ne notTemporary notMarker
  have other : ∀ name, isTouchable name = false → name ≠ temporary := by
    rintro name out rfl
    rw [touchable] at out
    cases out
  have backup := kept (backupName installationMarker) (other _ isTouchable_receiptBackup) (by decide)
  have present : isProtected (es.move temporary installationMarker) = true := by
    rw [isProtected_iff, written]
    exact .inl (Option.some_ne_none _)
  have named : Named receipt binding (es.move temporary installationMarker) := by
    refine ⟨fun node found => ?_, fun node found => ?_, present⟩
    · rw [written] at found
      cases found
      exact reads_rendered
    · rw [backup] at found
      exact h.backup node found
  refine ⟨named, fun wasProtected => ⟨present, fun first namedFirst => ?_, .inl fun name game => ?_⟩⟩
  · obtain marked | backed := isProtected_iff.mp wasProtected
    · exact absurd h.marker marked
    · obtain ⟨node, found⟩ := Option.ne_none_iff_exists'.mp backed
      rw [ReadsAs.unique (namedFirst.backup node found) (h.backup node found)]
      exact named
  · refine kept name (other name ?_) ?_
    · rw [isTouchable, game]
      rfl
    · rintro rfl
      cases game

/-- A harmless call, and what follows its success. -/
theorem meets_then {o : FsOp} {onError : IoError → String} {rest : FsProg Unit}
    {Q : Except String Unit → Disk → Prop} (harmless : o.harmless)
    (failed : ∀ e t, Q (.error e) t)
    (done : (execOp o disk).1 = .ok () → rest.Meets device (Sparing receipt) Q (execOp o disk).2) :
    ((Prog.perform o onError : FsProg Unit) >>= fun _ => rest).Meets device (Sparing receipt) Q
      disk := by
  refine Prog.Meets.bind ((meets_harmless (Q := fun r t => match r with
    | .ok _ => rest.Meets device (Sparing receipt) Q t
    | .error e => Q (.error e) t) harmless failed done).post fun r t after => ?_)
  cases r <;> exact after

/-- **The replacement**: if it succeeds, the root is receipted. -/
theorem replaceJson_meets (pid sequence : Nat) (vacant : RootHolds (Open receipt binding) disk) :
    (replaceJson installationMarker (temporaryOf installationMarker pid sequence)
      (receipt.render binding)).Meets device (Sparing receipt)
      (fun r t => r = .ok () → ∃ ino, Receipted receipt binding ino t.root) disk := by
  have touchable := isTouchable_temporaryOf pid sequence
  generalize temporaryOf installationMarker pid sequence = temporary at touchable ⊢
  refine meets_then rfl (fun _ _ never => by cases never) fun made => ?_
  have vacant₁ : RootHolds (Open receipt binding) (execOp (.createDirAll .root) disk).2 := by
    simp only [execOp, Disk.get_root]
    split
    · intro ino dev es found
      cases found
      exact ⟨rfl, fun node none => by cases none⟩
    · split <;> exact vacant
  generalize (execOp (.createDirAll .root) disk).2 = disk₁ at vacant₁ ⊢
  -- A failure takes the temporary away, which is harmless wherever it happens.
  have abandoned : ∀ (e : String) (t : Disk),
      ((Prog.performIgnoring (.removeFile .root temporary) : FsProg Unit) >>= fun _ =>
        (.fail e : FsProg Unit)).Meets device (Sparing receipt)
          (fun r t => r = .ok () → ∃ ino, Receipted receipt binding ino t.root) t := by
    intro e t
    have removal : (FsOp.removeFile .root temporary).harmless := ⟨rfl, touchable⟩
    refine ⟨fun u torn => ⟨fun _ here => tornOp_spares removal here torn, fun _ never => ?_⟩,
      fun _ here => execOp_spares removal here, fun never => ?_⟩ <;> cases never
  refine Prog.Meets.bind (Prog.Meets.attempt ?_)
  refine meets_then ⟨rfl, touchable⟩ abandoned fun created => ?_
  obtain ⟨ino, dev, es, found, _, state⟩ := createNew_success created
  rw [state]
  have empty := (vacant₁ ino dev es found).put (.file (.text "")) touchable
  refine meets_then ⟨rfl, touchable⟩ abandoned fun written => ?_
  obtain ⟨ino', dev', es', found', _, state'⟩ := write_success written
  cases found'
  rw [state']
  have full := empty.put (.file (.text (receipt.render binding))) touchable
  have prepared : Prepared receipt binding temporary
      (Entries.put (Entries.put es temporary (.file (.text ""))) temporary
        (.file (.text (receipt.render binding)))) := ⟨full, Entries.find_put_self _ _ _⟩
  generalize Entries.put (Entries.put es temporary (.file (.text ""))) temporary
    (.file (.text (receipt.render binding))) = es₂ at prepared ⊢
  obtain ⟨named, spared⟩ := prepared.published touchable
  refine Prog.Meets.bind (meets_atomic rfl (fun _ here => .refl here) (fun e => abandoned _ _)
    fun renamed => ?_)
  obtain ⟨ino₂, dev₂, es₃, _, found₂, _, _, state₂⟩ := renameIn_success renamed
  cases found₂
  rw [state₂]
  refine ⟨fun ino₀ here => .set_root rfl (spared ?_), ?_⟩
  · obtain ⟨_, _, same, present⟩ := here
    cases same
    exact present
  refine meets_idle rfl (syncDir_idle .root) (fun _ here => .refl here) fun r => ?_
  cases r with
  | ok _ => exact fun _ => ⟨ino, dev, _, rfl, named⟩
  | error e => exact abandoned _ _

/-- **Writing the protection.** It spares a protected root, and if it succeeds every receipt names
the installation. -/
theorem writeProtection_meets (pid sequence : Nat) (disk : Disk) :
    (writeProtection receipt binding pid sequence).Meets device (Sparing receipt)
      (fun r t => r = .ok () → NamedAt receipt binding t.root ∧
        (isSymlink disk.root = false → ∃ ino, Receipted receipt binding ino t.root)) disk := by
  refine Prog.meets_look ?_
  cases marker : checkReceipt receipt binding (child disk.root installationMarker) with
  | error e => exact fun never => by cases never
  | ok present =>
    cases backup : checkReceipt receipt binding (child disk.root (backupName installationMarker)) with
    | error e => exact fun never => by cases never
    | ok _ =>
      obtain ⟨marked, there⟩ := checkReceipt_ok marker
      obtain ⟨backed, _⟩ := checkReceipt_ok backup
      cases present with
      | true =>
        have named : NamedAt receipt binding disk.root := by
          refine ⟨fun node found => marked node ?_, fun node found => backed node ?_, ?_⟩
          · rw [child_eq_find, found]
          · rw [child_eq_find, found]
          · rw [child_eq_find] at there
            rw [isProtected, ← there, Bool.true_or]
        refine fun _ => ⟨named, fun real => ?_⟩
        exact named.receipted real
      | false =>
        refine (replaceJson_meets pid sequence fun ino dev es found => ?_).post
          fun r t after done => ?_
        · rw [found] at there backed
          refine ⟨?_, backed⟩
          rw [child_dir, eq_comm, Option.isSome_eq_false_iff, Option.isNone_iff_eq_none] at there
          exact there
        · obtain ⟨ino, receipted⟩ := after done
          exact ⟨receipted.namedAt, fun _ => ⟨ino, receipted⟩⟩

theorem writeProtection_spares {ino : Nat} (pid sequence : Nat) :
    Spares receipt ino (writeProtection receipt binding pid sequence) := by
  intro disk here
  refine ((writeProtection_meets pid sequence disk).within (fun s t here step => ?_) here).post
    fun r t after => after.2
  have spared := step ino here
  exact ⟨⟨spared, spared.protected here⟩, spared.protected here⟩

end Receipts

/-! ## Every program spares a protected root -/

/-- In whatever world, the program spares a protected root. -/
abbrev Shelters {α : Type} (receipt : ReceiptSerde) (ino : Nat) (p : InstallProg α) : Prop :=
  p.Keeps world (fun w w' => Spared receipt w.disk w'.disk) fun w => Protected ino w.disk

section Shelter

variable {receipt : ReceiptSerde} {ino : Nat} {w : World}

theorem Spares.shelters {α : Type} {p : FsProg α} (h : Spares receipt ino p) :
    Shelters receipt ino (p.on onDisk) := .on onDisk h

def InstallOp.harmless : InstallOp → Prop
  | .onDisk o => o.harmless
  | .saveDrafts _ | .spawn _ => True

section Harmless

variable {o : InstallOp}

theorem InstallOp.harmless.moved (harmless : o.harmless) (w : World) (here : Protected ino w.disk) :
    Spared receipt w.disk (world.exec o w).2.disk ∧ Protected ino (world.exec o w).2.disk := by
  cases o with
  | onDisk o => exact FsOp.harmless.moved harmless w.disk here
  | saveDrafts drafts | spawn wanted => exact ⟨.refl here, here⟩

theorem InstallOp.harmless.torn (harmless : o.harmless) (w w' : World)
    (here : Protected ino w.disk) (left : world.torn o w w') :
    Spared receipt w.disk w'.disk ∧ Protected ino w'.disk := by
  cases o with
  | onDisk o =>
    obtain ⟨disk, torn, rfl⟩ := left
    exact FsOp.harmless.torn harmless w.disk disk here torn
  | saveDrafts drafts | spawn wanted =>
    rcases left with rfl | rfl
    · exact ⟨.refl here, here⟩
    · exact ⟨.refl here, here⟩

theorem InstallOp.harmless.perform {onError : IoError → String} (harmless : o.harmless) :
    Shelters receipt ino (.perform o onError) := .perform harmless.moved harmless.torn

theorem InstallOp.harmless.performIgnoring (harmless : o.harmless) :
    Shelters receipt ino (.performIgnoring o) := .performIgnoring harmless.moved harmless.torn

end Harmless

theorem updateDraft_shelters {isUuid : String → Bool} {remembered : List InstallationDraft}
    {id : String} {change : InstallationDraft → InstallationDraft} :
    Shelters receipt ino (updateDraft isUuid remembered id change) := by
  unfold updateDraft
  split
  · exact .fail _
  split
  · exact .fail _
  · exact InstallOp.harmless.perform trivial

variable {run : Execution} {confirm : Confirmation}

theorem supervise_shelters : Shelters receipt ino run.supervise := by
  refine .bind (.attempt (updateDraft_shelters)) fun noted => ?_
  refine .bind (InstallOp.harmless.performIgnoring run.installerKept) fun _ => ?_
  split
  · exact .bind (.ofExcept _) fun _ => .bind (.ofExcept _) fun _ => .fail _
  · exact .bind (.ofExcept _) fun _ => .bind (.ofExcept _) fun _ => updateDraft_shelters
  · exact .bind (.ofExcept _) fun _ => updateDraft_shelters

theorem answerSpawn_shelters (spawned : Except String Unit) :
    Shelters receipt ino (run.answerSpawn spawned) := by
  unfold Execution.answerSpawn
  split
  · exact supervise_shelters
  split
  · exact .fail _
  · exact .fail _

theorem launchInstaller_shelters : Shelters receipt ino run.launchInstaller := by
  refine .bind (.ofExcept _) fun _ => ?_
  exact .bind (.attempt (InstallOp.harmless.perform trivial)) fun spawned =>
    answerSpawn_shelters spawned

/-- The rest of a run, once its receipt is written. -/
theorem Execution.afterProtection_shelters : Shelters receipt ino run.afterProtection := by
  refine .bind (updateDraft_shelters) fun _ => ?_
  split
  · exact .bind (.ofExcept _) fun _ => updateDraft_shelters
  · exact launchInstaller_shelters

theorem Confirmation.afterProtection_shelters : Shelters receipt ino confirm.afterProtection :=
  .bind (.ofExcept _) fun _ => updateDraft_shelters

theorem Execution.underGuard_shelters : Shelters receipt ino (run.underGuard receipt) := by
  refine .look fun w _ => .bind (.ofExcept _) fun _ => ?_
  split
  · exact .fail _
  split
  · exact .fail _
  refine .bind (.onlyIf fun _ => InstallOp.harmless.perform run.mappingKept) fun _ => ?_
  exact .bind (Spares.shelters (writeProtection_spares _ _)) fun _ => afterProtection_shelters

theorem Confirmation.underGuard_shelters : Shelters receipt ino (confirm.underGuard receipt) := by
  refine .look fun w _ => .bind (.ofExcept _) fun _ => ?_
  split
  · exact .fail _
  refine .bind (.ofExcept _) fun _ => ?_
  exact .bind (Spares.shelters (writeProtection_spares _ _)) fun _ => afterProtection_shelters

/-- A receipt that is lost while its backup is there. -/
theorem lostReceipt_spared {disk : Disk}
    (backup : (child disk.root (backupName installationMarker)).isSome) (here : Protected ino disk) :
    Spared receipt disk (execOp (.removeFile .root installationMarker) disk).2 := by
  refine inside_spared here fun dev es es' found present done => ?_
  rw [found, child_dir] at backup
  have erased : es' = es.erase installationMarker := by
    split at done <;> cases done
    rfl
  have kept : (es.erase installationMarker).find (backupName installationMarker) =
      es.find (backupName installationMarker) := Entries.find_erase_of_ne (by decide)
  have left : isProtected (es.erase installationMarker) = true := by
    rw [isProtected, kept, backup, Bool.or_true]
  rw [erased]
  refine ⟨left, fun binding named => ⟨fun node lost => ?_, fun node there => ?_, left⟩, .inl ?_⟩
  · rw [Entries.find_erase_self] at lost
    cases lost
  · rw [kept] at there
    exact named.backup node there
  · intro name game
    refine Entries.find_erase_of_ne ?_
    rintro rfl
    cases game

/-- **Every entry spares a protected root.** -/
theorem PrefixEntry.spares {p : InstallProg Unit} (entry : PrefixEntry receipt w p)
    (here : Protected ino w.disk) :
    p.Meets world (fun w w' => Spared receipt w.disk w'.disk ∧ Protected ino w'.disk)
      (fun _ w' => Protected ino w'.disk) w := by
  cases entry with
  | installation run => exact Execution.underGuard_shelters w here
  | confirmation confirm => exact Confirmation.underGuard_shelters w here
  | setup setup ctx process work => exact Spares.shelters setupUnderGuard_spares w here
  | reset setup ctx process shutdown work =>
    exact Spares.shelters (resetUnderGuard_spares shutdown) w here
  | recovery host around paths location desired active =>
    exact Spares.shelters (.discard (recoverWithGuardHeld_spares _ _ _ _ _ _)) w here
  | residue host around paths location desired active =>
    exact Spares.shelters (.discard (recoverResidueWithGuardHeld_spares _ _ _ _ _ _)) w here
  | game play kept => exact InstallOp.harmless.performIgnoring (o := .onDisk (.provision play)) kept w here
  | elsewhere drafts => exact InstallOp.harmless.performIgnoring (o := .saveDrafts drafts) trivial w here
  | receiptLost backup =>
    have spared : Spared receipt w.disk _ := lostReceipt_spared backup here
    refine ⟨fun w' torn => ?_, ⟨spared, spared.protected here⟩, spared.protected here⟩
    obtain ⟨disk, torn, rfl⟩ := torn
    rw [torn_atomic rfl torn]
    exact ⟨⟨.refl here, here⟩, fun _ => here⟩

end Shelter

/-! ## Installers are started under protection -/

/-- Every installer of the log was started under protection. -/
def AllAuthorized (receipt : ReceiptSerde) (w : World) : Prop :=
  ∀ s ∈ w.started, s.Authorized receipt

/-- The program starts no installer but under protection. -/
abbrev Logs {α : Type} (receipt : ReceiptSerde) (p : InstallProg α) : Prop :=
  p.Keeps world (fun _ _ => True) (AllAuthorized receipt)

section Authorization

variable {receipt : ReceiptSerde} {w : World} {α : Type}

/-- What happens on the disk starts nothing. -/
theorem onDisk_logs (p : FsProg α) : Logs receipt (p.on onDisk) :=
  .on_frame onDisk (fun _ _ all => all) p

theorem performOnDisk_logs {o : FsOp} {onError : IoError → String} :
    Logs receipt (.perform (.onDisk o) onError) := by
  refine .perform (fun w all => ⟨trivial, all⟩) fun w w' all torn => ?_
  obtain ⟨disk, _, rfl⟩ := torn
  exact ⟨trivial, all⟩

theorem ignoringOnDisk_logs {o : FsOp} : Logs receipt (.performIgnoring (.onDisk o)) := by
  refine .performIgnoring (fun w all => ⟨trivial, all⟩) fun w w' all torn => ?_
  obtain ⟨disk, _, rfl⟩ := torn
  exact ⟨trivial, all⟩

theorem AllAuthorized.start {wanted : InstallationBinding} (all : AllAuthorized receipt w)
    (named : NamedAt receipt wanted w.disk.root)
    (persisted : persistedBinding w.drafts wanted.installationId = some wanted) :
    AllAuthorized receipt (w.start wanted) := by
  intro s started
  obtain before | now := List.mem_append.mp started
  · exact all s before
  · rw [List.mem_singleton] at now
    rw [now]
    exact ⟨named, persisted⟩

/-- A save that succeeds has written the draft, and nothing else changed. -/
theorem updateDraft_meets {isUuid : String → Bool} {remembered : List InstallationDraft}
    {id : String} {change : InstallationDraft → InstallationDraft} :
    (updateDraft isUuid remembered id change).Meets world
      (fun w w' => w'.disk = w.disk ∧ w'.started = w.started)
      (fun r w' => w'.disk = w.disk ∧ w'.started = w.started ∧
        (r = .ok () → w'.drafts = changeFirst id change remembered ∧
          ∃ draft, (remembered.find? fun draft => draft.id = id) = some draft)) w := by
  unfold updateDraft
  split
  · exact ⟨rfl, rfl, fun never => by cases never⟩
  split
  · exact ⟨rfl, rfl, fun never => by cases never⟩
  next draft found _ _ =>
    refine Prog.meets_perform (fun w' torn => ?_) ⟨rfl, rfl⟩
      (fun _ => ⟨rfl, rfl, fun _ => ⟨rfl, draft, found⟩⟩) fun e never => by cases never
    rcases torn with rfl | rfl
    · exact ⟨⟨rfl, rfl⟩, fun e => ⟨rfl, rfl, fun never => by cases never⟩⟩
    · exact ⟨⟨rfl, rfl⟩, fun e => ⟨rfl, rfl, fun never => by cases never⟩⟩

theorem updateDraft_logs {isUuid : String → Bool} {remembered : List InstallationDraft}
    {id : String} {change : InstallationDraft → InstallationDraft} :
    Logs receipt (updateDraft isUuid remembered id change) := by
  intro w all
  refine (updateDraft_meets.within (fun w w' all same => ?_) all).post fun r w' after => after.2
  have kept : AllAuthorized receipt w' := by
    rw [AllAuthorized, same.2]
    exact all
  exact ⟨⟨trivial, kept⟩, kept⟩

variable {run : Execution} {confirm : Confirmation}

theorem supervise_logs : Logs receipt run.supervise := by
  refine .bind (.attempt updateDraft_logs) fun noted => .bind ignoringOnDisk_logs fun _ => ?_
  split
  · exact .bind (.ofExcept _) fun _ => .bind (.ofExcept _) fun _ => .fail _
  · exact .bind (.ofExcept _) fun _ => .bind (.ofExcept _) fun _ => updateDraft_logs
  · exact .bind (.ofExcept _) fun _ => updateDraft_logs

theorem answerSpawn_logs (spawned : Except String Unit) : Logs receipt (run.answerSpawn spawned) := by
  unfold Execution.answerSpawn
  split
  · exact supervise_logs
  split
  · exact .fail _
  · exact .fail _

/-- The installer is started where the receipt and the draft name its run. -/
theorem launchInstaller_logs (all : AllAuthorized receipt w)
    (named : NamedAt receipt run.binding w.disk.root)
    (persisted : persistedBinding w.drafts run.draft.id = some run.binding) :
    run.launchInstaller.Meets world (fun _ w' => True ∧ AllAuthorized receipt w')
      (fun _ w' => AllAuthorized receipt w') w := by
  have started := all.start named persisted
  refine Prog.Meets.bind (Prog.meets_ofExcept ?_)
  cases run.invocation with
  | error e => exact all
  | ok _ =>
    refine Prog.Meets.bind (Prog.Meets.attempt ?_)
    refine Prog.meets_perform (fun w' torn => ?_) ⟨trivial, started⟩
      (fun _ => answerSpawn_logs _ _ started) fun e never => by cases never
    rcases torn with rfl | rfl
    · exact ⟨⟨trivial, all⟩, fun e => answerSpawn_logs _ _ all⟩
    · exact ⟨⟨trivial, started⟩, fun e => answerSpawn_logs _ _ started⟩

/-- The binding that a successful save leaves. -/
theorem persistedBinding_bound {remembered : List InstallationDraft} {id : String}
    {draft : InstallationDraft} (binding : InstallationBinding)
    (found : (remembered.find? fun draft => draft.id = id) = some draft) :
    persistedBinding (changeFirst id (ExecutionUpdate.bound binding).apply remembered) id =
      some binding := by
  rw [persistedBinding, find_changeFirst (apply_id _), if_pos rfl, found]
  rfl

theorem Execution.afterProtection_logs (all : AllAuthorized receipt w)
    (named : NamedAt receipt run.binding w.disk.root) :
    run.afterProtection.Meets world (fun _ w' => True ∧ AllAuthorized receipt w')
      (fun _ w' => AllAuthorized receipt w') w := by
  refine Prog.Meets.bind ((updateDraft_meets.both (updateDraft_logs w all)).mono
    (fun _ _ both => both.2) fun r w' after => ?_)
  obtain ⟨⟨disk, _, saved⟩, all⟩ := after
  cases r with
  | error e => exact all
  | ok _ =>
    dsimp only
    obtain ⟨drafts, draft, found⟩ := saved rfl
    split
    · exact Prog.Keeps.bind (.ofExcept _) (fun _ => updateDraft_logs) w' all
    · refine launchInstaller_logs all (by rw [disk]; exact named) ?_
      rw [drafts]
      exact persistedBinding_bound run.binding found

theorem Execution.underGuard_logs : Logs receipt (run.underGuard receipt) := by
  refine .look fun w _ => .bind (.ofExcept _) fun _ => ?_
  split
  · exact .fail _
  split
  · exact .fail _
  refine .bind (.onlyIf fun _ => performOnDisk_logs) fun _ => ?_
  intro w all
  refine Prog.Meets.bind ((((writeProtection_meets _ _ w.disk).on onDisk).both
    (onDisk_logs _ w all)).mono (fun _ _ both => both.2) fun r w' after => ?_)
  obtain ⟨named, all⟩ := after
  cases r with
  | error e => exact all
  | ok _ => exact afterProtection_logs all (named rfl).1

theorem Confirmation.underGuard_logs : Logs receipt (confirm.underGuard receipt) := by
  refine .look fun w _ => .bind (.ofExcept _) fun _ => ?_
  split
  · exact .fail _
  refine .bind (.ofExcept _) fun _ => .bind (onDisk_logs _) fun _ => ?_
  exact .bind (.ofExcept _) fun _ => updateDraft_logs

/-- **No entry starts an installer without protection.** -/
theorem PrefixEntry.logs {p : InstallProg Unit} (entry : PrefixEntry receipt w p) :
    Logs receipt p := by
  cases entry with
  | installation run => exact Execution.underGuard_logs
  | confirmation confirm => exact Confirmation.underGuard_logs
  | setup | reset | recovery | residue => exact onDisk_logs _
  | game | receiptLost => exact ignoringOnDisk_logs
  | elsewhere drafts =>
    refine .performIgnoring (fun w all => ⟨trivial, all⟩) fun w w' all torn => ?_
    rcases torn with rfl | rfl
    · exact ⟨trivial, all⟩
    · exact ⟨trivial, all⟩

end Authorization

/-! ## The protected game -/

/-- What a launch accepts is not behind a link. -/
theorem validated_real {setup : SetupHost} {ctx : WineContext} {root : Option Node}
    {health : PrefixHealth} (accepted : validateRuntimePrefix setup ctx root = .ok health)
    (known : ctx.location.managed = true ∨ ctx.location.scope = .custom) :
    isSymlink root = false := by
  unfold validateRuntimePrefix at accepted
  dsimp only at accepted
  split at accepted
  next none =>
    unfold runtimePrefixBlockers at none
    rw [List.dedup_eq_nil] at none
    have silent := List.perm_insertionSort (fun a b : String => ¬ b < a) _ |>.symm.trans (.of_eq none)
    have quiet := silent.eq_nil
    simp only [List.append_eq_nil_iff] at quiet
    obtain ⟨⟨⟨⟨⟨⟨_, safe⟩, allowed⟩, _⟩, _⟩, _⟩, _⟩ := quiet
    by_contra linked
    rw [Bool.not_eq_false] at linked
    by_cases custom : ctx.location.scope = .custom
    · simp [errorText, ensureCustomSetupAllowed, custom, linked] at allowed
    · have managed := known.resolve_right custom
      simp [errorText, ensureManagedPathSafe, managed, custom, linked] at safe
  next => cases accepted

/-- **A protected game is never rebuilt away.** -/
theorem protected_game_kept (receipt : ReceiptSerde) :
    -- Writing the protection of a real directory protects it,
    (∀ binding pid sequence disk t, isSymlink disk.root = false →
      Prog.Ends device (writeProtection receipt binding pid sequence) disk (.ok ()) t →
        ∃ ino, Receipted receipt binding ino t.root) ∧
    -- and from then on it stays where it is, under the same receipt, at every step;
    (∀ binding ino c c', Receipted receipt binding ino c.1.disk.root →
      (c.2 = none ∨ (∃ run : Execution, c.2 = some run.afterProtection) ∨
        ∃ confirm : Confirmation, c.2 = some confirm.afterProtection) →
      Run world (PrefixEntry receipt) (fun _ => True) c c' →
        Receipted receipt binding ino c'.1.disk.root ∧
          ∀ c'', SysStep world (PrefixEntry receipt) c' c'' → Spared receipt c'.1.disk c''.1.disk) ∧
    -- no class under which a root or a backup is deleted or restored over is its own;
    (∀ host location identity parentDev ino dev es, isProtected es = true →
      (∃ reason, classifyBackup host parentDev location identity (some (.dir ino dev es)) =
          .foreign reason) ∧
        ¬ (classifyRoot host location identity (some (.dir ino dev es))).Vacant ∧
        ¬ (classifyRoot host location identity (some (.dir ino dev es))).Partial) ∧
    -- and an installer starts only where the receipt and its draft name its run.
    (∀ w c', w.started = [] → Run world (PrefixEntry receipt) (fun _ => True) (w, none) c' →
      ∀ s ∈ c'.1.started, s.Authorized receipt) := by
  refine ⟨fun binding pid sequence disk t real ended => ?_,
    fun binding ino c c' receipted process run => ?_,
    fun host location identity parentDev ino dev es present => ⟨?_, ?_⟩,
    fun w c' fresh run => ?_⟩
  · exact ((writeProtection_meets pid sequence disk).ends ended rfl).2 real
  · have kept : ∀ {p : InstallProg Unit} w, Receipted receipt binding ino w.disk.root →
        p.Meets world (fun w w' => Spared receipt w.disk w'.disk ∧ Protected ino w'.disk)
          (fun _ w' => Protected ino w'.disk) w →
        p.Meets world (fun w w' => Spared receipt w.disk w'.disk ∧
          Receipted receipt binding ino w'.disk.root)
          (fun _ w' => Receipted receipt binding ino w'.disk.root) w := fun w here sheltered =>
      (sheltered.within (fun w w' here step =>
        ⟨⟨step.1, here.spared step.1⟩, here.spared step.1⟩) here).post fun _ _ after => after.2
    obtain ⟨still, steps⟩ := Run.keptBy
      (I := fun w : World => Receipted receipt binding ino w.disk.root)
      (fun w p here entry => kept w here (entry.spares here.protected)) run receipted
      fun p current w here => by
        obtain idle | ⟨run, rest⟩ | ⟨confirm, rest⟩ := process
        · rw [idle] at current
          cases current
        · rw [rest] at current
          cases current
          exact kept w here (Execution.afterProtection_shelters w here.protected)
        · rw [rest] at current
          cases current
          exact kept w here (Confirmation.afterProtection_shelters w here.protected)
    refine ⟨still, fun c'' step => ?_⟩
    obtain same | spared := steps c'' step
    · rw [← same]
      exact .refl still.protected
    · exact spared
  · rw [classifyBackup]
    split
    · exact ⟨_, rfl⟩
    · rw [classifyBackupEntries, if_neg (ne_nil_of_protected present), if_pos present]
      exact ⟨_, rfl⟩
  · rw [classifyRoot_dir]
    exact class_of_protected present
  · have none : AllAuthorized receipt w := by
      rw [AllAuthorized, fresh]
      exact fun s never => by cases never
    exact (Run.keptBy (R := fun _ _ => True) (fun s p all entry => entry.logs s all) run none
      fun p never => by cases never).1

/-! ## A sample receipt -/

/-- A text as characters that are each announced, and an end. -/
def renderField (text rest : List Char) : List Char :=
  text.foldr (fun c out => '-' :: c :: out) ('.' :: rest)

def readField : List Char → Option (List Char × List Char)
  | '-' :: c :: rest => (readField rest).map fun read => (c :: read.1, read.2)
  | '.' :: rest => some ([], rest)
  | _ => none

theorem readField_render (text rest : List Char) :
    readField (renderField text rest) = some (text, rest) := by
  induction text with
  | nil => rfl
  | cons c text ih =>
    change (readField (renderField text rest)).map _ = _
    rw [ih]
    rfl

def sampleReceipt : ReceiptSerde where
  render binding := String.ofList (renderField binding.installationId.toList
    (renderField binding.prefixPath.toList (renderField binding.prefixFingerprint.toList [])))
  decode text :=
    match readField text.toList with
    | none => .error "expected value"
    | some (id, rest) =>
      match readField rest with
      | none => .error "expected value"
      | some (path, rest) =>
        match readField rest with
        | some (fingerprint, []) =>
          .ok ⟨String.ofList id, String.ofList path, String.ofList fingerprint⟩
        | _ => .error "expected value"
  decode_render binding := by
    simp only [String.toList_ofList, readField_render, String.ofList_toList]

def sampleBinding : InstallationBinding := ⟨"a", "/data/prefixes/shared", "f"⟩

/-- A game, whose receipt survives in its backup only. -/
def sampleGame : Node :=
  .dir 1 0 [(backupName installationMarker, .file (.text (sampleReceipt.render sampleBinding))),
    (provisioningMarker, .file (.text "P")), ("drive_c", .dir 2 0 [])]

theorem sampleGame_receipted :
    Receipted sampleReceipt sampleBinding 1 (some sampleGame) := by
  refine ⟨0, _, rfl, fun node none => ?_, fun node found => ?_, rfl⟩
  · cases none
  · cases found
    exact ⟨_, _, rfl, rfl, sampleReceipt.decode_render _⟩

/-- A recovery of it is killed after three calls. -/
theorem protected_game_kept_recovery :
    Receipted sampleReceipt sampleBinding 1
      (((recoverWithGuardHeld sampleHost sampleSurroundings samplePaths sampleLocation none
        0).discard.on onDisk).killedAfter world 3 ⟨sampleDisk (some sampleGame) none, [], []⟩).disk.root :=
  ((protected_game_kept sampleReceipt).2.1 sampleBinding 1
    (⟨sampleDisk (some sampleGame) none, [], []⟩, none) (_, none) sampleGame_receipted (.inl rfl)
    (Run.killedAfter (.recovery sampleHost sampleSurroundings samplePaths sampleLocation none 0) 3)).1

end RoLauncher.Installations
