import RoLauncher.Crash.System
import RoLauncher.Prefix.Plan

/-!
# The disk around one managed root, and its operations

Everything recovery and the managed transaction touch lies in one parent
directory: the root `R`, its fixed backup `B`, and the other entries, which
only matter when they are timestamped backups. `Disk` is that directory.

`FsOp` are the filesystem calls of the source, one constructor for each call.
`device` gives them their two readings: `execOp`, the documented result of
the call on this disk, errors included, and `tornOp`, what a kill inside the
call or a failure it reports can leave. Only three calls have an inside: a
file is written piece by piece, a tree is deleted entry by entry, and the
provisioning engine does as it pleases with what is not one of the launcher's records.

A directory whose device differs from its parent's is a mount point: it can
be neither renamed nor removed. Inside a tree there are none.
-/

namespace RoLauncher.Prefix

open RoLauncher.Files RoLauncher.Crash

structure IoError where
  notFound : Bool
  text : String
  deriving DecidableEq, Repr

namespace IoError

def enoent : IoError := ⟨true, "No such file or directory (os error 2)"⟩
def ebusy : IoError := ⟨false, "Device or resource busy (os error 16)"⟩
def eexist : IoError := ⟨false, "File exists (os error 17)"⟩
def enotdir : IoError := ⟨false, "Not a directory (os error 20)"⟩
def eisdir : IoError := ⟨false, "Is a directory (os error 21)"⟩
def enotempty : IoError := ⟨false, "Directory not empty (os error 39)"⟩

end IoError

/-- The entries of the parent that a call can name. -/
inductive Slot where
  | root
  | backup
  | sibling (name : String)
  deriving DecidableEq, Repr

structure Disk where
  root : Option Node
  backup : Option Node
  siblings : Entries
  parentDev : Nat
  /-- The identity that the next directory created here gets. -/
  nextIno : Nat

namespace Disk

def get (disk : Disk) : Slot → Option Node
  | .root => disk.root
  | .backup => disk.backup
  | .sibling name => disk.siblings.find name

def set (disk : Disk) (slot : Slot) (node : Option Node) : Disk :=
  match slot with
  | .root => { disk with root := node }
  | .backup => { disk with backup := node }
  | .sibling name =>
    { disk with siblings := match node with
        | some n => disk.siblings.put name n
        | none => disk.siblings.erase name }

@[simp] theorem get_root (disk : Disk) : disk.get .root = disk.root := rfl
@[simp] theorem get_backup (disk : Disk) : disk.get .backup = disk.backup := rfl

@[simp] theorem set_root (disk : Disk) (node : Option Node) :
    disk.set .root node = { disk with root := node } := rfl

@[simp] theorem set_backup (disk : Disk) (node : Option Node) :
    disk.set .backup node = { disk with backup := node } := rfl

@[simp] theorem get_set (disk : Disk) (slot : Slot) (node : Option Node) :
    (disk.set slot node).get slot = node := by
  rcases slot with _ | _ | name
  · rfl
  · rfl
  · cases node with
    | none => exact Entries.find_erase_self _ _
    | some n => exact Entries.find_put_self _ _ _

end Disk

namespace Disk

@[simp] theorem set_set (disk : Disk) (slot : Slot) (node node' : Option Node) :
    (disk.set slot node).set slot node' = disk.set slot node' := by
  rcases slot with _ | _ | name
  · rfl
  · rfl
  · rcases node with _ | n <;> rcases node' with _ | n' <;>
      simp [set, Entries.put, Entries.erase, List.filter_append, List.filter_filter]

theorem set_root_self {disk : Disk} {node : Option Node} (h : disk.root = node) :
    disk.set .root node = disk := by
  subst h
  rfl

theorem set_backup_self {disk : Disk} {node : Option Node} (h : disk.backup = node) :
    disk.set .backup node = disk := by
  subst h
  rfl

theorem set_self {disk : Disk} {slot : Slot} {node : Option Node}
    (fixed : slot = .root ∨ slot = .backup) (h : disk.get slot = node) :
    disk.set slot node = disk := by
  obtain rfl | rfl := fixed
  · exact set_root_self h
  · exact set_backup_self h

end Disk

/-- The records that recovery reads in a root. Nothing but the launcher's own calls writes them: the
provisioning engine, an installer and a game write whatever else they please in the root, names that
begin with `.ro-launcher` included (managed DXVK keeps its state in `.ro-launcher-dxvk`). -/
def launcherRecords : List String :=
  [provisioningMarker, provisioningMarkerTmp, commitPendingMarker, prefixMarker,
    legacyPrefixMarker, installationMarker, backupName installationMarker]

def isLauncherName (name : String) : Bool := launcherRecords.contains name

theorem isLauncherName_of_record {name : String} (record : name ∈ launcherRecords) :
    isLauncherName name = true := List.contains_iff_mem.mpr record

/-- How names that are written out begin. -/
theorem isPrefixOf_ofList (start name : List Char) :
    (String.ofList start).toList.isPrefixOf (String.ofList name).toList = start.isPrefixOf name := by
  rw [String.toList_ofList, String.toList_ofList]

inductive FsOp where
  | createParent
  | syncParent
  | syncDir (slot : Slot)
  | syncFilesystem (slot : Slot)
  | createDir (slot : Slot)
  | createDirAll (slot : Slot)
  | removeDir (slot : Slot)
  /-- `renameat2(RENAME_NOREPLACE)` of a whole tree. -/
  | rename (source destination : Slot)
  | removeFile (slot : Slot) (name : String)
  | removeDirAll (slot : Slot) (name : String)
  /-- `open` with `create_new`. -/
  | createNew (slot : Slot) (name : String)
  /-- `write_all` and `sync_all` on the file just created. -/
  | write (slot : Slot) (name : String) (data : Blob)
  /-- A rename inside one directory; `replace` is a plain `rename(2)`. -/
  | renameIn (slot : Slot) (source destination : String) (replace : Bool)
  /-- The engine's work on the root, with the result it reports. -/
  | provision (work : Entries → Except IoError Unit × Entries)

/-! ## Undisturbed calls -/

/-- A call on the entries of the directory at `slot`. -/
def inside (disk : Disk) (slot : Slot) (f : Entries → Except IoError Entries) :
    Except IoError Unit × Disk :=
  match disk.get slot with
  | some (.dir ino dev es) =>
    match f es with
    | .ok es' => (.ok (), disk.set slot (some (.dir ino dev es')))
    | .error e => (.error e, disk)
  | some _ => (.error .enotdir, disk)
  | none => (.error .enoent, disk)

/-- `slot` is a mount point in the parent directory. -/
def isMount (disk : Disk) : Node → Bool
  | .dir _ dev _ => dev ≠ disk.parentDev
  | _ => false

/-- Why a rename of one entry over another fails, if it does. -/
def renameError (replace : Bool) (source destination : Option Node) : Option IoError :=
  match source, destination with
  | none, _ => some .enoent
  | some _, none => none
  | some node, some target =>
    if !replace then some .eexist
    else
      match node.kind, target.kind with
      | .directory, _ => some .enotdir
      | _, .directory => some .eisdir
      | _, _ => none

def execOp : FsOp → Disk → Except IoError Unit × Disk
  | .createParent, disk => (.ok (), disk)
  | .syncParent, disk => (.ok (), disk)
  | .syncDir slot, disk | .syncFilesystem slot, disk =>
    if (disk.get slot).isSome then (.ok (), disk) else (.error .enoent, disk)
  | .createDir slot, disk =>
    if (disk.get slot).isSome then (.error .eexist, disk)
    else
      (.ok (), { disk with nextIno := disk.nextIno + 1 }.set slot
        (some (.dir disk.nextIno disk.parentDev [])))
  | .createDirAll slot, disk =>
    match disk.get slot with
    | none =>
      (.ok (), { disk with nextIno := disk.nextIno + 1 }.set slot
        (some (.dir disk.nextIno disk.parentDev [])))
    | some node => if isDir (some node) then (.ok (), disk) else (.error .eexist, disk)
  | .removeDir slot, disk =>
    match disk.get slot with
    | none => (.error .enoent, disk)
    | some (.dir ino dev es) =>
      if isMount disk (.dir ino dev es) then (.error .ebusy, disk)
      else if es = [] then (.ok (), disk.set slot none)
      else (.error .enotempty, disk)
    | some _ => (.error .enotdir, disk)
  | .rename source destination, disk =>
    match disk.get source with
    | none => (.error .enoent, disk)
    | some node =>
      if (disk.get destination).isSome then (.error .eexist, disk)
      else if isMount disk node then (.error .ebusy, disk)
      else (.ok (), (disk.set source none).set destination (some node))
  | .removeFile slot name, disk => inside disk slot fun es =>
    match es.find name with
    | none => .error .enoent
    | some (.dir _ _ _) => .error .eisdir
    | some _ => .ok (es.erase name)
  | .removeDirAll slot name, disk => inside disk slot fun es =>
    match es.find name with
    | none => .error .enoent
    | some (.dir _ _ _) => .ok (es.erase name)
    | some _ => .error .enotdir
  | .createNew slot name, disk => inside disk slot fun es =>
    match es.find name with
    | none => .ok (es.put name (.file (.text "")))
    | some _ => .error .eexist
  | .write slot name data, disk => inside disk slot fun es =>
    match es.find name with
    | some (.file _) => .ok (es.put name (.file data))
    | _ => .error .enoent
  | .renameIn slot source destination replace, disk => inside disk slot fun es =>
    match renameError replace (es.find source) (es.find destination) with
    | none => .ok (es.move source destination)
    | some e => .error e
  | .provision work, disk =>
    match disk.root with
    | some (.dir ino dev es) =>
      ((work es).1, { disk with root := some (.dir ino dev (work es).2) })
    | _ => (.error .enoent, disk)

/-! ## Disturbed calls -/

/-- The two directories hold the same launcher records. -/
def SameRecords (es' es : Entries) : Prop :=
  ∀ name, isLauncherName name = true → Entries.find es' name = Entries.find es name

/-- What a call leaves inside a directory when it is cut short. -/
def tornInside : FsOp → Entries → Entries → Prop
  | .removeDirAll _ name, es, es' =>
    es' = Entries.erase es name ∨
      ∃ node node', Entries.find es name = some node ∧ Part node' node ∧
        es' = Entries.thin es name node'
  | .write _ name data, es, es' =>
    ∃ old blob, Entries.find es name = some (.file old) ∧ blob.size ≤ data.size ∧
      es' = Entries.put es name (.file blob)
  | .provision _, es, es' => SameRecords es' es
  | _, _, _ => False

/-- The directory a call works in, for the calls that can be cut short. -/
def FsOp.tornSlot : FsOp → Slot
  | .removeDirAll slot _ | .write slot _ _ => slot
  | _ => .root

def tornOp (o : FsOp) (disk disk' : Disk) : Prop :=
  disk' = disk ∨
    ∃ ino dev es es', disk.get o.tornSlot = some (.dir ino dev es) ∧ tornInside o es es' ∧
      disk' = disk.set o.tornSlot (some (.dir ino dev es'))

def device : Device FsOp Disk IoError where
  exec := execOp
  torn := tornOp

/-- A program of the recovery module; a failure is the message the user sees. -/
abbrev FsProg (α : Type) := Prog FsOp Disk IoError String α

/-- The calls that happen at once or not at all. -/
def FsOp.atomic : FsOp → Bool
  | .removeDirAll _ _ | .write _ _ _ | .provision _ => false
  | _ => true

theorem torn_atomic {o : FsOp} {disk disk' : Disk} (atomic : o.atomic = true)
    (h : tornOp o disk disk') : disk' = disk := by
  rcases h with h | ⟨ino, dev, es, es', _, torn, _⟩
  · exact h
  · cases o <;> first | exact torn.elim | cases atomic

theorem inside_ok {disk : Disk} {slot : Slot} {f : Entries → Except IoError Entries}
    {ino dev : Nat} {es es' : Entries} (found : disk.get slot = some (.dir ino dev es))
    (ok : f es = .ok es') :
    inside disk slot f = (.ok (), disk.set slot (some (.dir ino dev es'))) := by
  simp only [inside, found, ok]

theorem inside_error {disk : Disk} {slot : Slot} {f : Entries → Except IoError Entries}
    {ino dev : Nat} {es : Entries} {e : IoError} (found : disk.get slot = some (.dir ino dev es))
    (error : f es = .error e) : inside disk slot f = (.error e, disk) := by
  simp only [inside, found, error]

/-! ## What a successful call says -/

section Success

variable {disk : Disk} {slot : Slot}

theorem inside_success {f : Entries → Except IoError Entries}
    (h : (inside disk slot f).1 = .ok ()) :
    ∃ (ino dev : Nat) (es es' : Entries), disk.get slot = some (.dir ino dev es) ∧ f es = .ok es' ∧
      inside disk slot f = (.ok (), disk.set slot (some (.dir ino dev es'))) := by
  unfold inside at h
  split at h
  next ino dev es found =>
    split at h
    next es' ok => exact ⟨ino, dev, es, es', found, ok, inside_ok found ok⟩
    next => cases h
  next => cases h
  next => cases h

/-- A call that reports a failure changed nothing. Only the engine can fail half-way. -/
theorem execOp_error {o : FsOp} {e : IoError} (atomic : o.atomic = true)
    (h : (execOp o disk).1 = .error e) : (execOp o disk).2 = disk := by
  have insides : ∀ {slot f}, (inside disk slot f).1 = .error e → (inside disk slot f).2 = disk := by
    intro slot f hi
    unfold inside at hi ⊢
    split
    next found =>
      split
      next ok => simp only [found, ok] at hi; cases hi
      next => rfl
    next => rfl
    next => rfl
  cases o with
  | createParent => cases h
  | syncParent => cases h
  | syncDir slot | syncFilesystem slot =>
    simp only [execOp] at h ⊢
    split <;> rfl
  | createDir slot =>
    simp only [execOp] at h ⊢
    split
    · rfl
    next free => rw [if_neg free] at h; cases h
  | createDirAll slot =>
    simp only [execOp] at h ⊢
    split
    next free => simp only [free] at h; cases h
    next => split <;> rfl
  | removeDir slot =>
    simp only [execOp] at h ⊢
    split
    · rfl
    next found =>
      split
      · rfl
      next mount =>
        split
        next empty => simp only [found, if_neg mount, if_pos empty] at h; cases h
        · rfl
    · rfl
  | rename source destination =>
    simp only [execOp] at h ⊢
    split
    · rfl
    next found =>
      split
      · rfl
      next free =>
        split
        · rfl
        next mount => simp only [found, if_neg free, if_neg mount] at h; cases h
  | removeFile slot name => exact insides h
  | createNew slot name => exact insides h
  | renameIn slot source destination replace => exact insides h
  | removeDirAll | write | provision => cases atomic

theorem createDir_success (h : (execOp (.createDir slot) disk).1 = .ok ()) :
    disk.get slot = none ∧ (execOp (.createDir slot) disk).2 =
      { disk with nextIno := disk.nextIno + 1 }.set slot
        (some (.dir disk.nextIno disk.parentDev [])) := by
  simp only [execOp] at h ⊢
  split at h
  · cases h
  next free => exact ⟨by simpa using free, by rw [if_neg free]⟩

theorem removeDir_success (h : (execOp (.removeDir slot) disk).1 = .ok ()) :
    ∃ ino, disk.get slot = some (.dir ino disk.parentDev []) ∧
      (execOp (.removeDir slot) disk).2 = disk.set slot none := by
  simp only [execOp] at h ⊢
  split at h
  · cases h
  next ino dev es found =>
    split at h
    · cases h
    next mount =>
      split at h
      next empty =>
        have hdev : dev = disk.parentDev := by simpa [isMount] using mount
        subst empty hdev
        exact ⟨ino, found, by simp [isMount]⟩
      · cases h
  · cases h

theorem rename_success {source destination : Slot}
    (h : (execOp (.rename source destination) disk).1 = .ok ()) :
    ∃ node, disk.get source = some node ∧ disk.get destination = none ∧
      isMount disk node = false ∧
      (execOp (.rename source destination) disk).2 =
        (disk.set source none).set destination (some node) := by
  simp only [execOp] at h ⊢
  split at h
  · cases h
  next node found =>
    split at h
    · cases h
    next free =>
      split at h
      · cases h
      next mount =>
        have hfree : disk.get destination = none := by simpa using free
        have hmount : isMount disk node = false := by simpa using mount
        exact ⟨node, found, hfree, hmount, by simp [hfree, hmount]⟩

theorem removeFile_success {name : String}
    (h : (execOp (.removeFile slot name) disk).1 = .ok ()) :
    ∃ (ino dev : Nat) (es : Entries), disk.get slot = some (.dir ino dev es) ∧ es.find name ≠ none ∧
      (execOp (.removeFile slot name) disk).2 = disk.set slot (some (.dir ino dev (es.erase name))) := by
  obtain ⟨ino, dev, es, es', found, ok, hexec⟩ := inside_success h
  refine ⟨ino, dev, es, found, ?_, ?_⟩
  · intro hn
    rw [hn] at ok
    cases ok
  · have : es' = es.erase name := by
      split at ok <;> cases ok
      rfl
    rw [← this]
    exact congrArg Prod.snd hexec

theorem createNew_success {name : String} (h : (execOp (.createNew slot name) disk).1 = .ok ()) :
    ∃ (ino dev : Nat) (es : Entries), disk.get slot = some (.dir ino dev es) ∧ es.find name = none ∧
      (execOp (.createNew slot name) disk).2 =
        disk.set slot (some (.dir ino dev (es.put name (.file (.text ""))))) := by
  obtain ⟨ino, dev, es, es', found, ok, hexec⟩ := inside_success h
  split at ok <;> cases ok
  next free => exact ⟨ino, dev, es, found, free, congrArg Prod.snd hexec⟩

theorem write_success {name : String} {data : Blob}
    (h : (execOp (.write slot name data) disk).1 = .ok ()) :
    ∃ (ino dev : Nat) (es : Entries), disk.get slot = some (.dir ino dev es) ∧
      (∃ old, es.find name = some (.file old)) ∧
      (execOp (.write slot name data) disk).2 =
        disk.set slot (some (.dir ino dev (es.put name (.file data)))) := by
  obtain ⟨ino, dev, es, es', found, ok, hexec⟩ := inside_success h
  split at ok <;> cases ok
  next old hold => exact ⟨ino, dev, es, found, ⟨old, hold⟩, congrArg Prod.snd hexec⟩

theorem renameIn_success {source destination : String} {replace : Bool}
    (h : (execOp (.renameIn slot source destination replace) disk).1 = .ok ()) :
    ∃ (ino dev : Nat) (es : Entries) (node : Node), disk.get slot = some (.dir ino dev es) ∧ es.find source = some node ∧
      (replace = false → es.find destination = none) ∧
      (execOp (.renameIn slot source destination replace) disk).2 =
        disk.set slot (some (.dir ino dev (es.move source destination))) := by
  obtain ⟨ino, dev, es, es', found, ok, hexec⟩ := inside_success h
  have hsnd := congrArg Prod.snd hexec
  split at ok
  next hv =>
    cases ok
    cases hs : es.find source with
    | none => rw [hs] at hv; cases hv
    | some node =>
      refine ⟨ino, dev, es, node, found, hs, fun hr => ?_, hsnd⟩
      cases hd : es.find destination with
      | none => rfl
      | some target =>
        rw [hs, hd, hr] at hv
        cases hv
  next => cases ok

end Success

/-! ## Bounding one call -/

section Bounds

variable {Err α : Type} {R : Disk → Disk → Prop} {disk : Disk}

/-- A call that happens at once: it fails and nothing changed, or it succeeds. -/
theorem meets_act {o : FsOp} {k : Except IoError Unit → Prog FsOp Disk IoError Err α}
    {Q : Except Err α → Disk → Prop} (atomic : o.atomic = true) (stay : R disk disk)
    (failed : ∀ e, (k (.error e)).Meets device R Q disk)
    (done : (execOp o disk).1 = .ok () →
      R disk (execOp o disk).2 ∧ (k (.ok ())).Meets device R Q (execOp o disk).2) :
    (Prog.act o k).Meets device R Q disk := by
  refine ⟨fun t torn => ?_, ?_⟩
  · rw [torn_atomic atomic torn]
    exact ⟨stay, failed⟩
  · change R disk (execOp o disk).2 ∧ (k (execOp o disk).1).Meets device R Q (execOp o disk).2
    cases hr : (execOp o disk).1 with
    | ok u => exact done hr
    | error e =>
      rw [execOp_error atomic hr]
      exact ⟨stay, failed e⟩

/-- The same, when a failure is the program's. -/
theorem meets_atomic {o : FsOp} {onError : IoError → Err} {Q : Except Err Unit → Disk → Prop}
    (atomic : o.atomic = true) (stay : R disk disk) (failed : ∀ e, Q (.error (onError e)) disk)
    (done : (execOp o disk).1 = .ok () → R disk (execOp o disk).2 ∧ Q (.ok ()) (execOp o disk).2) :
    (Prog.perform o onError : Prog FsOp Disk IoError Err Unit).Meets device R Q disk :=
  meets_act atomic stay failed done

/-- A call that only flushes. -/
theorem meets_idle {o : FsOp} {onError : IoError → Err} {Q : Except Err Unit → Disk → Prop}
    (atomic : o.atomic = true) (idle : (execOp o disk).2 = disk) (stay : R disk disk)
    (any : ∀ r : Except IoError Unit, Q (r.mapError onError) disk) :
    (Prog.perform o onError : Prog FsOp Disk IoError Err Unit).Meets device R Q disk := by
  refine meets_atomic atomic stay (fun e => any (.error e)) (fun _ => ?_)
  rw [idle]
  exact ⟨stay, any (.ok ())⟩

theorem syncDir_idle (slot : Slot) : (execOp (.syncDir slot) disk).2 = disk := by
  simp only [execOp]
  split <;> rfl

theorem syncFilesystem_idle (slot : Slot) : (execOp (.syncFilesystem slot) disk).2 = disk := by
  simp only [execOp]
  split <;> rfl

end Bounds

/-! ## A sample prefix -/

/-- A shared prefix, outside the reach of any path suffix. -/
def samplePath : Path := ["data", "prefixes", "shared"]

def sampleRecord : ProvisioningMarker :=
  { schemaVersion := markerSchema, scope := .shared, serverId := none, prefixPath := samplePath
    prefixFingerprint := none, createdAtMs := 0 }

def sampleManifest : PrefixManifest :=
  { schemaVersion := prefixSchemaVersion, scope := .shared, serverId := none, runnerKind := "wine"
    runnerPath := "/usr/bin/wine", components := [] }

/-- A decoder that knows one manifest, `M`, and one record, `P`. -/
def sampleSerde : Serde where
  schemaProbe json := if json = "M" then .ok prefixSchemaVersion else .error "expected value"
  prefixManifest json := if json = "M" then .ok sampleManifest else .error "expected value"
  prefixManifestV3 _ := .error "expected value"
  provisioningMarker json := if json = "P" then .ok sampleRecord else .error "expected value"
  renderMarker _ := "P"

def sampleHost : Host where
  serde := sampleSerde
  isolatedPrefixRoot := ["data", "prefixes", "isolated"]
  serverPathToken16 _ := "0123456789abcdef"

def sampleLocation : PrefixLocation :=
  { path := samplePath, scope := .shared, managed := true, serverId := none }

def samplePrefix : ManagedPrefix :=
  { location := sampleLocation, parent := ["data", "prefixes"], name := "shared", expected := none }

theorem sample_at : ManagedPrefix.at sampleHost sampleLocation none = .ok samplePrefix := rfl

/-- A committed prefix with one directory of data. -/
def sampleCommitted : Entries := [(prefixMarker, .file (.text "M")), ("drive_c", .dir 2 0 [])]

def sampleDisk (root backup : Option Node) : Disk :=
  { root, backup, siblings := [], parentDev := 0, nextIno := 9 }

end RoLauncher.Prefix
