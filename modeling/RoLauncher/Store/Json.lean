import RoLauncher.Crash.System
import RoLauncher.Files.Tree

/-!
# The JSON store (`utils/json.rs`)

A document is one file, its last version is kept next to it as `.bak`, and it
is only ever replaced by renaming a complete temporary over it.
`loadJsonRecovering` falls back to the backup when the document cannot be
read, keeps the damaged document aside, and writes the recovered value;
`writeJsonInternal` copies the document over the backup before it replaces
it, without looking at what it copies.

The store's directory is a `Folder`: names of regular files and directories.
What `serde_json` and the document's type do with a text is a `Codec`.
-/

namespace RoLauncher.Store

open RoLauncher.Files RoLauncher.Crash

/-! ## The directory -/

/-- What a name in the store's directory stands for. Links are left out: the store makes
neither symbolic nor hard ones, and every name is taken to have a file of its own. -/
inductive Item where
  | file (data : Blob)
  | directory
  deriving DecidableEq, Repr

abbrev Folder := String → Option Item

namespace Folder

def put (folder : Folder) (name : String) (item : Option Item) : Folder :=
  fun other => if other = name then item else folder other

@[simp] theorem put_self (folder : Folder) (name : String) (item : Option Item) :
    folder.put name item name = item := if_pos rfl

theorem put_of_ne (folder : Folder) {name other : String} (item : Option Item)
    (h : other ≠ name) : folder.put name item other = folder other := if_neg h

end Folder

inductive FileOp where
  | createDirAll
  /-- `open` with `create_new`. -/
  | createNew (name : String)
  /-- `write_all` on the file just created. -/
  | write (name : String) (data : Blob)
  | syncFile (name : String)
  /-- `fs::copy`: the destination is truncated, then filled. -/
  | copy (source destination : String)
  | rename (source destination : String)
  | remove (name : String)
  | syncDirectory

def enoent : String := "No such file or directory (os error 2)"
def eexist : String := "File exists (os error 17)"
def enotdir : String := "Not a directory (os error 20)"
def eisdir : String := "Is a directory (os error 21)"

def execOp : FileOp → Folder → Except String Unit × Folder
  | .createDirAll, folder => (.ok (), folder)
  | .createNew name, folder =>
    match folder name with
    | none => (.ok (), folder.put name (some (.file (.text ""))))
    | some _ => (.error eexist, folder)
  | .write name data, folder =>
    match folder name with
    | some (.file _) => (.ok (), folder.put name (some (.file data)))
    | some .directory => (.error eisdir, folder)
    | none => (.error enoent, folder)
  | .syncFile name, folder =>
    if (folder name).isSome then (.ok (), folder) else (.error enoent, folder)
  | .copy source destination, folder =>
    match folder source, folder destination with
    | none, _ => (.error enoent, folder)
    | some .directory, _ => (.error "the source path is neither a regular file nor a symlink to a regular file", folder)
    | some (.file _), some .directory => (.error eisdir, folder)
    | some (.file data), _ => (.ok (), folder.put destination (some (.file data)))
  | .rename source destination, folder =>
    match folder source, folder destination with
    | none, _ => (.error enoent, folder)
    | some (.file _), some .directory => (.error eisdir, folder)
    | some .directory, some (.file _) => (.error enotdir, folder)
    | some item, _ => (.ok (), (folder.put source none).put destination (some item))
  | .remove name, folder =>
    match folder name with
    | none => (.error enoent, folder)
    | some .directory => (.error eisdir, folder)
    | some (.file _) => (.ok (), folder.put name none)
  | .syncDirectory, folder => (.ok (), folder)

/-- What a kill inside a call, or a failure it reports, can leave: a file half written. -/
def tornOp (o : FileOp) (folder folder' : Folder) : Prop :=
  folder' = folder ∨
    match o with
    | .write name data => ∃ old blob, folder name = some (.file old) ∧ blob.size ≤ data.size ∧
        folder' = folder.put name (some (.file blob))
    | .copy source destination => ∃ data blob, folder source = some (.file data) ∧
        folder destination ≠ some .directory ∧ blob.size ≤ data.size ∧
        folder' = folder.put destination (some (.file blob))
    | _ => False

def device : Device FileOp Folder String where
  exec := execOp
  torn := tornOp

/-- A program of the store; a failure is the message its caller gets. -/
abbrev StoreProg (α : Type) := Prog FileOp Folder String String α

/-! ## Names -/

structure StorePath where
  directory : String
  fileName : String

/-- What tells the files of one call apart: the process, and `TEMP_FILE_SEQUENCE` when it starts. -/
structure Moment where
  pid : Nat
  sequence : Nat
  timestamp : Nat

namespace StorePath

def display (path : StorePath) : String := path.directory ++ "/" ++ path.fileName

/-- `backup_path`. -/
def backup (path : StorePath) : StorePath := { path with fileName := backupName path.fileName }

def temp (path : StorePath) (moment : Moment) : String :=
  "." ++ path.fileName ++ ".tmp-" ++ toString moment.pid ++ "-" ++ toString moment.sequence

def quarantine (path : StorePath) (moment : Moment) : String :=
  path.fileName ++ ".corrupt-" ++ toString moment.timestamp ++ "-" ++ toString moment.pid ++ "-" ++
    toString moment.sequence

end StorePath

/-! ## Values -/

/-- `serde_json` for a document of type `T`, and what its repository accepts. -/
structure Codec (T Value : Type) where
  parse : String → Except String Value
  fromValue : Value → Except String T
  toValue : T → Except String Value
  toStringPretty : T → Except String String
  validate : T → Except String Unit
  default : T

/-- What the store relies on: a printed document is read back as the same value, in the same
canonical form. -/
structure Codec.Lawful {T Value : Type} (codec : Codec T Value) : Prop where
  roundTrip : ∀ value json, codec.toStringPretty value = .ok json →
    ∃ canonical, codec.parse json = .ok canonical ∧ codec.fromValue canonical = .ok value ∧
      codec.toValue value = .ok canonical

inductive JsonLoadStatus where
  | unchanged
  | migrated
  | recovered
  deriving DecidableEq, Repr

structure JsonLoad (T : Type) where
  value : T
  status : JsonLoadStatus
  deriving DecidableEq, Repr

section Store

variable {T Value : Type} [DecidableEq Value] (codec : Codec T Value) (path : StorePath)

def readValidated (path : StorePath) (item : Option Item) : Except String (T × Value × Value) :=
  let unreadable error := s!"no se pudo leer {path.display}: {error}"
  match item with
  | none => .error (unreadable enoent)
  | some .directory => .error (unreadable eisdir)
  | some (.file data) =>
    match data.text? with
    | none => .error (unreadable "stream did not contain valid UTF-8")
    | some content => do
      let original ← (codec.parse content).mapError fun error =>
        s!"JSON inválido en {path.display}: {error}"
      let value ← (codec.fromValue original).mapError fun error =>
        s!"estructura inválida en {path.display}: {error}"
      (codec.validate value).mapError fun error =>
        s!"datos inválidos en {path.display}: {error}"
      let canonical ← codec.toValue value
      return (value, original, canonical)

/-! ## Writing -/

def writeAndSync (name content : String) : StoreProg Unit := do
  .perform (.createNew name) id
  .perform (.write name (.text content)) id
  .perform (.syncFile name) id

def copyAndSync (source destination : String) : StoreProg Unit := do
  .perform (.copy source destination) id
  .perform (.syncFile destination) id

/-- The steps between the temporary and the document. -/
def replaceThrough (temp json : String) (rotateBackup : Bool) : StoreProg Unit := do
  writeAndSync temp json
  .look fun folder =>
    .onlyIf (rotateBackup && (folder path.fileName).isSome)
      (copyAndSync path.fileName path.backup.fileName)
  .perform (.rename temp path.fileName) id
  .perform .syncDirectory id

def writeJsonInternal (moment : Moment) (value : T) (rotateBackup : Bool) : StoreProg Unit := do
  .perform .createDirAll id
  let json ← .ofExcept (codec.toStringPretty value)
  let temp := path.temp moment
  match ← (replaceThrough path temp json rotateBackup).attempt with
  | .ok () => .ret ()
  | .error error => do
    .performIgnoring (.remove temp)
    .fail error

def writeJson (moment : Moment) (value : T) : StoreProg Unit :=
  writeJsonInternal codec path moment value true

def replaceJson (moment : Moment) (value : T) : StoreProg Unit :=
  writeJsonInternal codec path moment value false

/-- A repository's save: only a valid value is written. -/
def save (moment : Moment) (value : T) : StoreProg Unit := do
  .ofExcept (codec.validate value)
  writeJson codec path moment value

/-! ## Loading -/

def preserveCorruptFile (moment : Moment) : StoreProg Unit :=
  copyAndSync path.fileName (path.quarantine moment)

def loadJsonRecovering (moment : Moment) : StoreProg (JsonLoad T) := .look fun folder =>
  if folder path.fileName = none then .ret { value := codec.default, status := .unchanged }
  else
    match readValidated codec path (folder path.fileName) with
    | .ok (value, original, canonical) =>
      if original = canonical then .ret { value, status := .unchanged }
      else do
        writeJson codec path moment value
        return { value, status := .migrated }
    | .error primaryError =>
      match readValidated codec path.backup (folder path.backup.fileName) with
      | .error backupError =>
        .fail s!"No se pudo cargar {path.display} ({primaryError}) ni su backup {path.backup.display} ({backupError})"
      | .ok (value, _, _) => do
        preserveCorruptFile path moment
        replaceJson codec path { moment with sequence := moment.sequence + 1 } value
        return { value, status := .recovered }

end Store

end RoLauncher.Store
