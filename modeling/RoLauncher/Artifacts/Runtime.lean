import RoLauncher.Crash.System
import RoLauncher.Artifacts.Receipt

/-!
# The runtime directory and its operations

Everything the installer touches lies in one directory: the canonical directory
of an artifact, its activation slot, and the work directories of callers, in
which an extracted tree is one level deeper.

`device` gives each filesystem call its two readings, as for the managed roots:
what it does, and what a kill inside it or a reported failure can leave. Reads
are calls as well: they can fail.

`doomed`, `slotRetired` and `restored` follow the trees that were given up: an entry
is doomed once it was tombstoned, the tree in the slot is retired once it was
tombstoned, or exchanged out of the canonical place, and the flag `restored` says
that such a tree was moved to the canonical place.
-/

namespace RoLauncher.Artifacts

open RoLauncher.Files RoLauncher.Crash

/-- An entry of the runtime directory, or an entry of a directory in it. -/
inductive Place where
  | top (name : String)
  | inner (wrapper name : String)
  deriving DecidableEq, Repr

/-- The entry of the runtime directory that a place belongs to. -/
def Place.root : Place → String
  | .top name => name
  | .inner wrapper _ => wrapper

structure Runtime where
  entries : Entries
  slotRetired : Bool
  restored : Bool
  /-- The entries that were tombstoned since they were made. -/
  doomed : List String

def activationSlot (descriptor : ArtifactDescriptor) : String := "." ++ descriptor.id ++ ".activation"

/-- Bind a name, or unbind it. -/
def rebind (es : Entries) (name : String) : Option Node → Entries
  | some node => es.put name node
  | none => es.erase name

namespace Runtime

def get (s : Runtime) : Place → Option Node
  | .top name => s.entries.find name
  | .inner wrapper name =>
    match s.entries.find wrapper with
    | some (.dir _ _ es) => Entries.find es name
    | _ => none

/-- Replace the entry at a place; the wrapper of an inner place is a directory. -/
def set (s : Runtime) : Place → Option Node → Runtime
  | .top name, node => { s with entries := rebind s.entries name node }
  | .inner wrapper name, node =>
    match s.entries.find wrapper with
    | some (.dir ino dev es) =>
      { s with entries := s.entries.put wrapper (.dir ino dev (rebind es name node)) }
    | _ => s

/-- The tree at a place carries a tombstone, or the entry it belongs to was given one. -/
def tombstoned (s : Runtime) (place : Place) : Bool :=
  (child (s.get place) CLEANUP).isSome || s.doomed.contains place.root

end Runtime

inductive InstallOp where
  /-- A call that changes nothing: it reads, or it syncs a directory. -/
  | read
  | createDir (name : String)
  /-- `renameat2(RENAME_NOREPLACE)` of a whole tree. -/
  | rename (source : Place) (destination : String)
  /-- `renameat2(RENAME_EXCHANGE)`. -/
  | exchange (source destination : String)
  /-- A rename inside one directory; `replace` is a plain `rename(2)`. -/
  | renameIn (place : Place) (source destination : String) (replace : Bool)
  /-- `open` with `create_new`. -/
  | createNew (place : Place) (name : String)
  /-- `write_all` and `sync_all` on the file just created. -/
  | write (place : Place) (name : String) (data : Blob)
  | removeFile (place : Place) (name : String)
  | removeDirAll (place : Place) (name : String)
  | removeDir (name : String)
  /-- The caller's download or extraction in its work directory. -/
  | fill (wrapper : String) (work : Entries → Except String Unit × Entries)

def enoent : String := "No such file or directory (os error 2)"
def eexist : String := "File exists (os error 17)"
def enotdir : String := "Not a directory (os error 20)"
def eisdir : String := "Is a directory (os error 21)"
def enotempty : String := "Directory not empty (os error 39)"

/-- A call on the entries of the directory at a place. -/
def inside (s : Runtime) (place : Place) (f : Entries → Except String Entries) :
    Except String Unit × Runtime :=
  match s.get place with
  | some (.dir ino dev es) =>
    match f es with
    | .ok es' => (.ok (), s.set place (some (.dir ino dev es')))
    | .error e => (.error e, s)
  | some _ => (.error enotdir, s)
  | none => (.error enoent, s)

section Device

variable (descriptor : ArtifactDescriptor)

/-- A tree arrives in the slot or at the canonical place. -/
def noteRename (source : Place) (destination : String) (s before : Runtime) : Runtime :=
  if destination = activationSlot descriptor then
    { s with slotRetired := before.tombstoned source }
  else if destination = descriptor.id ∧ source = .top (activationSlot descriptor) then
    { s with restored := before.restored || before.slotRetired }
  else s

/-- The two trees change places; what leaves the canonical place is retired. -/
def noteExchange (source destination : String) (s before : Runtime) : Runtime :=
  if source = activationSlot descriptor ∧ destination = descriptor.id then
    { s with
      restored := before.restored || before.slotRetired
      slotRetired := true }
  else s

def noteTombstone (place : Place) (destination : String) (s : Runtime) : Runtime :=
  if destination = CLEANUP then
    { s with
      slotRetired := s.slotRetired || decide (place = .top (activationSlot descriptor))
      doomed := place.root :: s.doomed }
  else s

/-- A directory is made: the entry is a new one. -/
def noteMade (name : String) (s : Runtime) : Runtime :=
  { s with doomed := s.doomed.filter (· ≠ name) }

def execOp : InstallOp → Runtime → Except String Unit × Runtime
  | .read, s => (.ok (), s)
  | .createDir name, s =>
    if (s.get (.top name)).isSome then (.error eexist, s)
    else (.ok (), noteMade name (s.set (.top name) (some (.dir 0 0 []))))
  | .rename source destination, s =>
    match s.get source with
    | none => (.error enoent, s)
    | some node =>
      if (s.get (.top destination)).isSome then (.error eexist, s)
      else (.ok (), noteRename descriptor source destination
        ((s.set source none).set (.top destination) (some node)) s)
  | .exchange source destination, s =>
    match s.get (.top source), s.get (.top destination) with
    | some node, some node' => (.ok (), noteExchange descriptor source destination
        ((s.set (.top source) (some node')).set (.top destination) (some node)) s)
    | _, _ => (.error enoent, s)
  | .renameIn place source destination replace, s =>
    let (result, s') := inside s place fun es =>
      match es.find source, es.find destination with
      | none, _ => .error enoent
      | some _, none => .ok (es.move source destination)
      | some node, some target =>
        if !replace then .error eexist
        else
          match node.kind, target.kind with
          | .directory, _ => .error enotdir
          | _, .directory => .error eisdir
          | _, _ => .ok (es.move source destination)
    match result with
    | .ok () => (.ok (), noteTombstone descriptor place destination s')
    | .error e => (.error e, s)
  | .createNew place name, s => inside s place fun es =>
    match es.find name with
    | none => .ok (es.put name (.file (.text "")))
    | some _ => .error eexist
  | .write place name data, s => inside s place fun es =>
    match es.find name with
    | some (.file _) => .ok (es.put name (.file data))
    | _ => .error enoent
  | .removeFile place name, s => inside s place fun es =>
    match es.find name with
    | none => .error enoent
    | some (.dir _ _ _) => .error eisdir
    | some _ => .ok (es.erase name)
  | .removeDirAll place name, s => inside s place fun es =>
    match es.find name with
    | none => .error enoent
    | some (.dir _ _ _) => .ok (es.erase name)
    | some _ => .error enotdir
  | .removeDir name, s =>
    match s.get (.top name) with
    | none => (.error enoent, s)
    | some (.dir _ _ es) => if es = [] then (.ok (), s.set (.top name) none) else (.error enotempty, s)
    | some _ => (.error enotdir, s)
  | .fill wrapper work, s =>
    match s.get (.top wrapper) with
    | some (.dir ino dev es) => ((work es).1, s.set (.top wrapper) (some (.dir ino dev (work es).2)))
    | _ => (.error enoent, s)

/-- What a call leaves inside a directory when it is cut short. -/
def tornInside : InstallOp → Entries → Entries → Prop
  | .removeDirAll _ name, es, es' =>
    es' = Entries.erase es name ∨
      ∃ node node', Entries.find es name = some node ∧ Part node' node ∧
        es' = Entries.thin es name node'
  | .write _ name data, es, es' =>
    ∃ old blob, Entries.find es name = some (.file old) ∧ blob.size ≤ data.size ∧
      es' = Entries.put es name (.file blob)
  | .fill _ _, _, _ => True
  | _, _, _ => False

/-- The directory a call works in, for the calls that can be cut short. -/
def InstallOp.tornPlace : InstallOp → Place
  | .removeDirAll place _ | .write place _ _ => place
  | .fill wrapper _ => .top wrapper
  | _ => .top ""

def tornOp (o : InstallOp) (s s' : Runtime) : Prop :=
  s' = s ∨ ∃ ino dev es es', s.get o.tornPlace = some (.dir ino dev es) ∧ tornInside o es es' ∧
    s' = s.set o.tornPlace (some (.dir ino dev es'))

def device : Device InstallOp Runtime String where
  exec := execOp descriptor
  torn := tornOp

end Device

/-- A program of the installer; a failure is the message the user sees. -/
abbrev InstallProg (α : Type) := Prog InstallOp Runtime String String α

end RoLauncher.Artifacts
