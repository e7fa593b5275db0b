import RoLauncher.Crash.Keeps
import RoLauncher.Files.Walk
import RoLauncher.Updater.Lease

/-!
# The AppImage that takes another's place (`activate.rs`)

A verified image is written to a temporary file beside the installed one, given
its mode, flushed, and renamed over it. The process can be killed between any
two steps and inside the write, and any step can fail.

The installed path holds the old image or the new one at every moment; what
others put where the temporary file goes is left alone; and a call that would
have succeeded succeeds after any crashes (`activate_atomic`). The directory of
the image is the model's disk: its names, and the inodes behind them.
-/

namespace RoLauncher.Updater.Activate

open Crash Files

/-! ## The disk -/

inductive FileKind where
  | regular
  | directory
  | symlink
  | special
  deriving DecidableEq, Repr

structure Inode where
  kind : FileKind
  bytes : List UInt8
  mode : Nat
  links : Nat
  owner : Nat
  deriving DecidableEq, Repr

/-- The directory of the image. Its path may itself be a link. -/
structure Disk where
  parentIsLink : Bool
  entries : String → Option Nat
  inodes : List Inode
  inside : ∀ name ino, entries name = some ino → ino < inodes.length

inductive IoError where
  | notFound
  | other (text : String)
  deriving DecidableEq, Repr

def IoError.text : IoError → String
  | .notFound => "No such file or directory (os error 2)"
  | .other text => text

namespace Disk

def stat (d : Disk) (name : String) : Option Inode :=
  (d.entries name).bind fun ino => d.inodes[ino]?

def change (d : Disk) (ino : Nat) (f : Inode → Inode) : Disk :=
  { d with
    inodes := d.inodes.modify ino f
    inside := fun name other named => by
      rw [List.length_modify]
      exact d.inside name other named }

def unlink (d : Disk) (name : String) (ino : Nat) : Disk :=
  { d.change ino fun inode => { inode with links := inode.links - 1 } with
    entries := Function.update d.entries name none
    inside := fun other ino' named => by
      rw [Function.update_apply] at named
      split at named
      · cases named
      · exact (d.change ino _).inside other ino' named }

def create (d : Disk) (name : String) (inode : Inode) : Disk where
  parentIsLink := d.parentIsLink
  entries := Function.update d.entries name (some d.inodes.length)
  inodes := d.inodes ++ [inode]
  inside other ino named := by
    rw [List.length_append, List.length_singleton]
    rw [Function.update_apply] at named
    split at named
    · cases named
      exact Nat.lt_succ_self _
    · exact Nat.lt_succ_of_lt (d.inside other ino named)

/-- The name of an inode becomes another, which had none. -/
def rename (d : Disk) (old new : String) : Disk where
  parentIsLink := d.parentIsLink
  entries := Function.update (Function.update d.entries old none) new (d.entries old)
  inodes := d.inodes
  inside other ino named := by
    rw [Function.update_apply] at named
    split at named
    · exact d.inside old ino named
    · rw [Function.update_apply] at named
      split at named
      · cases named
      · exact d.inside other ino named

/-- `unlink` where the name may be free. -/
def release (d : Disk) (name : String) : Disk :=
  match d.entries name with
  | some ino => d.unlink name ino
  | none => d

/-- What a reader of a path gets: the kind, the bytes and the mode. -/
def content (d : Disk) (name : String) : Option (FileKind × List UInt8 × Nat) :=
  (d.stat name).map fun inode => (inode.kind, inode.bytes, inode.mode)

section Lemmas

variable {d : Disk} {name other : String} {ino : Nat}

theorem stat_eq_none : d.stat name = none ↔ d.entries name = none := by
  unfold stat
  cases named : d.entries name with
  | none => simp
  | some ino =>
    have inside := d.inside name ino named
    simp [inside]

/-- A change of the links is not seen. -/
theorem content_links (f : Nat → Nat) :
    (d.change ino fun inode => { inode with links := f inode.links }).content name =
      d.content name := by
  unfold content stat
  show ((d.entries name).bind fun ino' => (d.inodes.modify ino _)[ino']?).map _ = _
  cases d.entries name with
  | none => rfl
  | some ino' =>
    rw [Option.bind_some, Option.bind_some, List.getElem?_modify]
    cases d.inodes[ino']? with
    | none => rfl
    | some inode =>
      by_cases same : ino = ino'
      · simp [same]
      · simp [same]

theorem release_of_free (free : d.entries name = none) : d.release name = d := by
  unfold release
  rw [free]

theorem release_entries_self : (d.release name).entries name = none := by
  unfold release
  split
  · exact Function.update_self ..
  next free => exact free

theorem release_entries_ne (ne : other ≠ name) :
    (d.release name).entries other = d.entries other := by
  unfold release
  split
  · exact Function.update_of_ne ne ..
  · rfl

theorem release_content_ne (ne : other ≠ name) : (d.release name).content other = d.content other := by
  unfold release
  split
  next ino named =>
    rw [← @content_links d other ino (· - 1)]
    unfold content stat
    show ((Function.update d.entries name none other).bind _).map _ = _
    rw [Function.update_of_ne ne]
    rfl
  · rfl

theorem release_parent : (d.release name).parentIsLink = d.parentIsLink := by
  unfold release
  split
  · rfl
  · rfl

theorem release_length : (d.release name).inodes.length = d.inodes.length := by
  unfold release
  split
  · exact List.length_modify ..
  · rfl

theorem create_entries_self (inode : Inode) :
    (d.create name inode).entries name = some d.inodes.length := Function.update_self ..

theorem create_stat_self (inode : Inode) : (d.create name inode).stat name = some inode := by
  unfold stat
  show (Function.update d.entries name (some d.inodes.length) name).bind _ = _
  rw [Function.update_self, Option.bind_some]
  exact List.getElem?_concat_length ..

theorem create_stat_ne (ne : other ≠ name) (inode : Inode) :
    (d.create name inode).stat other = d.stat other := by
  unfold stat
  show (Function.update d.entries name (some d.inodes.length) other).bind _ = _
  rw [Function.update_of_ne ne]
  cases named : d.entries other with
  | none => rfl
  | some ino =>
    rw [Option.bind_some, Option.bind_some]
    exact List.getElem?_append_left (d.inside other ino named)

theorem create_content_ne (ne : other ≠ name) (inode : Inode) :
    (d.create name inode).content other = d.content other := by
  unfold content
  rw [create_stat_ne ne]

/-- A file that was just created is changed through its handle. -/
theorem change_create (inode : Inode) (f : Inode → Inode) :
    (d.create name inode).change d.inodes.length f = d.create name (f inode) := by
  have changed : (d.inodes ++ [inode]).modify d.inodes.length f = d.inodes ++ [f inode] := by
    apply List.ext_getElem?
    intro place
    rw [List.getElem?_modify, List.getElem?_append, List.getElem?_append]
    by_cases before : place < d.inodes.length
    · simp [before, Nat.ne_of_gt before]
    · rw [if_neg before, if_neg before]
      by_cases here : d.inodes.length = place
      · simp [here]
      · have beyond : place - d.inodes.length ≠ 0 := by omega
        simp [here, beyond]
  unfold change create
  congr 1

/-- The name that a file is given shows it, and its old name is free. -/
theorem rename_content_self : (d.rename other name).content name = d.content other := by
  have named : (d.rename other name).entries name = d.entries other := Function.update_self ..
  unfold content stat
  rw [named]
  rfl

theorem rename_entries_old (ne : other ≠ name) : (d.rename other name).entries other = none := by
  have named : (d.rename other name).entries other = Function.update d.entries other none other :=
    Function.update_of_ne ne ..
  rw [named, Function.update_self]

end Lemmas

end Disk

/-! ## Steps -/

/-- A path of the directory as it is written: a name, and what follows it without naming anything. -/
structure Named where
  name : String
  trailing : Bool
  deriving DecidableEq, Repr

inductive Op where
  | symlinkMetadata (path : Named)
  | openParent
  | removeFile (name : String)
  | createNew (name : String) (owner mode : Nat)
  | writeAll (ino : Nat) (bytes : List UInt8)
  | setPermissions (ino mode : Nat)
  | syncAll
  | rename (old new : String)

def step (d : Disk) : Op → Except IoError Unit × Disk
  | .symlinkMetadata path =>
    match d.stat path.name with
    | none => (.error .notFound, d)
    | some inode =>
      if path.trailing ∧ inode.kind ≠ .directory then
        (.error (.other "Not a directory (os error 20)"), d)
      else (.ok (), d)
  | .openParent =>
    if d.parentIsLink then (.error (.other "Too many levels of symbolic links (os error 40)"), d)
    else (.ok (), d)
  | .removeFile name =>
    match d.stat name with
    | none => (.error .notFound, d)
    | some inode =>
      if inode.kind = .directory then (.error (.other "Is a directory (os error 21)"), d)
      else (.ok (), d.release name)
  | .createNew name owner mode =>
    if (d.entries name).isSome then (.error (.other "File exists (os error 17)"), d)
    else (.ok (), d.create name ⟨.regular, [], mode, 1, owner⟩)
  | .writeAll ino bytes => (.ok (), d.change ino fun inode => { inode with bytes := inode.bytes ++ bytes })
  | .setPermissions ino mode => (.ok (), d.change ino fun inode => { inode with mode })
  | .syncAll => (.ok (), d)
  | .rename old new =>
    match d.stat old, d.stat new with
    | none, _ => (.error .notFound, d)
    | some _, some ⟨.directory, _, _, _, _⟩ => (.error (.other "Is a directory (os error 21)"), d)
    | some _, _ =>
      -- Two names of one file stay as they are.
      if d.entries old = d.entries new then (.ok (), d) else (.ok (), (d.release new).rename old new)

/-- A write that is cut leaves the beginning of it; other steps happen or do not. -/
def torn : Op → Disk → Disk → Prop
  | .writeAll ino bytes, d, t =>
    ∃ written, t = d.change ino fun inode => { inode with bytes := inode.bytes ++ bytes.take written }
  | _, d, t => t = d

def disk : Device Op Disk IoError := ⟨fun o d => step d o, torn⟩

/-! ## The program -/

/-- The word at a place, from its lower byte. -/
def u16At (bytes : List UInt8) (place : Nat) : Nat :=
  (bytes.getD place 0).toNat + 256 * (bytes.getD (place + 1) 0).toNat

def validatePayload (bytes : List UInt8) : Except BackendError Unit :=
  if bytes.take 2 = [0x1f, 0x8b] then
    .error (.install "El updater requiere un AppImage sin comprimir, no gzip")
  else if bytes.length ≤ 64 ∨ bytes.take 7 ≠ [0x7f, 0x45, 0x4c, 0x46, 2, 1, 1] ∨
      (bytes.drop 8).take 3 ≠ [0x41, 0x49, 2] ∨ ¬(u16At bytes 16 = 2 ∨ u16At bytes 16 = 3) ∨
      (bytes.drop 20).take 4 ≠ [1, 0, 0, 0] ∨ (bytes.drop 52).take 2 ≠ [64, 0] then
    .error (.install ("El updater requiere una cabecera AppImage ELF64 type-2 válida; no acepta " ++
      "tar ni otros paquetes"))
  else .ok ()

/-- The target, as it is written. -/
structure Target where
  absolute : Bool
  segments : List String

def Target.fileName (target : Target) : Option String :=
  match nextBack target.segments with
  | .normal name => some name
  | .rootDir | .parentDir => none

/-- What the target is called in its directory. -/
def Target.named (target : Target) (name : String) : Named where
  name
  trailing := decide (trimRight target.segments ≠ target.segments)

def temporaryName (name : String) : String := "." ++ name ++ ".update-tmp"

/-- The target's name and the temporary file's. -/
def temporaryPath (target : Target) : Except BackendError (String × String) :=
  match target.fileName with
  | some name =>
    if target.absolute then .ok (name, temporaryName name)
    else .error (.install "La ruta AppImage del host debe ser absoluta y nombrar un archivo")
  | none => .error (.install "La ruta AppImage del host debe ser absoluta y nombrar un archivo")

def ioError (stage : String) (error : IoError) : BackendError :=
  .install ("AppImage: " ++ stage ++ ": " ++ error.text)

abbrev Activation := Prog Op Disk IoError

def symlinkMetadata (path : Named) : Activation IoError Inode :=
  .act (.symlinkMetadata path) fun
    | .error error => .fail error
    | .ok () => .look fun d =>
      match d.stat path.name with
      | some inode => .ret inode
      | none => .fail .notFound

/-- The file a call creates is known by its inode from then on. -/
def createTemporary (name : String) (euid : Nat) : Activation BackendError Nat :=
  .look fun d => .act (.createNew name euid 0o600) fun
    | .error error => .fail (ioError "crear temporal exclusivo" error)
    | .ok () => .ret d.inodes.length

def retireStale (name : String) (euid : Nat) : Activation BackendError Unit := do
  match ← (symlinkMetadata ⟨name, false⟩).attempt with
  | .ok stale =>
    if stale.kind ≠ .regular ∨ stale.links ≠ 1 ∨ stale.owner ≠ euid then
      .fail (.install "El temporal AppImage está ocupado por un objeto ajeno; se conserva")
    else .perform (.removeFile name) (ioError "retirar temporal anterior")
  | .error .notFound => return ()
  | .error error => .fail (ioError "inspeccionar temporal" error)

def prepare (file : Nat) (temporary name : String) (mode : Nat) (bytes : List UInt8) :
    Activation IoError Unit := do
  .perform (.writeAll file bytes) id
  .perform (.setPermissions file mode) id
  .perform .syncAll id
  .perform (.rename temporary name) id

/-- What is said of a step before the rename that failed, and of the cleanup. -/
def rejected (error : IoError) : Except IoError Unit → BackendError
  | .ok _ => .install ("AppImage: activación rechazada antes de rename: " ++ error.text)
  | .error cleanup => .install ("AppImage: activación rechazada antes de rename: " ++ error.text ++
      "; no se pudo retirar el temporal: " ++ cleanup.text)

/-- From the created file to the end. After the rename nothing is taken back. -/
def commitTemporary (file : Nat) (temporary name : String) (mode : Nat) (bytes : List UInt8) :
    Activation BackendError Unit := do
  match ← (prepare file temporary name mode bytes).attempt with
  | .error error =>
    let cleanup ← (Prog.perform (.removeFile temporary) id : Activation IoError Unit).attempt
    .fail (rejected error cleanup)
  | .ok () => .perform .syncAll (ioError "nuevo AppImage activado; fsync del directorio falló")

/-- `activate_appimage`. -/
def activateAppimage (euid : Nat) (target : Target) (bytes : List UInt8) :
    Activation BackendError Unit := do
  .ofExcept (validatePayload bytes)
  let (name, temporary) ← .ofExcept (temporaryPath target)
  let metadata ← (symlinkMetadata (target.named name)).mapError (ioError "inspeccionar destino")
  if metadata.kind ≠ .regular ∨ metadata.mode &&& 0o111 = 0 then
    .fail (.install "El AppImage instalado debe ser un archivo regular ejecutable, no un enlace")
  else
    .perform .openParent (ioError "abrir directorio padre")
    retireStale temporary euid
    let file ← createTemporary temporary euid
    commitTemporary file temporary name metadata.mode bytes

/-! ## What a call leaves -/

/-- The directory in which a call gets as far as writing. -/
structure Usable (euid : Nat) (name temporary : String) (mode : Nat) (d : Disk) : Prop where
  target : ∃ bytes, d.content name = some (.regular, bytes, mode)
  executable : mode &&& 0o111 ≠ 0
  parent : d.parentIsLink = false
  free : d.entries temporary = none ∨ ∃ stale, d.stat temporary = some stale ∧
    stale.kind = .regular ∧ stale.links = 1 ∧ stale.owner = euid

/-- The temporary file while it is written. -/
def part (euid : Nat) (bytes : List UInt8) (mode : Nat) : Inode := ⟨.regular, bytes, mode, 1, euid⟩

/-- The new image in the other's place. -/
def replaced (euid : Nat) (name temporary : String) (bytes : List UInt8) (mode : Nat) (s : Disk) :
    Disk :=
  (((s.release temporary).create temporary (part euid bytes mode)).release name).rename temporary name

/-- The disks on the way of a call that began on `s`. -/
inductive Stage (euid : Nat) (name temporary : String) (bytes : List UInt8) (mode : Nat) (s : Disk) :
    Disk → Prop
  | retired : Stage euid name temporary bytes mode s (s.release temporary)
  | created (written : List UInt8) (now : Nat) :
      Stage euid name temporary bytes mode s
        ((s.release temporary).create temporary (part euid written now))
  | cleaned (written : List UInt8) (now : Nat) :
      Stage euid name temporary bytes mode s
        (((s.release temporary).create temporary (part euid written now)).release temporary)
  | replaced : Stage euid name temporary bytes mode s (replaced euid name temporary bytes mode s)

section Stages

variable {euid : Nat} {name temporary : String} {bytes : List UInt8} {mode : Nat} {s t : Disk}

theorem replaced_content (ne : name ≠ temporary) :
    (replaced euid name temporary bytes mode s).content name = some (.regular, bytes, mode) := by
  unfold replaced
  rw [Disk.rename_content_self, Disk.release_content_ne ne.symm]
  unfold Disk.content
  rw [Disk.create_stat_self]
  rfl

theorem replaced_free (ne : name ≠ temporary) :
    (replaced euid name temporary bytes mode s).entries temporary = none :=
  Disk.rename_entries_old ne.symm

/-- The target is the old one until it is the new one. -/
theorem Stage.content (stage : Stage euid name temporary bytes mode s t) (ne : name ≠ temporary) :
    t.content name = s.content name ∨ t.content name = some (.regular, bytes, mode) := by
  cases stage with
  | retired => exact .inl (Disk.release_content_ne ne)
  | created written now =>
    left
    rw [Disk.create_content_ne ne, Disk.release_content_ne ne]
  | cleaned written now =>
    left
    rw [Disk.release_content_ne ne, Disk.create_content_ne ne, Disk.release_content_ne ne]
  | replaced => exact .inr (replaced_content ne)

/-- A call can begin again wherever one was stopped. -/
theorem Stage.usable (stage : Stage euid name temporary bytes mode s t) (ne : name ≠ temporary)
    (usable : Usable euid name temporary mode s) : Usable euid name temporary mode t where
  target := by
    rcases stage.content ne with old | new
    · rw [old]
      exact usable.target
    · exact ⟨bytes, new⟩
  executable := usable.executable
  parent := by
    rw [← usable.parent, ← @Disk.release_parent s temporary]
    cases stage with
    | retired | created => rfl
    | cleaned written now => exact Disk.release_parent
    | replaced => exact Disk.release_parent
  free := by
    cases stage with
    | retired => exact .inl Disk.release_entries_self
    | created written now => exact .inr ⟨_, Disk.create_stat_self _, rfl, rfl, rfl⟩
    | cleaned written now => exact .inl Disk.release_entries_self
    | replaced => exact .inl (replaced_free ne)

theorem temporaryName_ne (name : String) : name ≠ temporaryName name := by
  intro same
  have length := congrArg String.length same
  unfold temporaryName at length
  rw [String.length_append, String.length_append] at length
  have dot : ".".length = 1 := rfl
  omega

end Stages

/-! ## The call -/

/-- How a call ends that began on `s` and got as far as writing. -/
inductive Ended (euid : Nat) (name temporary : String) (bytes : List UInt8) (mode : Nat) (s : Disk) :
    Except BackendError Unit → Disk → Prop
  | activated :
      Ended euid name temporary bytes mode s (.ok ()) (replaced euid name temporary bytes mode s)
  | unsynced (error : IoError) :
      Ended euid name temporary bytes mode s
        (.error (ioError "nuevo AppImage activado; fsync del directorio falló" error))
        (replaced euid name temporary bytes mode s)
  | early (error : BackendError) :
      Ended euid name temporary bytes mode s (.error error) (s.release temporary)
  | cleaned (error : BackendError) (written : List UInt8) (now : Nat) :
      Ended euid name temporary bytes mode s (.error error)
        (((s.release temporary).create temporary (part euid written now)).release temporary)
  | left (error cleanup : IoError) (written : List UInt8) (now : Nat) :
      Ended euid name temporary bytes mode s (.error (rejected error (.error cleanup)))
        ((s.release temporary).create temporary (part euid written now))

section Call

variable {R : Disk → Disk → Prop} {s : Disk}

/-- Inspecting a path changes nothing, and what it finds is there. -/
theorem symlinkMetadata_meets {path : Named} {Q : Except IoError Inode → Disk → Prop} (refl : R s s)
    (found : ∀ inode, s.stat path.name = some inode →
      (path.trailing = true → inode.kind = .directory) → Q (.ok inode) s)
    (failed : ∀ error, Q (.error error) s) : (symlinkMetadata path).Meets disk R Q s := by
  unfold symlinkMetadata
  have same : (step s (.symlinkMetadata path)).2 = s := by
    unfold step
    dsimp only
    split
    · rfl
    · split
      · rfl
      · rfl
  refine ⟨fun t torn => ?_, ?_, ?_⟩
  · cases torn
    exact ⟨refl, failed⟩
  · show R s (step s (.symlinkMetadata path)).2
    rw [same]
    exact refl
  · show Prog.Meets disk R _ Q (step s (.symlinkMetadata path)).2
    rw [same]
    show Prog.Meets disk R (match (step s (.symlinkMetadata path)).1 with
      | .error error => .fail error
      | .ok () => _) Q s
    cases result : (step s (.symlinkMetadata path)).1 with
    | error error => exact failed error
    | ok done =>
      apply Prog.meets_look
      cases there : s.stat path.name with
      | none => exact failed .notFound
      | some inode =>
        apply found inode there
        intro trailing
        by_contra other
        unfold step at result
        dsimp only at result
        rw [there] at result
        dsimp only at result
        rw [if_pos ⟨trailing, other⟩] at result
        cases result

end Call

section Call

variable {I : Disk → Prop} {euid : Nat} {name temporary : String} {bytes : List UInt8} {mode : Nat}
  {s : Disk}

/-- The stale file of an earlier call. -/
def Stale (euid : Nat) (temporary : String) (s : Disk) : Prop :=
  ∃ stale, s.stat temporary = some stale ∧ stale.kind = .regular ∧ stale.links = 1 ∧
    stale.owner = euid

theorem retireStale_meets {Q : Except BackendError Unit → Disk → Prop} (here : I s)
    (retired : Stale euid temporary s → I (s.release temporary))
    (kept : Q (.ok ()) s)
    (removed : Stale euid temporary s → Q (.ok ()) (s.release temporary))
    (failed : ∀ error, Q (.error error) s) :
    (retireStale temporary euid).Meets disk (fun _ t => I t) Q s := by
  unfold retireStale
  apply Prog.Meets.bind
  apply Prog.Meets.attempt
  apply symlinkMetadata_meets here
  · intro stale there _
    dsimp only
    split
    · exact failed _
    next own =>
      have regular : stale.kind = .regular := by
        by_contra other
        exact own (.inl other)
      have single : stale.links = 1 := by
        by_contra other
        exact own (.inr (.inl other))
      have owner : stale.owner = euid := by
        by_contra other
        exact own (.inr (.inr other))
      have mine : Stale euid temporary s := ⟨stale, there, regular, single, owner⟩
      have step : step s (.removeFile temporary) = (.ok (), s.release temporary) := by
        unfold step
        dsimp only
        rw [there]
        dsimp only
        rw [regular, if_neg (by decide)]
      apply Prog.meets_perform
      · intro t torn
        cases torn
        exact ⟨here, fun error => failed _⟩
      · show I (Activate.step s (.removeFile temporary)).2
        rw [step]
        exact retired mine
      · intro _
        show Q _ (Activate.step s (.removeFile temporary)).2
        rw [step]
        exact removed mine
      · intro error refused
        have : (Activate.step s (.removeFile temporary)).1 = .error error := refused
        rw [step] at this
        cases this
  · intro error
    cases error with
    | notFound => exact kept
    | other text => exact failed _

/-- Only where the name is free is a file created. -/
theorem createTemporary_meets {Q : Except BackendError Nat → Disk → Prop} (here : I s)
    (made : s.entries temporary = none → I (s.create temporary (part euid [] 0o600)))
    (ok : s.entries temporary = none →
      Q (.ok s.inodes.length) (s.create temporary (part euid [] 0o600)))
    (failed : ∀ error, Q (.error error) s) :
    (createTemporary temporary euid).Meets disk (fun _ t => I t) Q s := by
  unfold createTemporary
  apply Prog.meets_look
  refine ⟨fun t torn => ?_, ?_⟩
  · cases torn
    exact ⟨here, fun error => failed _⟩
  · show I (step s (.createNew temporary euid 0o600)).2 ∧
      Prog.Meets disk _ (match (step s (.createNew temporary euid 0o600)).1 with
        | .error error => _
        | .ok () => _) Q (step s (.createNew temporary euid 0o600)).2
    unfold step
    dsimp only
    cases taken : s.entries temporary with
    | some ino => exact ⟨here, failed _⟩
    | none => exact ⟨made taken, ok taken⟩

/-- The file of a call, with what is written of it. -/
abbrev created (euid : Nat) (temporary : String) (s : Disk) (written : List UInt8) (now : Nat) : Disk :=
  (s.release temporary).create temporary (part euid written now)

theorem step_rename (ne : name ≠ temporary) (usable : Usable euid name temporary mode s)
    (written : List UInt8) (now : Nat) :
    step (created euid temporary s written now) (.rename temporary name) =
      (.ok (), ((created euid temporary s written now).release name).rename temporary name) := by
  have own : (created euid temporary s written now).stat temporary = some (part euid written now) :=
    Disk.create_stat_self _
  have same : (created euid temporary s written now).content name = s.content name := by
    rw [Disk.create_content_ne ne, Disk.release_content_ne ne]
  obtain ⟨old, target⟩ := usable.target
  rw [target] at same
  obtain ⟨inode, there, shown⟩ := Option.map_eq_some_iff.mp same
  have regular : inode.kind = .regular := congrArg Prod.fst shown
  have apart : (created euid temporary s written now).entries temporary ≠
      (created euid temporary s written now).entries name := by
    have fresh : (created euid temporary s written now).entries temporary =
        some (s.release temporary).inodes.length := Disk.create_entries_self _
    have other : (created euid temporary s written now).entries name =
        (s.release temporary).entries name := Function.update_of_ne ne ..
    rw [fresh, other]
    intro same
    exact Nat.lt_irrefl _ ((s.release temporary).inside name _ same.symm)
  unfold step
  dsimp only
  rw [own, there]
  obtain ⟨kind, bytes, mode', links, owner⟩ := inode
  cases regular
  dsimp only
  rw [if_neg apart]

/-- Whatever is written before a step fails, the target is not touched. -/
theorem prepare_meets {Q : Except IoError Unit → Disk → Prop} (ne : name ≠ temporary)
    (usable : Usable euid name temporary mode s)
    (writing : ∀ written now, I (created euid temporary s written now))
    (last : I (replaced euid name temporary bytes mode s))
    (ok : Q (.ok ()) (replaced euid name temporary bytes mode s))
    (failed : ∀ error written now, Q (.error error) (created euid temporary s written now)) :
    (prepare (s.release temporary).inodes.length temporary name mode bytes).Meets disk
      (fun _ t => I t) Q (created euid temporary s [] 0o600) := by
  have changed (written : List UInt8) (now : Nat) (f : Inode → Inode) :=
    @Disk.change_create (s.release temporary) temporary (part euid written now) f
  unfold prepare
  -- the write
  apply Prog.Meets.bind
  apply Prog.meets_perform
  · rintro t ⟨written, rfl⟩
    rw [changed]
    exact ⟨writing _ _, fun error => failed error _ _⟩
  · show I ((created euid temporary s [] 0o600).change _ _)
    rw [changed]
    exact writing _ _
  rotate_left
  · intro error never
    cases never
  intro _
  show Prog.Meets disk _ _ Q ((created euid temporary s [] 0o600).change _ _)
  rw [changed]
  -- the mode
  apply Prog.Meets.bind
  apply Prog.meets_perform
  · intro t torn
    cases torn
    exact ⟨writing _ _, fun error => failed error _ _⟩
  · show I (((created euid temporary s bytes 0o600)).change _ _)
    rw [changed]
    exact writing _ _
  rotate_left
  · intro error never
    cases never
  intro _
  show Prog.Meets disk _ _ Q ((created euid temporary s bytes 0o600).change _ _)
  rw [changed]
  -- the flush
  apply Prog.Meets.bind
  apply Prog.meets_perform
  · intro t torn
    cases torn
    exact ⟨writing _ _, fun error => failed error _ _⟩
  · exact writing _ _
  rotate_left
  · intro error never
    cases never
  intro _
  -- the rename
  have step := step_rename ne usable bytes mode
  apply Prog.meets_perform
  · intro t torn
    cases torn
    exact ⟨writing _ _, fun error => failed error _ _⟩
  · show I (Activate.step (created euid temporary s bytes mode) _).2
    rw [step]
    exact last
  · intro _
    show Q _ (Activate.step (created euid temporary s bytes mode) _).2
    rw [step]
    exact ok
  · intro error refused
    have : (Activate.step (created euid temporary s bytes mode) _).1 = .error error := refused
    rw [step] at this
    cases this

/-- An image that is valid, for a path that names a file. -/
structure Called (target : Target) (bytes : List UInt8) (name : String) : Prop where
  payload : validatePayload bytes = .ok ()
  absolute : target.absolute = true
  named : target.fileName = some name
  plain : trimRight target.segments = target.segments

variable {target : Target}

theorem step_remove {inode : Inode} (file : inode.kind ≠ .directory) :
    step (s.create temporary inode) (.removeFile temporary) =
      (.ok (), (s.create temporary inode).release temporary) := by
  unfold step
  dsimp only
  rw [Disk.create_stat_self]
  dsimp only
  rw [if_neg file]

/-- From the created file, which is the call's own. -/
theorem commitTemporary_meets {Q : Except BackendError Unit → Disk → Prop} (ne : name ≠ temporary)
    (usable : Usable euid name temporary mode s)
    (stages : ∀ t, Stage euid name temporary bytes mode s t → I t)
    (ended : ∀ r t, Ended euid name temporary bytes mode s r t → Q r t) :
    (commitTemporary (s.release temporary).inodes.length temporary name mode bytes).Meets disk
      (fun _ t => I t) Q (created euid temporary s [] 0o600) := by
  unfold commitTemporary
  apply Prog.Meets.bind
  apply Prog.Meets.attempt
  apply prepare_meets ne usable
  · exact fun written now => stages _ (.created written now)
  · exact stages _ .replaced
  · -- the new image is in place
    apply Prog.meets_perform
    · intro t torn
      cases torn
      exact ⟨stages _ .replaced, fun error => ended _ _ (.unsynced error)⟩
    · exact stages _ .replaced
    · exact fun _ => ended _ _ .activated
    · intro error never
      cases never
  · -- a step failed: the file is removed
    intro error written now
    apply Prog.Meets.bind
    apply Prog.Meets.attempt
    have file : (part euid written now).kind ≠ .directory := fun never => by cases never
    have removed := @step_remove temporary (s.release temporary) _ file
    apply Prog.meets_perform
    · intro t torn
      cases torn
      exact ⟨stages _ (.created written now), fun cleanup => ended _ _ (.left error cleanup _ _)⟩
    · show I (Activate.step _ _).2
      rw [removed]
      exact stages _ (.cleaned written now)
    · intro _
      show Prog.Meets disk _ _ Q (Activate.step _ _).2
      rw [removed]
      exact ended _ _ (.cleaned _ written now)
    · intro cleanup refused
      have never : (Activate.step _ _).1 = .error cleanup := refused
      rw [removed] at never
      cases never

/-- From the inspected target: the stale file goes, and the call's own is made and written. -/
theorem replace_meets {Q : Except BackendError Unit → Disk → Prop} (here : I s)
    (usable : s.entries (temporaryName name) = none ∨ Stale euid (temporaryName name) s →
      Usable euid name (temporaryName name) mode s)
    (stages : ∀ t, Usable euid name (temporaryName name) mode s →
      Stage euid name (temporaryName name) bytes mode s t → I t)
    (ended : ∀ r t, Usable euid name (temporaryName name) mode s →
      Ended euid name (temporaryName name) bytes mode s r t → Q r t)
    (refused : ∀ error, Q (.error error) s) :
    (retireStale (temporaryName name) euid >>= fun _ =>
      createTemporary (temporaryName name) euid >>= fun file =>
        commitTemporary file (temporaryName name) name mode bytes).Meets disk (fun _ t => I t) Q s := by
  -- from `u` on the name is free, or no file is created
  have rest (u : Disk) (from' : I u) (early : ∀ error, Q (.error error) u)
      (base : u.entries (temporaryName name) = none →
        u = s.release (temporaryName name) ∧ Usable euid name (temporaryName name) mode s) :
      Prog.Meets disk (fun _ t => I t) (createTemporary (temporaryName name) euid >>= fun file =>
        commitTemporary file (temporaryName name) name mode bytes) Q u := by
    apply Prog.Meets.bind
    apply createTemporary_meets from'
    · intro free
      obtain ⟨rfl, fit⟩ := base free
      exact stages _ fit (.created _ _)
    · intro free
      obtain ⟨rfl, fit⟩ := base free
      exact commitTemporary_meets (temporaryName_ne name) fit (fun t => stages t fit)
        fun r t => ended r t fit
    · exact early
  apply Prog.Meets.bind
  apply retireStale_meets here
  · exact fun mine => stages _ (usable (.inr mine)) .retired
  · apply rest s here refused
    intro free
    exact ⟨(Disk.release_of_free free).symm, usable (.inl free)⟩
  · intro mine
    apply rest _ (stages _ (usable (.inr mine)) .retired)
    · exact fun error => ended _ _ (usable (.inr mine)) (.early error)
    · exact fun _ => ⟨rfl, usable (.inr mine)⟩
  · exact refused

/-- The directory is opened only where its path is no link. -/
theorem openParent_meets {onError : IoError → BackendError} {Q : Except BackendError Unit → Disk → Prop}
    (here : I s) (opened : s.parentIsLink = false → Q (.ok ()) s)
    (failed : ∀ error, Q (.error (onError error)) s) :
    (Prog.perform .openParent onError : Activation BackendError Unit).Meets disk (fun _ t => I t) Q
      s := by
  have same : (step s .openParent).2 = s ∧ ((step s .openParent).1 = .ok () → s.parentIsLink = false) := by
    unfold step
    dsimp only
    split
    next => exact ⟨rfl, fun never => by cases never⟩
    next plain => exact ⟨rfl, fun _ => Bool.eq_false_iff.mpr plain⟩
  apply Prog.meets_perform
  · intro t torn
    cases torn
    exact ⟨here, failed⟩
  · show I (step s .openParent).2
    rw [same.1]
    exact here
  · intro done
    show Q _ (step s .openParent).2
    rw [same.1]
    exact opened (same.2 done)
  · intro error _
    show Q _ (step s .openParent).2
    rw [same.1]
    exact failed error

/-- **A call, however it is disturbed.** -/
theorem activate_meets {Q : Except BackendError Unit → Disk → Prop} (here : I s)
    (stages : ∀ name mode t, Called target bytes name →
      Usable euid name (temporaryName name) mode s →
        Stage euid name (temporaryName name) bytes mode s t → I t)
    (ended : ∀ name mode r t, Called target bytes name →
      Usable euid name (temporaryName name) mode s →
        Ended euid name (temporaryName name) bytes mode s r t → Q r t)
    (refused : ∀ error, Q (.error error) s) :
    (activateAppimage euid target bytes).Meets disk (fun _ t => I t) Q s := by
  unfold activateAppimage
  apply Prog.Meets.bind
  apply Prog.meets_ofExcept
  cases payload : validatePayload bytes with
  | error error => exact refused error
  | ok _ =>
  dsimp only
  apply Prog.Meets.bind
  apply Prog.meets_ofExcept
  unfold temporaryPath
  cases named : target.fileName with
  | none => exact refused _
  | some name =>
  dsimp only
  cases absolute : target.absolute with
  | false => exact refused _
  | true =>
  rw [if_pos rfl]
  dsimp only
  apply Prog.Meets.bind
  apply Prog.Meets.mapError
  apply symlinkMetadata_meets here
  rotate_left
  · exact fun error => refused _
  intro metadata there directory
  show Prog.Meets disk _ (if _ then _ else _) Q s
  split
  next => exact refused _
  next fit =>
  have regular : metadata.kind = .regular := by
    by_contra other
    exact fit (.inl other)
  have called : Called target bytes name := by
    refine ⟨payload, absolute, named, ?_⟩
    by_contra trailing
    have never := directory (decide_eq_true trailing)
    rw [regular] at never
    cases never
  have seen : s.content name = some (.regular, metadata.bytes, metadata.mode) := by
    unfold Disk.content
    rw [show s.stat name = some metadata from there, Option.map_some, regular]
  apply Prog.Meets.bind
  apply openParent_meets here
  · intro parent
    apply replace_meets here
    · exact fun free => ⟨⟨_, seen⟩, fun none => fit (.inr none), parent, free⟩
    · exact fun t => stages name metadata.mode t called
    · exact fun r t => ended name metadata.mode r t called
    · exact refused
  · exact fun error => refused _

/-! ### Undisturbed -/

theorem symlinkMetadata_exec {path : Named} {inode : Inode} (there : s.stat path.name = some inode)
    (plain : path.trailing = false) : (symlinkMetadata path).exec disk s = (.ok inode, s) := by
  have found : step s (.symlinkMetadata path) = (.ok (), s) := by
    unfold step
    dsimp only
    rw [there, plain]
    rfl
  unfold symlinkMetadata
  rw [Prog.exec_act]
  show Prog.exec disk (match (step s (.symlinkMetadata path)).1 with
    | .error error => .fail error
    | .ok () => _) (step s (.symlinkMetadata path)).2 = _
  rw [found]
  dsimp only
  rw [Prog.exec_look, there]
  rfl

theorem retireStale_exec (free : s.entries temporary = none ∨ Stale euid temporary s) :
    (retireStale temporary euid).exec disk s = (.ok (), s.release temporary) := by
  unfold retireStale
  rcases free with free | ⟨stale, there, regular, single, owner⟩
  · have nothing : (symlinkMetadata ⟨temporary, false⟩).exec disk s = (.error .notFound, s) := by
      have missing : step s (.symlinkMetadata ⟨temporary, false⟩) = (.error .notFound, s) := by
        unfold step
        dsimp only
        rw [Disk.stat_eq_none.mpr free]
      unfold symlinkMetadata
      rw [Prog.exec_act]
      show Prog.exec disk (match (step s (.symlinkMetadata ⟨temporary, false⟩)).1 with
        | .error error => .fail error
        | .ok () => _) (step s (.symlinkMetadata ⟨temporary, false⟩)).2 = _
      rw [missing]
      rfl
    rw [Prog.exec_bind, Prog.exec_attempt, nothing, Disk.release_of_free free]
    rfl
  · have mine : ¬(stale.kind ≠ .regular ∨ stale.links ≠ 1 ∨ stale.owner ≠ euid) := by
      simp [regular, single, owner]
    rw [Prog.exec_bind, Prog.exec_attempt, symlinkMetadata_exec there rfl]
    dsimp only
    rw [if_neg mine]
    apply Prog.exec_perform_ok
    show step s (.removeFile temporary) = _
    unfold step
    dsimp only
    rw [there]
    dsimp only
    rw [regular, if_neg (by decide)]

theorem createTemporary_exec (free : s.entries temporary = none) :
    (createTemporary temporary euid).exec disk s =
      (.ok s.inodes.length, s.create temporary (part euid [] 0o600)) := by
  have made : step s (.createNew temporary euid 0o600) =
      (.ok (), s.create temporary (part euid [] 0o600)) := by
    unfold step
    dsimp only
    rw [free]
    rfl
  unfold createTemporary
  rw [Prog.exec_look, Prog.exec_act]
  show Prog.exec disk (match (step s (.createNew temporary euid 0o600)).1 with
    | .error error => .fail (ioError "crear temporal exclusivo" error)
    | .ok () => .ret s.inodes.length) (step s (.createNew temporary euid 0o600)).2 = _
  rw [made]
  rfl

theorem prepare_exec (ne : name ≠ temporary) (usable : Usable euid name temporary mode s) :
    (prepare (s.release temporary).inodes.length temporary name mode bytes).exec disk
        (created euid temporary s [] 0o600) =
      (.ok (), replaced euid name temporary bytes mode s) := by
  have changed (written : List UInt8) (now : Nat) (f : Inode → Inode) :=
    @Disk.change_create (s.release temporary) temporary (part euid written now) f
  have written : disk.exec (.writeAll (s.release temporary).inodes.length bytes)
      (created euid temporary s [] 0o600) = (.ok (), created euid temporary s bytes 0o600) :=
    congrArg _ (changed [] 0o600 _)
  have allowed : disk.exec (.setPermissions (s.release temporary).inodes.length mode)
      (created euid temporary s bytes 0o600) = (.ok (), created euid temporary s bytes mode) :=
    congrArg _ (changed bytes 0o600 _)
  unfold prepare
  rw [Prog.exec_bind_ok (Prog.exec_perform_ok written),
    Prog.exec_bind_ok (Prog.exec_perform_ok allowed),
    Prog.exec_bind_ok (Prog.exec_perform_ok (rfl : disk.exec .syncAll _ = (.ok (), _)))]
  exact Prog.exec_perform_ok (step_rename ne usable bytes mode)

theorem Called.path (called : Called target bytes name) :
    temporaryPath target = .ok (name, temporaryName name) := by
  unfold temporaryPath
  rw [called.named]
  dsimp only
  rw [if_pos called.absolute]

theorem inspect_exec (called : Called target bytes name)
    (usable : Usable euid name temporary mode s) :
    ∃ metadata, ((symlinkMetadata (target.named name)).mapError (ioError "inspeccionar destino")).exec
        disk s = (.ok metadata, s) ∧
      ¬(metadata.kind ≠ .regular ∨ metadata.mode &&& 0o111 = 0) ∧ metadata.mode = mode := by
  obtain ⟨old, seen⟩ := usable.target
  obtain ⟨metadata, there, shown⟩ := Option.map_eq_some_iff.mp seen
  have regular : metadata.kind = .regular := congrArg Prod.fst shown
  have same : metadata.mode = mode := congrArg (fun shown => shown.2.2) shown
  have plain : (target.named name).trailing = false := by
    unfold Target.named
    simp [called.plain]
  refine ⟨metadata, ?_, ?_, same⟩
  · rw [Prog.exec_mapError, symlinkMetadata_exec there plain]
    rfl
  · rw [regular, same]
    simp [usable.executable]

theorem openParent_exec (usable : Usable euid name temporary mode s) :
    disk.exec .openParent s = (.ok (), s) := by
  show step s .openParent = _
  unfold step
  dsimp only
  rw [usable.parent]
  rfl

/-- **An undisturbed call.** -/
theorem activate_exec (called : Called target bytes name)
    (usable : Usable euid name (temporaryName name) mode s) :
    (activateAppimage euid target bytes).exec disk s =
      (.ok (), replaced euid name (temporaryName name) bytes mode s) := by
  obtain ⟨metadata, inspected, fit, same⟩ := inspect_exec called usable
  unfold activateAppimage
  rw [called.payload, called.path]
  simp only [Prog.ofExcept, Prog.ret_bind]
  rw [Prog.exec_bind_ok inspected, if_neg fit,
    Prog.exec_bind_ok (Prog.exec_perform_ok (openParent_exec usable)),
    Prog.exec_bind_ok (retireStale_exec usable.free),
    Prog.exec_bind_ok (createTemporary_exec Disk.release_entries_self), same]
  unfold commitTemporary
  rw [Prog.exec_bind, Prog.exec_attempt, prepare_exec (temporaryName_ne name) usable]
  rfl

end Call

/-! ## Runs -/

/-- Each process is another call for the same image. -/
def calls (euid : Nat) (target : Target) (bytes : List UInt8) (_ : Disk)
    (p : Activation BackendError Unit) : Prop := p = activateAppimage euid target bytes

/-- The new bytes, with the mode that the old ones had. -/
def Renewed (name : String) (bytes : List UInt8) (s t : Disk) : Prop :=
  ∃ old mode, s.content name = some (.regular, old, mode) ∧
    t.content name = some (.regular, bytes, mode)

/-- Another's, no plain file, or a file with more names. -/
def Foreign (euid : Nat) (temporary : String) (s : Disk) : Prop :=
  ∃ inode, s.stat temporary = some inode ∧
    (inode.kind ≠ .regular ∨ inode.links ≠ 1 ∨ inode.owner ≠ euid)

/-- The file a call on `s` created is gone. -/
def Cleaned (s t : Disk) : Prop := ∀ other, t.entries other ≠ some s.inodes.length

section Runs

variable {euid : Nat} {target : Target} {bytes : List UInt8} {name temporary : String} {mode : Nat}
  {s t : Disk}

theorem Usable.not_foreign (usable : Usable euid name temporary mode s) :
    ¬ Foreign euid temporary s := by
  rintro ⟨inode, there, foreign⟩
  rcases usable.free with free | ⟨stale, there', regular, single, owner⟩
  · rw [Disk.stat_eq_none.mpr free] at there
    cases there
  · rw [there] at there'
    cases there'
    rcases foreign with kind | links | other
    · exact kind regular
    · exact links single
    · exact other owner

theorem Usable.mode_eq {mode' : Nat} {temporary' : String} (usable : Usable euid name temporary mode s)
    (usable' : Usable euid name temporary' mode' s) : mode = mode' := by
  obtain ⟨old, seen⟩ := usable.target
  obtain ⟨old', seen'⟩ := usable'.target
  rw [seen] at seen'
  cases seen'
  rfl

/-- What holds whenever a process of a run was stopped. -/
def Between (euid : Nat) (target : Target) (bytes : List UInt8) (name : String) (s t : Disk) : Prop :=
  t = s ∨ ∃ mode, Called target bytes name ∧ Usable euid name (temporaryName name) mode s ∧
    Usable euid name (temporaryName name) mode t ∧
      (t.content name = s.content name ∨ t.content name = some (.regular, bytes, mode))

theorem Between.stage {u : Disk} (between : Between euid target bytes name s t)
    (called : Called target bytes name) (usable : Usable euid name (temporaryName name) mode t)
    (stage : Stage euid name (temporaryName name) bytes mode t u) :
    Between euid target bytes name s u := by
  have ne := temporaryName_ne name
  rcases between with rfl | ⟨mode', _, first, here, seen⟩
  · exact .inr ⟨mode, called, usable, stage.usable ne usable, stage.content ne⟩
  · obtain rfl := here.mode_eq usable
    refine .inr ⟨mode', called, first, stage.usable ne usable, ?_⟩
    rcases stage.content ne with same | new
    · rw [same]
      exact seen
    · exact .inr new

theorem run_between (named : target.fileName = some name) {c : Config Op Disk IoError BackendError}
    (run : Run disk (calls euid target bytes) (fun _ => True) (s, none) c) :
    Between euid target bytes name s c.1 := by
  refine Run.kept (fun u p between entry => ?_) run (.inl rfl)
  cases entry
  apply activate_meets between
  · intro name' mode t called usable stage
    obtain rfl : name = name' := Option.some.inj (named.symm.trans called.named)
    exact between.stage called usable stage
  · intros
    trivial
  · intro _
    trivial

/-- A call that succeeds has found the directory usable. -/
theorem usable_of_exec (named : target.fileName = some name)
    (done : ((activateAppimage euid target bytes).exec disk s).1 = .ok ()) :
    Called target bytes name ∧ ∃ mode, Usable euid name (temporaryName name) mode s := by
  have meets : (activateAppimage euid target bytes).Meets disk (fun _ _ => True)
      (fun r _ => r = .ok () → Called target bytes name ∧
        ∃ mode, Usable euid name (temporaryName name) mode s) s := by
    apply activate_meets trivial
    · intros
      trivial
    · intro name' mode r t called usable _ _
      obtain rfl : name = name' := Option.some.inj (named.symm.trans called.named)
      exact ⟨called, mode, usable⟩
    · intro error never
      cases never
  exact meets.exec done

theorem Between.retry (between : Between euid target bytes name s t)
    (named : target.fileName = some name)
    (done : ((activateAppimage euid target bytes).exec disk s).1 = .ok ()) :
    ∃ u, (activateAppimage euid target bytes).exec disk t = (.ok (), u) ∧ Renewed name bytes s u := by
  obtain ⟨called, mode, usable⟩ := usable_of_exec named done
  have here : Usable euid name (temporaryName name) mode t := by
    rcases between with rfl | ⟨mode', _, first, here, _⟩
    · exact usable
    · rwa [← first.mode_eq usable]
  obtain ⟨old, seen⟩ := usable.target
  exact ⟨_, activate_exec called here, old, mode, seen, replaced_content (temporaryName_ne name)⟩

theorem cleaned_of_inside (fewer : t.inodes.length ≤ s.inodes.length) : Cleaned s t := by
  intro other there
  have inside := t.inside other _ there
  omega

theorem cleaned_of_release (written : List UInt8) (now : Nat) :
    Cleaned s (((s.release temporary).create temporary (part euid written now)).release temporary) := by
  intro other there
  by_cases same : other = temporary
  · rw [same, Disk.release_entries_self] at there
    cases there
  · rw [Disk.release_entries_ne same] at there
    have there' : (s.release temporary).entries other = some s.inodes.length := by
      rw [← there]
      exact (Function.update_of_ne same ..).symm
    have inside := (s.release temporary).inside other _ there'
    rw [Disk.release_length] at inside
    omega

/-- How a call fails. -/
def Failed (name : String) (bytes : List UInt8) (s : Disk) (error : BackendError) (t : Disk) : Prop :=
  (t.content name = s.content name ∧
      (Cleaned s t ∨ ∃ io cleanup, error = rejected io (.error cleanup))) ∨
    (Renewed name bytes s t ∧
      ∃ io, error = ioError "nuevo AppImage activado; fsync del directorio falló" io)

theorem activate_failed (named : target.fileName = some name) {error : BackendError}
    (ended : Prog.Ends disk (activateAppimage euid target bytes) s (.error error) t) :
    Failed name bytes s error t := by
  have meets : (activateAppimage euid target bytes).Meets disk (fun _ _ => True)
      (fun r t => ∀ error, r = .error error → Failed name bytes s error t) s := by
    apply activate_meets trivial
    · intros
      trivial
    · intro name' mode r t called usable ended error failed
      obtain rfl : name = name' := Option.some.inj (named.symm.trans called.named)
      have ne := temporaryName_ne name
      cases ended with
      | activated => cases failed
      | unsynced io =>
        cases failed
        obtain ⟨old, seen⟩ := usable.target
        exact .inr ⟨⟨old, mode, seen, replaced_content ne⟩, io, rfl⟩
      | early =>
        refine .inl ⟨Disk.release_content_ne ne, .inl (cleaned_of_inside ?_)⟩
        rw [Disk.release_length]
      | cleaned _ written now =>
        refine .inl ⟨?_, .inl (cleaned_of_release written now)⟩
        rw [Disk.release_content_ne ne, Disk.create_content_ne ne, Disk.release_content_ne ne]
      | left io cleanup written now =>
        cases failed
        refine .inl ⟨?_, .inr ⟨io, cleanup, rfl⟩⟩
        rw [Disk.create_content_ne ne, Disk.release_content_ne ne]
    · intro error _ _
      exact .inl ⟨rfl, .inl (cleaned_of_inside (Nat.le_refl _))⟩
  exact meets.ends ended error rfl

end Runs

/-- **An image takes another's place at once.** After any kills and any calls, the target shows the old
content or the new bytes with the old mode; nothing changes where the temporary name is another's; a
call that would have succeeded succeeds; and a call that fails before the rename leaves the target
and removes its file, or says that it could not. -/
theorem activate_atomic (euid : Nat) (target : Target) (bytes : List UInt8) (name : String)
    (named : target.fileName = some name) (s : Disk) :
    (∀ c, Run disk (calls euid target bytes) (fun _ => True) (s, none) c →
      (c.1.content name = s.content name ∨ Renewed name bytes s c.1) ∧
        (Foreign euid (temporaryName name) s → c.1 = s) ∧
        (((activateAppimage euid target bytes).exec disk s).1 = .ok () →
          ∃ t, (activateAppimage euid target bytes).exec disk c.1 = (.ok (), t) ∧
            Renewed name bytes s t)) ∧
      ∀ error t, Prog.Ends disk (activateAppimage euid target bytes) s (.error error) t →
        Failed name bytes s error t := by
  refine ⟨fun c run => ?_, fun error t ended => activate_failed named ended⟩
  have between := run_between named run
  refine ⟨?_, ?_, between.retry named⟩
  · rcases between with same | ⟨mode, _, usable, _, old | new⟩
    · rw [same]
      exact .inl rfl
    · exact .inl old
    · obtain ⟨bytes', seen⟩ := usable.target
      exact .inr ⟨bytes', mode, seen, new⟩
  · intro foreign
    rcases between with same | ⟨mode, _, usable, _, _⟩
    · exact same
    · exact absurd foreign usable.not_foreign

/-! ### A cleanup that fails -/

/-- The write and then the removal of its file fail: the file stays, and the error says so. -/
theorem cleanup_fails {euid : Nat} {target : Target} {bytes : List UInt8} {name : String} {mode : Nat}
    {s : Disk} (called : Called target bytes name)
    (usable : Usable euid name (temporaryName name) mode s) (error cleanup : IoError) :
    Prog.Ends disk (activateAppimage euid target bytes) s
      (.error (rejected error (.error cleanup))) (created euid (temporaryName name) s [] 0o600) := by
  obtain ⟨metadata, inspected, fit, same⟩ := inspect_exec called usable
  unfold activateAppimage
  rw [called.payload, called.path]
  simp only [Prog.ofExcept, Prog.ret_bind]
  apply Prog.Ends.bind (.exec inspected)
  rw [if_neg fit]
  apply Prog.Ends.bind (.exec (Prog.exec_perform_ok (openParent_exec usable)))
  apply Prog.Ends.bind (.exec (retireStale_exec usable.free))
  apply Prog.Ends.bind (.exec (createTemporary_exec Disk.release_entries_self))
  have unwritten : torn (.writeAll (s.release (temporaryName name)).inodes.length bytes)
      (created euid (temporaryName name) s [] 0o600) (created euid (temporaryName name) s [] 0o600) := by
    refine ⟨0, ?_⟩
    rw [Disk.change_create]
    rfl
  have failed : Prog.Ends disk
      (prepare (s.release (temporaryName name)).inodes.length (temporaryName name) name metadata.mode
        bytes) (created euid (temporaryName name) s [] 0o600) (.error error)
      (created euid (temporaryName name) s [] 0o600) :=
    .bind_error (.fault unwritten (.fail error _))
  unfold commitTemporary
  apply Prog.Ends.bind failed.attempt
  have kept : Prog.Ends disk (Prog.perform (.removeFile (temporaryName name)) id : Activation IoError Unit)
      (created euid (temporaryName name) s [] 0o600) (.error cleanup)
      (created euid (temporaryName name) s [] 0o600) := .fault rfl (.fail cleanup _)
  apply Prog.Ends.bind kept.attempt
  exact .fail _ _

/-- A small image with the header that is asked for. -/
def smallImage : List UInt8 :=
  [0x7f, 0x45, 0x4c, 0x46, 2, 1, 1, 0, 0x41, 0x49, 2] ++ List.replicate 5 0 ++ [2, 0, 0, 0] ++
    [1, 0, 0, 0] ++ List.replicate 28 0 ++ [64, 0] ++ List.replicate 11 0

def installedPath : Target := ⟨true, ["opt", "RO.AppImage"]⟩

/-- The directory of an installed image, and nothing else. -/
def installedDisk : Disk where
  parentIsLink := false
  entries name := if name = "RO.AppImage" then some 0 else none
  inodes := [⟨.regular, [1, 2, 3], 0o755, 1, 1000⟩]
  inside name ino named := by
    split at named
    · cases named
      exact Nat.one_pos
    · cases named

theorem installed_called : Called installedPath smallImage "RO.AppImage" where
  payload := by decide
  absolute := rfl
  named := by decide
  plain := by decide

theorem installed_usable :
    Usable 1000 "RO.AppImage" (temporaryName "RO.AppImage") 0o755 installedDisk where
  target := ⟨[1, 2, 3], rfl⟩
  executable := by decide
  parent := rfl
  free := by
    left
    show (if temporaryName "RO.AppImage" = "RO.AppImage" then some 0 else none) = none
    rw [if_neg (temporaryName_ne _).symm]

/-- A call fails before the rename, and its file is still there. -/
theorem activate_leaves_file :
    ∃ error t, Prog.Ends disk (activateAppimage 1000 installedPath smallImage) installedDisk
        (.error error) t ∧
      t.content "RO.AppImage" = installedDisk.content "RO.AppImage" ∧
      t.entries (temporaryName "RO.AppImage") = some installedDisk.inodes.length := by
  refine ⟨_, _, cleanup_fails installed_called installed_usable (.other "ENOSPC") (.other "EIO"), ?_, ?_⟩
  · have ne := temporaryName_ne "RO.AppImage"
    rw [Disk.create_content_ne ne, Disk.release_content_ne ne]
  · rw [Disk.create_entries_self, Disk.release_length]

theorem activate_atomic_installed :
    installedPath.fileName = some "RO.AppImage" ∧
      ∃ t, (activateAppimage 1000 installedPath smallImage).exec disk installedDisk = (.ok (), t) ∧
        Renewed "RO.AppImage" smallImage installedDisk t := by
  have atomic := activate_atomic 1000 installedPath smallImage "RO.AppImage" installed_called.named
    installedDisk
  refine ⟨installed_called.named, (atomic.1 (installedDisk, none) .refl).2.2 ?_⟩
  rw [activate_exec installed_called installed_usable]

end RoLauncher.Updater.Activate
