import RoLauncher.Contracts.Launch
import RoLauncher.Tables.Table

/-!
# Installation drafts (`models/installation.rs`, `tools/installations/repository.rs`)

Every operation on the registry is one transaction under its lock: the drafts
are loaded by the first one, and what a transaction changes it saves before it
keeps it. The answers of the file are an argument; the file itself is not
read again, so it is not part of the state.
-/

namespace RoLauncher.Installations

open Contracts.Backend (trim)
open Tables

/-! ## Values -/

/-- The parts of a path between its slashes. -/
def parts (path : List Char) : List (List Char) := path.splitOn '/'

def absolutePath (value : String) : Except String Unit :=
  let chars := value.toList
  if chars.head? ≠ some '/' ∨ value = "/" ∨ chars.contains '\x00' ∨ value.utf8ByteSize > 4096 ∨
      trim value ≠ chars ∨ (parts chars).contains ['.', '.'] then
    .error "Selecciona una ruta absoluta válida"
  else .ok ()

/-- The last part that names something: empty ones and single dots do not count. -/
def fileName (path : List Char) : Option (List Char) :=
  ((parts path).filter fun part => part ≠ [] ∧ part ≠ ['.']).getLast?

/-- What stands after the last dot, when something stands before it. -/
def extension (path : List Char) : Option (List Char) :=
  (fileName path).bind fun name =>
    let after := (name.reverse.takeWhile (· ≠ '.')).reverse
    let before := name.length - after.length - 1
    if name.contains '.' ∧ before ≠ 0 then some after else none

def validateExe (value : String) : Except String Unit := do
  absolutePath value
  if (extension value.toList).any fun extension => extension.map Char.toLower == ['e', 'x', 'e'] then
    .ok ()
  else .error "Selecciona un archivo .exe"

def validateName (value : String) : Except String Unit :=
  if (trim value).isEmpty ∨ value.utf8ByteSize > 80 ∨ value.toList.contains '\x00' then
    .error "El nombre debe tener entre 1 y 80 caracteres"
  else .ok ()

structure InstallationBinding where
  installationId : String
  prefixPath : String
  prefixFingerprint : String
  deriving DecidableEq, Repr

inductive InstallationStatus where
  | pending
  | preparing
  | running
  | stopping
  | awaitingClient
  | failed
  | interrupted
  | completed
  deriving DecidableEq, Repr

def InstallationStatus.isActive : InstallationStatus → Bool
  | .preparing | .running | .stopping => true
  | _ => false

def InstallationStatus.canRestart : InstallationStatus → Bool
  | .pending | .failed | .interrupted | .awaitingClient => true
  | _ => false

structure InstallationDraft where
  id : String
  serverId : String
  name : String
  installerPath : String
  destinationPath : Option String
  runner : String
  requireWebview2 : Bool
  status : InstallationStatus
  binding : Option InstallationBinding
  exitCode : Option Int
  message : Option String
  deriving DecidableEq, Repr

structure CreateInstallation where
  name : String
  installerPath : String
  destinationPath : Option String
  runner : String
  requireWebview2 : Bool
  deriving DecidableEq, Repr

def isAsciiHexDigit (c : Char) : Bool :=
  c.isDigit || (c.val ≥ 'a'.val && c.val ≤ 'f'.val) || (c.val ≥ 'A'.val && c.val ≤ 'F'.val)

section Validation

-- `isUuid`: whether `Uuid::parse_str` accepts a text.
variable (isUuid : String → Bool)

def InstallationBinding.validate (binding : InstallationBinding) : Except String Unit := do
  if !isUuid binding.installationId then .error "El identificador de instalación no es válido"
  else
    absolutePath binding.prefixPath
    if binding.prefixFingerprint.utf8ByteSize ≠ 64 ∨
        !binding.prefixFingerprint.toList.all isAsciiHexDigit then
      .error "La identidad del entorno de instalación no es válida"
    else .ok ()

def InstallationDraft.validate (draft : InstallationDraft) : Except String Unit := do
  if !isUuid draft.id then .error "La instalación no tiene un ID válido"
  else if draft.serverId ≠ "installed-" ++ draft.id then
    .error "La instalación no conserva el identificador de servidor"
  else
    validateName draft.name
    validateExe draft.installerPath
    match draft.destinationPath with
    | some destination => absolutePath destination
    | none => .ok ()
    absolutePath draft.runner
    match draft.binding with
    | some binding => do
      binding.validate isUuid
      if binding.installationId ≠ draft.id then .error "El entorno pertenece a otra instalación"
      else .ok ()
    | none => .ok ()
    if draft.status ∈ [.running, .awaitingClient, .completed] ∧ draft.binding = none then
      .error "La instalación no tiene un entorno verificado"
    else if draft.status ∈ [.awaitingClient, .completed] ∧ draft.exitCode ≠ some 0 then
      .error "El instalador no terminó correctamente"
    else .ok ()

def validateDrafts (drafts : List InstallationDraft) : Except String Unit := do
  drafts.forM fun draft => draft.validate isUuid
  if (drafts.map InstallationDraft.id).Nodup then .ok () else .error "Hay instalaciones duplicadas"

end Validation

/-! ## The registry -/

structure State where
  drafts : Option (List InstallationDraft)
  /-- For each running execution, whether it was told to stop. -/
  active : Table String Bool
  closing : Bool
  relaunchAdmissionClosed : Bool

/-- What the file answers during one transaction. -/
structure StoreIo where
  /-- The drafts found, if they have to be loaded. -/
  read : Except String (List InstallationDraft)
  /-- Saving the drafts that were interrupted by the last session. -/
  recovered : Except String Unit
  saved : Except String Unit

/-- The drafts of the list, the first one with the identifier changed. -/
def changeFirst (id : String) (change : InstallationDraft → InstallationDraft) :
    List InstallationDraft → List InstallationDraft
  | [] => []
  | draft :: rest =>
    if draft.id = id then change draft :: rest else draft :: changeFirst id change rest

/-- A draft that was active when the last session ended. -/
def interruptedBefore (draft : InstallationDraft) : InstallationDraft :=
  if draft.status.isActive then
    { draft with
      status := .interrupted
      message := some "La sesión anterior se interrumpió. Los archivos se conservaron; puedes volver a ejecutar el instalador" }
  else draft

namespace State

def new : State := ⟨none, ∅, false, false⟩

/-- The drafts in memory. -/
def list (s : State) : List InstallationDraft := s.drafts.getD []

def find (s : State) (id : String) : Option InstallationDraft :=
  s.list.find? fun draft => draft.id = id

section Transactions

variable (isUuid : String → Bool) (io : StoreIo)

/-- Drafts that were active are saved as interrupted. -/
def saveRecovered (drafts : List InstallationDraft) : Except String Unit :=
  if drafts.any fun draft => draft.status.isActive then io.recovered else .ok ()

/-- The first transaction loads the drafts. -/
def load (s : State) : Except String State :=
  match s.drafts with
  | some _ => .ok s
  | none => do
    let drafts ← io.read
    validateDrafts isUuid drafts
    saveRecovered io drafts
    .ok { s with drafts := some (drafts.map interruptedBefore) }

def transaction {α : Type} (mutate : State → Except String α × State) (s : State) :
    Except String α × State :=
  match s.load isUuid io with
  | .error e => (.error e, s)
  | .ok loaded => mutate loaded

/-- What is saved is kept, and what is not is not. -/
def save {α : Type} (next : List InstallationDraft) (answer : α) (kept : State → State) (s : State) :
    Except String α × State :=
  match io.saved with
  | .error e => (.error e, s)
  | .ok () => (.ok answer, kept { s with drafts := some next })

def get (id : String) : State → Except String InstallationDraft × State :=
  transaction isUuid io fun s =>
    match s.find id with
    | some draft => (.ok draft, s)
    | none => (.error "La instalación no existe", s)

/-- The draft of a new installation, under an identifier of its own. -/
def newDraft (id : String) (input : CreateInstallation) : InstallationDraft where
  serverId := "installed-" ++ id
  id := id
  name := String.ofList (trim input.name)
  installerPath := input.installerPath
  destinationPath := input.destinationPath
  runner := input.runner
  requireWebview2 := input.requireWebview2
  status := .pending
  binding := none
  exitCode := none
  message := none

/-- `create`, given what it finds of the runner and of the installer. -/
def create (id : String) (input : CreateInstallation) (runnerKnown installerExists : Bool)
    (s : State) : Except String InstallationDraft × State :=
  if !runnerKnown then
    (.error "Selecciona nndsk-ro-proton o Wine 7.16 del catálogo administrado", s)
  else
    let draft := newDraft id input
    match draft.validate isUuid with
    | .error e => (.error e, s)
    | .ok () =>
      if !installerExists then (.error "El instalador seleccionado no existe", s)
      else
        transaction isUuid io (fun s =>
          if s.closing || s.relaunchAdmissionClosed then (.error "El launcher se está cerrando", s)
          else save io (s.list ++ [draft]) draft (fun s => s) s) s

def update (id : String)
    (mutate : InstallationDraft → InstallationDraft) : State → Except String InstallationDraft × State :=
  transaction isUuid io fun s =>
    match s.find id with
    | none => (.error "La instalación no existe", s)
    | some draft =>
      match (mutate draft).validate isUuid with
      | .error e => (.error e, s)
      | .ok () => save io (changeFirst id mutate s.list) (mutate draft) (fun s => s) s

/-- The draft of an execution that begins. -/
def preparing (draft : InstallationDraft) : InstallationDraft :=
  { draft with status := .preparing, exitCode := none, message := none }

/-- The transaction of `reserve`. -/
def reserve (id : String) : State → Except String InstallationDraft × State :=
  transaction isUuid io fun s =>
    if s.closing || s.relaunchAdmissionClosed then (.error "El launcher se está cerrando", s)
    else if (s.active.lookup id).isSome then (.error "La instalación ya está en curso", s)
    else
      match s.find id with
      | none => (.error "La instalación no existe", s)
      | some draft =>
        if !draft.status.canRestart then
          (.error "Esta instalación no necesita ejecutarse de nuevo", s)
        else
          save io (changeFirst id preparing s.list) (preparing draft)
            (fun s => { s with active := s.active.insert id false }) s

/-- The draft of an execution that was told to stop. -/
def stopping (draft : InstallationDraft) : InstallationDraft :=
  { draft with
    status := .stopping
    message := some "Deteniendo la instalación. Si el entorno se está preparando, se cerrará al finalizar ese paso" }

def cancel (id : String) : State → Except String InstallationDraft × State :=
  transaction isUuid io fun s =>
    match s.active.lookup id with
    | none => (.error "La instalación no está en ejecución", s)
    | some _ =>
      -- The execution is told even if its new status cannot be saved.
      let s := { s with active := s.active.insert id true }
      match s.find id with
      | none => (.error "La instalación no existe", s)
      | some draft => save io (changeFirst id stopping s.list) (stopping draft) (fun s => s) s

def isActive (id : String) : State → Except String Bool × State :=
  transaction isUuid io fun s => (.ok (s.active.lookup id).isSome, s)

end Transactions

def requestShutdown (s : State) : State :=
  { s with closing := true, active := s.active.mapValues fun _ => true }

def closeAdmissionIfIdle (s : State) : Except String Unit × State :=
  if s.closing || s.relaunchAdmissionClosed then (.error "El launcher se está cerrando", s)
  else if s.active.entries ≠ [] then
    (.error "Espera a que finalicen las instalaciones antes de reiniciar", s)
  else (.ok (), { s with relaunchAdmissionClosed := true })

/-- Dropping the `InstallationAdmission` that `close_admission_if_idle` answers with. -/
def reopenAdmission (s : State) : State := { s with relaunchAdmissionClosed := false }

/-- The draft of an execution that ended without a result. -/
def interruptActive (draft : InstallationDraft) : InstallationDraft :=
  if draft.status.isActive then
    { draft with
      status := .interrupted
      message := some "La ejecución se interrumpió. Se conservaron los archivos y el entorno" }
  else draft

/-- The draft whose recovery could not be saved. -/
def interruptUnsaved (error : String) (draft : InstallationDraft) : InstallationDraft :=
  { draft with
    status := .interrupted
    message := some s!"La instalación se interrumpió y no se pudo guardar su estado: {error}" }

/-- The last section of the drop of an `ActiveInstallation`. -/
def endExecution (id : String) (recovery : Except String Unit) (s : State) : State :=
  let drafts := match recovery with
    | .ok () => s.drafts
    | .error error => s.drafts.map (changeFirst id (interruptUnsaved error))
  { s with drafts, active := s.active.erase id }

end State

end RoLauncher.Installations
