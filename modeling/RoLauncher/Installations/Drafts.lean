import RoLauncher.Installations.Repository
import Mathlib.Logic.Function.Basic
import Mathlib.Logic.Relation

/-!
# Executions and confirmations (`tools/installations/session.rs`)

A reservation starts an execution, which writes to its draft and then drops
its guard: it looks at the draft, recovers it if it is still active, and only
then leaves the active set. A confirmation holds the admission of its draft
from its first look to its last write. Each is a job that takes one
transaction a step, among cancellations, closures and other jobs.
-/

namespace RoLauncher.Installations

open Tables

/-- What an execution writes to its draft. -/
inductive ExecutionUpdate where
  | bound (value : InstallationBinding)
  | running
  | exited (code : Int)
  | interrupted
  | failed (message : String)

def ExecutionUpdate.apply : ExecutionUpdate → InstallationDraft → InstallationDraft
  | .bound value, draft => { draft with binding := some value }
  | .running, draft =>
    if draft.status ≠ .stopping then { draft with status := .running } else draft
  | .exited code, draft => { draft with
      exitCode := some code
      status := if code = 0 then .awaitingClient else .failed
      message := some (if code = 0 then
        "El instalador se cerró. Esto no confirma que el juego esté instalado. Selecciona el cliente o vuelve a abrir el instalador"
      else s!"El instalador terminó con código {code}. Los archivos y el entorno se conservaron") }
  | .interrupted, draft => { draft with
      status := .interrupted
      message := some "La instalación fue detenida. Puedes volver a ejecutarla; sus archivos y configuración se conservaron" }
  | .failed message, draft => { draft with status := .failed, message := some message }

/-- Where a job stands: each name is what it does next, or is in the middle of. -/
inductive JobPhase where
  /-- `reserve` holds the admission; its transaction is next. -/
  | reserving
  /-- The reservation is made; the admission is still held. -/
  | reserved
  | executing
  /-- The execution has ended, and its guard looks at the draft. -/
  | dropping
  /-- The draft was active: it is recovered. -/
  | recovering
  /-- Nothing more is written, and the draft leaves the active set. -/
  | settled (recovery : Except String Unit)
  /-- `confirm` holds the admission; it reads the draft. -/
  | confirming
  | fetched (draft : InstallationDraft)
  /-- The checks of `confirm` run, and its write follows. -/
  | finalizing
  /-- The call is over; its admission goes last. -/
  | leaving

/-- The phase belongs to an `ActiveInstallation`. -/
def JobPhase.owns : JobPhase → Bool
  | .reserved | .executing | .dropping | .recovering | .settled _ => true
  | _ => false

/-- The phase holds the admission `installation-confirm`. -/
def JobPhase.holds : JobPhase → Bool
  | .reserving | .reserved | .confirming | .fetched _ | .finalizing | .leaving => true
  | _ => false

structure Job where
  id : String
  phase : JobPhase

structure System where
  state : State
  /-- The identifiers whose admission is held. -/
  guards : List String
  jobs : Nat → Option Job

inductive Act where
  | create (id : String) (input : CreateInstallation) (runnerKnown installerExists : Bool)
      (io : StoreIo)
  | get (id : String) (io : StoreIo)
  | cancel (id : String) (io : StoreIo)
  | requestShutdown
  | closeAdmission
  | reopenAdmission
  /-- `reserve` is called, and takes the admission. -/
  | reserve (job : Nat) (id : String)
  /-- `confirm` is called, and takes the admission. -/
  | confirm (job : Nat) (id : String)
  /-- An execution writes to its draft. -/
  | execute (job : Nat) (update : ExecutionUpdate) (io : StoreIo)
  /-- A job takes its next transaction. -/
  | transact (job : Nat) (io : StoreIo)
  /-- A job goes on without one: an admission is released, an execution ends, the checks of
  `confirm` fail, or a draft leaves the active set. -/
  | proceed (job : Nat)

/-- The answers of the file, for the acts that ask it. -/
def Act.io : Act → Option StoreIo
  | .create _ _ _ _ io | .get _ io | .cancel _ io | .execute _ _ io | .transact _ io => some io
  | _ => none

namespace System

def new : System := ⟨.new, [], fun _ => none⟩

def setJob (s : System) (job : Nat) (id : String) (phase : JobPhase) : System :=
  { s with jobs := Function.update s.jobs job (some ⟨id, phase⟩) }

def endJob (s : System) (job : Nat) : System :=
  { s with jobs := Function.update s.jobs job none }

/-- A call begins when its admission is free. -/
def beginJob (s : System) (job : Nat) (id : String) (phase : JobPhase) : System :=
  if (s.jobs job).isSome || s.guards.contains id then s
  else { s.setJob job id phase with guards := id :: s.guards }

def releaseGuard (s : System) (id : String) : System := { s with guards := s.guards.erase id }

section Steps

variable (isUuid : String → Bool)

/-- The next transaction of a job, and the phase that it leaves. -/
def transactJob (io : StoreIo) (id : String) (s : State) : JobPhase → Option (JobPhase × State)
  | .reserving =>
    match s.reserve isUuid io id with
    | (.ok _, s) => some (.reserved, s)
    | (.error _, s) => some (.leaving, s)
  | .dropping =>
    match s.get isUuid io id with
    | (.ok draft, s) => some (if draft.status.isActive then .recovering else .settled (.ok ()), s)
    | (.error _, s) => some (.settled (.ok ()), s)
  | .recovering =>
    match s.update isUuid io id State.interruptActive with
    | (.ok _, s) => some (.settled (.ok ()), s)
    | (.error e, s) => some (.settled (.error e), s)
  | .confirming =>
    match s.get isUuid io id with
    | (.ok draft, s) => some (.fetched draft, s)
    | (.error _, s) => some (.leaving, s)
  | .fetched draft =>
    match s.isActive isUuid io id with
    | (.ok false, s) =>
      some (if draft.status ∈ [.awaitingClient, .completed] then .finalizing else .leaving, s)
    | (_, s) => some (.leaving, s)
  | .finalizing =>
    some (.leaving, (s.update isUuid io id fun draft => { draft with status := .completed }).2)
  | _ => none

def perform (act : Act) (s : System) : System :=
  match act with
  | .create id input runnerKnown installerExists io =>
    { s with state := (s.state.create isUuid io id input runnerKnown installerExists).2 }
  | .get id io => { s with state := (s.state.get isUuid io id).2 }
  | .cancel id io => { s with state := (s.state.cancel isUuid io id).2 }
  | .requestShutdown => { s with state := s.state.requestShutdown }
  | .closeAdmission => { s with state := s.state.closeAdmissionIfIdle.2 }
  | .reopenAdmission => { s with state := s.state.reopenAdmission }
  | .reserve job id => s.beginJob job id .reserving
  | .confirm job id => s.beginJob job id .confirming
  | .execute job update io =>
    match s.jobs job with
    | some ⟨id, .executing⟩ => { s with state := (s.state.update isUuid io id update.apply).2 }
    | _ => s
  | .transact job io =>
    match s.jobs job with
    | some ⟨id, phase⟩ =>
      match transactJob isUuid io id s.state phase with
      | some (phase, state) => { s.setJob job id phase with state }
      | none => s
    | none => s
  | .proceed job =>
    match s.jobs job with
    | some ⟨id, .reserved⟩ => (s.setJob job id .executing).releaseGuard id
    | some ⟨id, .executing⟩ => s.setJob job id .dropping
    | some ⟨id, .settled recovery⟩ =>
      { s.endJob job with state := s.state.endExecution id recovery }
    | some ⟨id, .finalizing⟩ => s.setJob job id .leaving
    | some ⟨id, .leaving⟩ => (s.endJob job).releaseGuard id
    | _ => s

end Steps

end System

/-- A job's transaction is one operation of the registry. -/
theorem transactJob_state {isUuid : String → Bool} {io : StoreIo} {id : String} {phase phase' : JobPhase} {s t : State}
    (next : System.transactJob isUuid io id s phase = some (phase', t)) :
    (phase = .reserving ∧ t = (s.reserve isUuid io id).2) ∨ t = (s.get isUuid io id).2 ∨
      (phase = .recovering ∧ t = (s.update isUuid io id State.interruptActive).2) ∨
      t = (s.isActive isUuid io id).2 ∨
      phase = .finalizing ∧
        t = (s.update isUuid io id fun draft => { draft with status := .completed }).2 := by
  cases phase with
  | reserving =>
    simp only [System.transactJob] at next
    split at next
    all_goals
      next done =>
      cases next
      exact .inl ⟨rfl, by rw [done]⟩
  | dropping =>
    simp only [System.transactJob] at next
    split at next
    all_goals
      next done =>
      cases next
      exact .inr (.inl (by rw [done]))
  | recovering =>
    simp only [System.transactJob] at next
    split at next
    all_goals
      next done =>
      cases next
      exact .inr (.inr (.inl ⟨rfl, by rw [done]⟩))
  | confirming =>
    simp only [System.transactJob] at next
    split at next
    all_goals
      next done =>
      cases next
      exact .inr (.inl (by rw [done]))
  | fetched draft =>
    simp only [System.transactJob] at next
    split at next
    all_goals
      next done =>
      cases next
      exact .inr (.inr (.inr (.inl (by rw [done]))))
  | finalizing =>
    cases next
    exact .inr (.inr (.inr (.inr ⟨rfl, rfl⟩)))
  | _ => cases next

end RoLauncher.Installations
