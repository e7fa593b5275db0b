import RoLauncher.Prefix.Classify

/-!
# The recovery table (`plan`)

`plan` is the whole decision of recovery: the class of the root, the class
of the backup, and the timestamped backups that could be restored give one
action or a refusal. It is pure, and it is the only place where an action is
chosen.

A sibling of the root is named by its file name here, where the source
carries its whole path: every sibling has the same parent.

The table is read back by rows and by actions. `plan_action` says, for each
action, which evidence alone can lead to it; every safety argument about
recovery starts there.
-/

namespace RoLauncher.Prefix

inductive RecoveryAction where
  | none
  | restoreBackup
  | discardPartialAndRestore
  | discardPartial
  | completeCommit (staleMarker backup : Bool)
  | restoreLegacyBackup (name : String)
  deriving DecidableEq, Repr

structure RecoveryOutcome where
  action : RecoveryAction
  removedEmptyBackup : Bool
  /-- Evidence that needs a human (legacy residue). -/
  notes : List String
  deriving DecidableEq, Repr

namespace RecoveryOutcome

/-- The canonical root now holds different data than before recovery. -/
def rootReplaced (outcome : RecoveryOutcome) : Bool :=
  match outcome.action with
  | .restoreBackup | .discardPartialAndRestore | .discardPartial | .restoreLegacyBackup _ => true
  | _ => false

def summary (outcome : RecoveryOutcome) (parent : Path) : String :=
  match outcome.action with
  | .none => ""
  | .restoreBackup | .discardPartialAndRestore => "El entorno anterior fue restaurado correctamente"
  | .discardPartial => "Se retiró el entorno incompleto creado por el launcher"
  | .completeCommit _ _ => "El entorno nuevo ya estaba confirmado y se conservó"
  | .restoreLegacyBackup name =>
    s!"El entorno anterior fue restaurado desde {Path.display (parent ++ [name])}"

end RecoveryOutcome

def plan (root : RootState) (backup : BackupState) (legacyRestorable : List String) :
    Except String RecoveryAction :=
  match root, backup with
  | _, .empty => .error "respaldo vacío sin retirar"
  | _, .foreign reason => .error s!"respaldo no verificable: {reason}"
  | .commitPending, _ =>
    .error "la confirmación del entorno nuevo pudo haber comenzado y no puede probarse que no terminó"
  | .absent, .restorable | .empty, .restorable | .pendingMarker, .restorable => .ok .restoreBackup
  | .absent, .removing | .empty, .removing | .pendingMarker, .removing | .provisioning, .removing =>
    .error "el respaldo estaba siendo retirado pero no hay un entorno nuevo confirmado"
  | .absent, .absent | .empty, .absent =>
    match legacyRestorable with
    | [only] => .ok (.restoreLegacyBackup only)
    | _ => .ok .none
  | .pendingMarker, .absent => .ok .discardPartial
  | .provisioning, .restorable => .ok .discardPartialAndRestore
  | .provisioning, .absent => .ok .discardPartial
  | .committed staleMarker, .absent =>
    if staleMarker then .ok (.completeCommit true false) else .ok .none
  | .committed staleMarker, .restorable | .committed staleMarker, .removing =>
    .ok (.completeCommit staleMarker true)
  | .legacyValid, .absent => .ok .none
  | .legacyValid, _ => .error "el entorno actual es legacy y además existe un respaldo"
  | .foreign _, .absent => .ok .none
  | .foreign reason, _ => .error s!"el entorno actual no es verificable: {reason}"

/-- A root without data, in the eyes of recovery. -/
def RootState.Vacant : RootState → Prop
  | .absent | .empty => True
  | _ => False

/-- A root that only this launcher's unfinished work fills. -/
def RootState.Partial : RootState → Prop
  | .pendingMarker | .provisioning => True
  | _ => False

instance : DecidablePred RootState.Vacant := fun r => by
  cases r <;> simp only [RootState.Vacant] <;> infer_instance

instance : DecidablePred RootState.Partial := fun r => by
  cases r <;> simp only [RootState.Partial] <;> infer_instance

theorem RootState.Partial.provisioning {root : RootState} (h : root.Partial)
    (other : root ≠ .pendingMarker) : root = .provisioning := by
  cases root <;> first | rfl | exact absurd rfl other | exact h.elim

/-- **What each action is chosen on.** -/
theorem plan_action {root : RootState} {backup : BackupState} {legacy : List String}
    {action : RecoveryAction} (h : plan root backup legacy = .ok action) :
    match action with
    | .none => backup = .absent ∧ ¬ root.Partial ∧ root ≠ .commitPending ∧ root ≠ .committed true ∧
        (root.Vacant → ∀ name, legacy ≠ [name])
    | .restoreBackup => backup = .restorable ∧ (root.Vacant ∨ root = .pendingMarker)
    | .discardPartialAndRestore => backup = .restorable ∧ root = .provisioning
    | .discardPartial => backup = .absent ∧ root.Partial
    | .completeCommit stale remove => root = .committed stale ∧
        (remove = true → backup = .restorable ∨ backup = .removing) ∧
        (remove = false → backup = .absent ∧ stale = true)
    | .restoreLegacyBackup name => backup = .absent ∧ root.Vacant ∧ legacy = [name] := by
  cases root <;> cases backup <;> simp only [plan] at h <;>
    first
    | cases h <;> simp [RootState.Vacant, RootState.Partial]
    | (rcases legacy with _ | ⟨only, _ | ⟨second, rest⟩⟩ <;> cases h <;>
        simp [RootState.Vacant, RootState.Partial])
    | (split at h <;> cases h <;> simp_all [RootState.Vacant, RootState.Partial])

/-- A pending confirmation is never acted on. -/
theorem plan_commitPending (backup : BackupState) (legacy : List String) :
    ∃ reason, plan .commitPending backup legacy = .error reason := by
  cases backup <;> exact ⟨_, rfl⟩

/-- A root nobody can vouch for is left alone: no action, or a refusal. -/
theorem plan_foreign {reason : String} {backup : BackupState} {legacy : List String}
    {action : RecoveryAction} (h : plan (.foreign reason) backup legacy = .ok action) :
    action = .none ∧ backup = .absent := by
  cases backup <;> simp only [plan] at h <;> cases h
  exact ⟨rfl, rfl⟩

/-- Without a backup every root but a pending confirmation has an action. -/
theorem plan_absent {root : RootState} (legacy : List String) (h : root ≠ .commitPending) :
    ∃ action, plan root .absent legacy = .ok action := by
  cases root with
  | commitPending => exact absurd rfl h
  | absent | empty => rcases legacy with _ | ⟨only, _ | ⟨second, rest⟩⟩ <;> exact ⟨_, rfl⟩
  | committed stale => cases stale <;> exact ⟨_, rfl⟩
  | _ => exact ⟨_, rfl⟩

end RoLauncher.Prefix
