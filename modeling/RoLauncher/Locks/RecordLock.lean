import Mathlib.Logic.Function.Basic
import Mathlib.Data.List.Basic

/-!
# POSIX record locks

A record lock belongs to a process and a file, not to a descriptor. A process
holds at most one lock on a file: `F_SETLK` replaces the one it has, or fails
when another process holds a conflicting one. Closing any descriptor of the
file gives up the lock of the process on it.
-/

namespace RoLauncher.Locks

inductive LockKind where
  | read
  | write
  deriving DecidableEq, Repr

/-- For each file, who holds which lock on it. -/
abbrev RecordLocks (File Pid : Type) := File → List (Pid × LockKind)

namespace RecordLocks

variable {File Pid : Type} [DecidableEq File] [DecidableEq Pid]

def held (locks : RecordLocks File Pid) (file : File) (pid : Pid) : Option LockKind :=
  ((locks file).find? fun holder => holder.1 = pid).map Prod.snd

def others (locks : RecordLocks File Pid) (file : File) (pid : Pid) : List (Pid × LockKind) :=
  (locks file).filter fun holder => holder.1 ≠ pid

/-- `fcntl(F_SETLK)`, where it does not fail. -/
def setLk (locks : RecordLocks File Pid) (file : File) (pid : Pid) (kind : LockKind) :
    Option (RecordLocks File Pid) :=
  if (locks.others file pid).any fun holder => kind = .write || holder.2 = .write then none
  else some (Function.update locks file ((pid, kind) :: locks.others file pid))

/-- `close` of a descriptor of the file. -/
def close (locks : RecordLocks File Pid) (file : File) (pid : Pid) : RecordLocks File Pid :=
  Function.update locks file (locks.others file pid)

/-- Two processes with a lock on one file both have a read lock. -/
def Exclusive (locks : RecordLocks File Pid) : Prop :=
  ∀ file p q k k', p ≠ q → locks.held file p = some k → locks.held file q = some k' →
    k = .read ∧ k' = .read

variable {locks locks' : RecordLocks File Pid} {file other : File} {pid q : Pid} {kind : LockKind}

omit [DecidableEq File] in
theorem find?_others (hq : q ≠ pid) :
    ((locks.others file pid).find? fun holder => holder.1 = q) =
      (locks file).find? fun holder => holder.1 = q := by
  rw [others, List.find?_filter]
  congr 1
  funext holder
  by_cases h : holder.1 = q
  · simp [h, hq]
  · simp [h]

omit [DecidableEq File] in
theorem find?_others_self :
    ((locks.others file pid).find? fun holder => holder.1 = pid) = none := by
  rw [List.find?_eq_none]
  intro holder mem
  simpa using (List.mem_filter.mp mem).2

theorem held_close_self : (locks.close file pid).held file pid = none := by
  rw [held, close, Function.update_self, find?_others_self]
  rfl

theorem held_close_process (hq : q ≠ pid) : (locks.close file pid).held other q =
    locks.held other q := by
  by_cases h : other = file
  · subst h
    rw [held, close, Function.update_self, find?_others hq, held]
  · rw [held, close, Function.update_of_ne h, held]

theorem held_close_file (h : other ≠ file) : (locks.close file pid).held other q =
    locks.held other q := by
  rw [held, close, Function.update_of_ne h, held]

theorem setLk_eq (h : locks.setLk file pid kind = some locks') :
    locks' = Function.update locks file ((pid, kind) :: locks.others file pid) ∧
      ∀ holder ∈ locks.others file pid, kind = .read ∧ holder.2 = .read := by
  unfold setLk at h
  split at h
  · cases h
  next free =>
    refine ⟨(Option.some.inj h).symm, fun holder mem => ?_⟩
    have compatible := fun hw => free (List.any_eq_true.mpr ⟨holder, mem, hw⟩)
    cases kind <;> cases hk : holder.2 <;> simp_all

theorem held_setLk_self (h : locks.setLk file pid kind = some locks') :
    locks'.held file pid = some kind := by
  rw [(setLk_eq h).1, held, Function.update_self]
  simp

theorem held_setLk_process (h : locks.setLk file pid kind = some locks') (hq : q ≠ pid) :
    locks'.held other q = locks.held other q := by
  rw [(setLk_eq h).1]
  by_cases ho : other = file
  · subst ho
    rw [held, Function.update_self, List.find?_cons_of_neg (by simpa using Ne.symm hq),
      find?_others hq, held]
  · rw [held, Function.update_of_ne ho, held]

theorem held_setLk_file (h : locks.setLk file pid kind = some locks') (ho : other ≠ file) :
    locks'.held other q = locks.held other q := by
  rw [(setLk_eq h).1, held, Function.update_of_ne ho, held]

omit [DecidableEq File] in
theorem mem_others_of_held (hq : q ≠ pid) (h : locks.held file q = some kind) :
    (q, kind) ∈ locks.others file pid := by
  obtain ⟨holder, found, rfl⟩ := Option.map_eq_some_iff.mp h
  have same : holder.1 = q := by simpa using List.find?_some found
  subst same
  exact List.mem_filter.mpr ⟨List.mem_of_find?_eq_some found, by simpa using hq⟩

theorem Exclusive.setLk (exclusive : locks.Exclusive)
    (h : locks.setLk file pid kind = some locks') : locks'.Exclusive := by
  -- Another process on the file is compatible with the new lock.
  have compatible : ∀ q k, q ≠ pid → locks'.held file q = some k → kind = .read ∧ k = .read := by
    intro q k hq hk
    rw [held_setLk_process h hq] at hk
    exact (setLk_eq h).2 _ (mem_others_of_held hq hk)
  intro f p q k k' hpq hk hk'
  by_cases hf : f = file
  · subst hf
    by_cases hp : p = pid
    · subst hp
      rw [held_setLk_self h] at hk
      cases hk
      exact compatible q k' hpq.symm hk'
    · by_cases hq : q = pid
      · subst hq
        rw [held_setLk_self h] at hk'
        cases hk'
        exact (compatible p k hp hk).symm
      · rw [held_setLk_process h hp] at hk
        rw [held_setLk_process h hq] at hk'
        exact exclusive f p q k k' hpq hk hk'
  · rw [held_setLk_file h hf] at hk hk'
    exact exclusive f p q k k' hpq hk hk'

theorem Exclusive.close (exclusive : locks.Exclusive) : (locks.close file pid).Exclusive := by
  have kept : ∀ f p k, (locks.close file pid).held f p = some k → locks.held f p = some k := by
    intro f p k hk
    by_cases hp : p = pid
    · by_cases hf : f = file
      · rw [hp, hf, held_close_self] at hk
        cases hk
      · rwa [held_close_file hf] at hk
    · rwa [held_close_process hp] at hk
  exact fun f p q k k' hpq hk hk' => exclusive f p q k k' hpq (kept _ _ _ hk) (kept _ _ _ hk')

end RecordLocks

end RoLauncher.Locks
