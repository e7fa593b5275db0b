import RoLauncher.Locks.OperationLock
import Mathlib.Data.Set.Function

/-!
# What operation guards exclude

A process's share in a key is its registry entry, its guards of the key and
its record lock: a `View`. Between two critical sections a view is one of
three (`Settled`): nothing, shared guards behind a read lock, or one exclusive
guard behind a write lock. Inside a critical section one view of its process
is in between. The record locks of two processes are compatible, so their
guards are.
-/

namespace RoLauncher.Locks

open RoLauncher.Threads

variable {Pid : Type} [DecidableEq Pid]

/-! ## Views -/

/-- A process's share in a key. -/
structure View where
  entry : Option LockState
  shared : Nat
  exclusive : Nat
  lock : Option LockKind

def System.view (host : LockHost) (s : System Pid) (pid : Pid) (key : String) : View where
  entry := s.registry pid key
  shared := s.guards.count (pid, { key, shared := true })
  exclusive := s.guards.count (pid, { key, shared := false })
  lock := s.locks.held (host.lockFilePath key) pid

/-- Where a process is with a key. -/
inductive Phase where
  | free
  /-- It has made the entry. -/
  | entered
  /-- It has the record lock. -/
  | locked (kind : LockKind)
  /-- The entry has the descriptor of the lock. -/
  | kept (kind : LockKind)
  | shared (others : Nat)
  | exclusive
  /-- The entry is removed, and the descriptor not closed yet. -/
  | removed (kind : LockKind)

def Phase.view (file : File) : Phase → View
  | .free => ⟨none, 0, 0, none⟩
  | .entered => ⟨some {}, 0, 0, none⟩
  | .locked kind => ⟨some {}, 0, 0, some kind⟩
  | .kept kind => ⟨some { crossProcess := some file }, 0, 0, some kind⟩
  | .shared others => ⟨some { readers := others + 1, crossProcess := some file }, others + 1, 0,
      some .read⟩
  | .exclusive => ⟨some { writer := true, crossProcess := some file }, 0, 1, some .write⟩
  | .removed kind => ⟨none, 0, 0, some kind⟩

/-- The phases between two critical sections. -/
inductive Settled : Phase → Prop
  | free : Settled .free
  | shared (others : Nat) : Settled (.shared others)
  | exclusive : Settled .exclusive

section Discipline

variable (host : LockHost) (keys : Set String)

abbrev LockHost.file (key : String) : File := { path := host.lockFilePath key }

/-- Process and key are in this phase. -/
def InPhase (s : System Pid) (pid : Pid) (key : String) (phase : Phase) : Prop :=
  s.view host pid key = phase.view (host.file key)

structure Inv (s : System Pid) : Prop where
  exclusive : s.locks.Exclusive
  phases : ∀ pid, ∀ key ∈ keys, ∃ phase, InPhase host s pid key phase ∧
    (s.mutex pid = none → Settled phase)
  strange : ∀ pid key, key ∉ keys → s.registry pid key = none ∧
    ∀ guard : OperationGuard, guard.key = key → (pid, guard) ∉ s.guards

/-- A process whose shares in the keys did not change. -/
def SameViews (pid : Pid) (s s' : System Pid) : Prop :=
  ∀ key ∈ keys, s'.view host pid key = s.view host pid key

/-- What a thread relies on: its process is its own while it has the mutex. -/
def Rely (me : Thread Pid) (s s' : System Pid) : Prop :=
  s.mutex me.1 = some me.2 → s'.mutex me.1 = some me.2 ∧ SameViews host keys me.1 s s'

/-- What a thread guarantees: other processes are untouched, and its own one
too unless it has the mutex. -/
def Guarantee (me : Thread Pid) (s s' : System Pid) : Prop :=
  (∀ pid, pid ≠ me.1 → s'.mutex pid = s.mutex pid ∧ SameViews host keys pid s s') ∧
    (s.mutex me.1 ≠ some me.2 → SameViews host keys me.1 s s' ∧
      (s.mutex me.1 ≠ none → s'.mutex me.1 = s.mutex me.1))

def discipline : Discipline (Thread Pid) (System Pid) where
  inv := Inv host keys
  rely := Rely host keys
  guar := Guarantee host keys
  refl _ _ := fun h => ⟨h, fun _ _ => rfl⟩
  trans t s s' s'' first second h := by
    obtain ⟨mine, same⟩ := first h
    obtain ⟨mine', same'⟩ := second mine
    exact ⟨mine', fun key hk => (same' key hk).trans (same key hk)⟩
  others t u s s' hne guar h := by
    obtain ⟨far, near⟩ := guar
    by_cases hp : u.1 = t.1
    · have other : s.mutex t.1 ≠ some t.2 := by
        intro mine
        rw [hp, mine] at h
        exact hne (Prod.ext hp.symm (Option.some.inj h))
      have taken : s.mutex t.1 ≠ none := by
        rw [← hp, h]
        simp
      obtain ⟨same, still⟩ := near other
      rw [hp] at h ⊢
      exact ⟨(still taken).trans h, same⟩
    · obtain ⟨still, same⟩ := far u.1 hp
      exact ⟨still.trans h, same⟩

/-- The thread has the mutex, its key is in the phase, and its other keys are settled. -/
structure Owns (me : Thread Pid) (key : String) (phase : Phase) (s : System Pid) : Prop where
  mutex : s.mutex me.1 = some me.2
  mine : InPhase host s me.1 key phase
  rest : ∀ key' ∈ keys, key' ≠ key → ∃ phase', InPhase host s me.1 key' phase' ∧ Settled phase'

variable {host keys} {me : Thread Pid} {key : String} {phase phase' : Phase} {s s' : System Pid}

theorem owns_stable (hk : key ∈ keys) :
    Task.Stable ((discipline host keys).rely me) (Owns host keys me key phase) := by
  intro s s' h moved
  obtain ⟨mutex, same⟩ := moved h.mutex
  refine ⟨mutex, (same key hk).trans h.mine, fun key' hk' hne => ?_⟩
  obtain ⟨phase', here, settled⟩ := h.rest key' hk' hne
  exact ⟨phase', (same key' hk').trans here, settled⟩

/-- **A step under the mutex** that changes one view of its process. -/
theorem owns_step (inv : Inv host keys s) (h : Owns host keys me key phase s) (hk : key ∈ keys)
    (mutex : s'.mutex = s.mutex) (exclusive : s'.locks.Exclusive)
    (same : ∀ pid, ∀ key' ∈ keys, pid ≠ me.1 ∨ key' ≠ key →
      s'.view host pid key' = s.view host pid key')
    (registry : ∀ pid key', key' ≠ key → s'.registry pid key' = s.registry pid key')
    (guards : ∀ pid guard, guard.key ≠ key → (pid, guard) ∈ s'.guards → (pid, guard) ∈ s.guards)
    (here : InPhase host s' me.1 key phase') :
    (Guarantee host keys me s s' ∧ Inv host keys s') ∧ Owns host keys me key phase' s' := by
  refine ⟨⟨⟨fun pid hp => ?_, fun other => absurd h.mutex other⟩, exclusive, ?_, ?_⟩, ?_, here, ?_⟩
  · exact ⟨congrFun mutex pid, fun key' hk' => same pid key' hk' (.inl hp)⟩
  · intro pid key' hk'
    by_cases hp : pid = me.1 ∧ key' = key
    · obtain ⟨rfl, rfl⟩ := hp
      exact ⟨phase', here, fun none => by rw [mutex, h.mutex] at none; cases none⟩
    · obtain ⟨phase'', there, settled⟩ := inv.phases pid key' hk'
      refine ⟨phase'', (same pid key' hk' (by tauto)).trans there, ?_⟩
      rwa [mutex]
  · intro pid key' strange
    have hne : key' ≠ key := fun he => strange (he ▸ hk)
    obtain ⟨none, absent⟩ := inv.strange pid key' strange
    exact ⟨(registry pid key' hne).trans none, fun guard hg mem =>
      absent guard hg (guards pid guard (hg ▸ hne) mem)⟩
  · rw [mutex]
    exact h.mutex
  · intro key' hk' hne
    obtain ⟨phase'', there, settled⟩ := h.rest key' hk' hne
    exact ⟨phase'', (same me.1 key' hk' (.inr hne)).trans there, settled⟩

end Discipline

/-! ## Steps under the mutex -/

section Steps

variable {host : LockHost} {keys : Set String} {me : Thread Pid} {key : String}
  {phase phase' : Phase} {s : System Pid}

/-- Two keys have two lock files. -/
theorem lockFilePath_ne (digests : Set.InjOn host.digest keys) {key key' : String} (hk : key ∈ keys)
    (hk' : key' ∈ keys) (h : key' ≠ key) : host.lockFilePath key' ≠ host.lockFilePath key := by
  intro same
  rw [LockHost.lockFilePath, LockHost.lockFilePath, String.append_left_inj,
    String.append_right_inj] at same
  exact h (digests hk' hk same)

theorem put_registry_of_ne {pid q : Pid} {key' : String} {entry : Option LockState}
    (h : q ≠ pid ∨ key' ≠ key) : (s.put pid key entry).registry q key' = s.registry q key' := by
  by_cases hq : q = pid
  · subst hq
    rw [System.put]
    dsimp only
    rw [Function.update_self, Function.update_of_ne (h.resolve_left fun hne => hne rfl)]
  · rw [System.put]
    dsimp only
    rw [Function.update_of_ne hq]

@[simp] theorem put_registry_self {pid : Pid} {entry : Option LockState} :
    (s.put pid key entry).registry pid key = entry := by
  simp [System.put]

/-- The entry of the key changes. -/
theorem owns_put {entry : Option LockState} (inv : Inv host keys s)
    (h : Owns host keys me key phase s) (hk : key ∈ keys)
    (here : { phase.view (host.file key) with entry } = phase'.view (host.file key)) :
    (Guarantee host keys me s (s.put me.1 key entry) ∧ Inv host keys (s.put me.1 key entry)) ∧
      Owns host keys me key phase' (s.put me.1 key entry) := by
  refine owns_step inv h hk rfl inv.exclusive ?_ (fun pid key' hne => put_registry_of_ne (.inr hne))
    (fun _ _ _ mem => mem) ?_
  · intro pid key' _ hne
    rw [System.view, System.view, put_registry_of_ne hne]
    rfl
  · have mine := h.mine
    rw [InPhase, ← here, ← mine, System.view, System.view, put_registry_self]
    rfl

/-- The record lock of the key is taken. -/
theorem owns_setLk (digests : Set.InjOn host.digest keys) {kind : LockKind}
    {locks : RecordLocks String Pid} (inv : Inv host keys s)
    (h : Owns host keys me key .entered s) (hk : key ∈ keys)
    (granted : s.locks.setLk (host.lockFilePath key) me.1 kind = some locks) :
    (Guarantee host keys me s { s with locks } ∧ Inv host keys { s with locks }) ∧
      Owns host keys me key (.locked kind) { s with locks } := by
  refine owns_step inv h hk rfl (inv.exclusive.setLk granted) ?_ (fun _ _ _ => rfl)
    (fun _ _ _ mem => mem) ?_
  · intro pid key' hk' hne
    rw [System.view, System.view]
    congr 1
    rcases hne with hp | hne
    · exact RecordLocks.held_setLk_process granted hp
    · exact RecordLocks.held_setLk_file granted (lockFilePath_ne digests hk hk' hne)
  · have mine := h.mine
    simp only [InPhase, System.view, Phase.view, View.mk.injEq] at mine ⊢
    exact ⟨mine.1, mine.2.1, mine.2.2.1, RecordLocks.held_setLk_self granted⟩

/-- The record lock of the key is given up. -/
theorem owns_close (digests : Set.InjOn host.digest keys) (inv : Inv host keys s)
    (h : Owns host keys me key phase s) (hk : key ∈ keys)
    (here : { phase.view (host.file key) with lock := none } = phase'.view (host.file key)) :
    (Guarantee host keys me s { s with locks := s.locks.close (host.lockFilePath key) me.1 } ∧
      Inv host keys { s with locks := s.locks.close (host.lockFilePath key) me.1 }) ∧
      Owns host keys me key phase' { s with locks := s.locks.close (host.lockFilePath key) me.1 } := by
  refine owns_step inv h hk rfl inv.exclusive.close ?_ (fun _ _ _ => rfl) (fun _ _ _ mem => mem) ?_
  · intro pid key' hk' hne
    rw [System.view, System.view]
    congr 1
    rcases hne with hp | hne
    · exact RecordLocks.held_close_process hp
    · exact RecordLocks.held_close_file (lockFilePath_ne digests hk hk' hne)
  · have mine := h.mine
    rw [InPhase, ← here, ← mine, System.view, System.view]
    congr 1
    exact RecordLocks.held_close_self

/-- The guards of the key change, and its entry with them. -/
theorem owns_guards {entry : Option LockState} {guards : List (Pid × OperationGuard)}
    (inv : Inv host keys s) (h : Owns host keys me key phase s) (hk : key ∈ keys)
    (counts : ∀ pid (guard : OperationGuard), pid ≠ me.1 ∨ guard.key ≠ key →
      guards.count (pid, guard) = s.guards.count (pid, guard))
    (here : (⟨entry, guards.count (me.1, { key, shared := true }),
      guards.count (me.1, { key, shared := false }), (phase.view (host.file key)).lock⟩ : View) =
        phase'.view (host.file key)) :
    (Guarantee host keys me s { s.put me.1 key entry with guards } ∧
      Inv host keys { s.put me.1 key entry with guards }) ∧
      Owns host keys me key phase' { s.put me.1 key entry with guards } := by
  refine owns_step inv h hk rfl inv.exclusive ?_
    (fun pid key' hne => put_registry_of_ne (.inr hne)) ?_ ?_
  · intro pid key' _ hne
    rw [System.view, System.view, View.mk.injEq]
    exact ⟨put_registry_of_ne hne, counts pid { key := key', shared := true } hne,
      counts pid { key := key', shared := false } hne, rfl⟩
  · intro pid guard hne mem
    rw [← List.count_pos_iff] at mem ⊢
    rwa [← counts pid guard (.inr hne)]
  · have mine := congrArg View.lock h.mine
    rw [InPhase, ← here, System.view, View.mk.injEq]
    exact ⟨put_registry_self, rfl, rfl, mine⟩

end Steps

/-! ## Tasks -/

section Tasks

variable {host : LockHost} {keys : Set String} {me : Thread Pid} {key : String}
  {phase phase' : Phase} {s : System Pid} {Err : Type}

/-- Safe as a task of a thread of the process. -/
abbrev LockSafe {α : Type} (host : LockHost) (keys : Set String) (me : Thread Pid)
    (p : LockTask Pid Err α) (Q : Except Err α → System Pid → Prop) (s : System Pid) : Prop :=
  (discipline host keys).Safe me p Q s

theorem lock_refl (s : System Pid) : (discipline host keys).rely me s s :=
  (discipline host keys).refl me s

/-- A step that only reads. -/
theorem owns_read (inv : Inv host keys s) (h : Owns host keys me key phase s) :
    (Guarantee host keys me s s ∧ Inv host keys s) ∧ Owns host keys me key phase s :=
  ⟨⟨⟨fun _ _ => ⟨rfl, fun _ _ => rfl⟩, fun _ => ⟨fun _ _ => rfl, fun _ => rfl⟩⟩, inv⟩, h⟩

theorem ret_owns {α : Type} {a : α} {Q : Except Err α → System Pid → Prop} (hk : key ∈ keys)
    (h : Owns host keys me key phase s) (post : ∀ t, Owns host keys me key phase t → Q (.ok a) t) :
    LockSafe host keys me (.ret a : LockTask Pid Err α) Q s :=
  Task.safe_ret (owns_stable hk) h post

theorem fail_owns {α : Type} {e : Err} {Q : Except Err α → System Pid → Prop} (hk : key ∈ keys)
    (h : Owns host keys me key phase s)
    (post : ∀ t, Owns host keys me key phase t → Q (.error e) t) :
    LockSafe host keys me (.fail e : LockTask Pid Err α) Q s :=
  Task.safe_fail (owns_stable hk) h post

/-- One update under the mutex. -/
theorem modify_owns (phase' : Phase) {update : System Pid → System Pid} (hk : key ∈ keys)
    (h : Owns host keys me key phase s)
    (step : ∀ t, Inv host keys t → Owns host keys me key phase t →
      (Guarantee host keys me t (update t) ∧ Inv host keys (update t)) ∧
        Owns host keys me key phase' (update t)) :
    LockSafe host keys me (.modify update : LockTask Pid Err Unit)
      (fun r t => r = .ok () ∧ Owns host keys me key phase' t) s := by
  refine Task.safe_step (owns_stable hk) h fun t owns inv _ => ?_
  obtain ⟨kept, after⟩ := step t inv owns
  exact ⟨kept, ret_owns hk after fun u owns => ⟨rfl, owns⟩⟩

/-- **Leaving the critical section**: the view must be settled. -/
theorem unlockMutex_safe (hk : key ∈ keys) (h : Owns host keys me key phase s)
    (settled : Settled phase) :
    LockSafe host keys me (unlockMutex me : LockTask Pid Err Unit) (fun _ _ => True) s := by
  refine Task.safe_step (owns_stable hk) h fun t owns inv _ => ⟨⟨?_, inv.exclusive, ?_, inv.strange⟩,
    fun _ _ => trivial⟩
  · refine ⟨fun pid hp => ⟨Function.update_of_ne hp _ _, fun _ _ => rfl⟩, fun other => ?_⟩
    exact absurd owns.mutex other
  · intro pid key' hk'
    by_cases hp : pid = me.1
    · subst hp
      by_cases hkey : key' = key
      · subst hkey
        exact ⟨phase, owns.mine, fun _ => settled⟩
      · obtain ⟨phase', there, settled'⟩ := owns.rest key' hk' hkey
        exact ⟨phase', there, fun _ => settled'⟩
    · obtain ⟨phase', there, settled'⟩ := inv.phases pid key' hk'
      exact ⟨phase', there, fun none => settled' ((Function.update_of_ne hp _ _).symm.trans none)⟩

/-- **Entering the critical section** finds every view of the process settled. -/
theorem lockMutex_safe {may : System Pid → Bool} (knows : Phase → Prop) (hk : key ∈ keys)
    (free : ∀ t, may t = true → t.mutex me.1 = none)
    (known : ∀ t phase, may t = true → InPhase host t me.1 key phase → Settled phase → knows phase) :
    LockSafe host keys me
      (.await may fun s => { s with mutex := Function.update s.mutex me.1 (some me.2) } :
        LockTask Pid Err Unit)
      (fun r t => r = .ok () ∧
        ∃ phase, Owns host keys me key phase t ∧ Settled phase ∧ knows phase) s := by
  refine Task.safe_step (P := fun _ => True) (fun _ _ _ _ => trivial) trivial
    fun t _ inv on => ⟨⟨?_, inv.exclusive, ?_, inv.strange⟩, ?_⟩
  · refine ⟨fun pid hp => ⟨Function.update_of_ne hp _ _, fun _ _ => rfl⟩, fun _ => ⟨fun _ _ => rfl, ?_⟩⟩
    exact fun taken => absurd (free t on) taken
  · intro pid key' hk'
    by_cases hp : pid = me.1
    · subst hp
      obtain ⟨phase, there, settled⟩ := inv.phases me.1 key' hk'
      exact ⟨phase, there, fun _ => settled (free t on)⟩
    · obtain ⟨phase, there, settled⟩ := inv.phases pid key' hk'
      exact ⟨phase, there, fun none => settled ((Function.update_of_ne hp _ _).symm.trans none)⟩
  · obtain ⟨phase, here, settled⟩ := inv.phases me.1 key hk
    refine ret_owns hk ⟨Function.update_self _ _ _, here, fun key' hk' _ => ?_⟩
      fun u owns => ⟨rfl, phase, owns, settled (free t on), known t phase on here (settled (free t on))⟩
    obtain ⟨phase', there, settled'⟩ := inv.phases me.1 key' hk'
    exact ⟨phase', there, settled' (free t on)⟩

/-- The kind of record lock a guard needs. -/
abbrev kindOf (shared : Bool) : LockKind := if shared then .read else .write

theorem fcntlSetLk_safe (digests : Set.InjOn host.digest keys) (hk : key ∈ keys) {kind : LockKind}
    {interrupted : Nat} {failed : Option String} (h : Owns host keys me key .entered s) :
    LockSafe host keys me
      (fcntlSetLk me (host.file key) kind interrupted failed :
        LockTask Pid Err (Except CrossProcessLockError Unit))
      (fun r t => match r with
        | .ok (.ok ()) => Owns host keys me key (.locked kind) t
        | .ok (.error _) => Owns host keys me key .entered t
        | .error _ => False) s := by
  induction interrupted generalizing s with
  | succ n ih =>
    refine Task.Safe.bind lock_refl
      ((modify_owns _ hk h fun t inv owns => owns_read inv owns).post ?_)
    rintro r t ⟨rfl, owns⟩
    exact ih owns
  | zero =>
    cases failed with
    | some error => exact ret_owns hk h fun t owns => owns
    | none =>
      refine Task.safe_step (owns_stable hk) h fun t owns inv _ => ?_
      cases granted : t.locks.setLk (host.lockFilePath key) me.1 kind with
      | some locks =>
        obtain ⟨kept, after⟩ := owns_setLk digests inv owns hk granted
        rw [Option.getD_some]
        refine ⟨kept, ret_owns hk after fun u owns => ?_⟩
        dsimp only
        rw [granted]
        exact owns
      | none =>
        obtain ⟨kept, after⟩ := owns_read inv owns
        rw [Option.getD_none]
        refine ⟨kept, ret_owns hk after fun u owns => ?_⟩
        dsimp only
        rw [granted]
        exact owns

theorem lockAcrossProcesses_safe (digests : Set.InjOn host.digest keys) (hk : key ∈ keys)
    {answers : Answers} {shared : Bool} (h : Owns host keys me key .entered s) :
    LockSafe host keys me (lockAcrossProcesses host me answers key shared)
      (fun r t => match r with
        | .ok file => file = host.file key ∧ Owns host keys me key (.locked (kindOf shared)) t
        | .error _ => Owns host keys me key .entered t) s := by
  unfold lockAcrossProcesses
  refine Task.Safe.bind lock_refl ?_
  cases answers.opened with
  | error e => exact fail_owns hk h fun t owns => owns
  | ok u =>
    refine ret_owns hk h fun t owns => ?_
    refine Task.Safe.bind lock_refl ((fcntlSetLk_safe digests hk owns).post ?_)
    rintro (e | (e | ⟨⟩)) u answered
    · exact answered.elim
    · refine Task.Safe.bind lock_refl
        ((modify_owns .entered hk answered fun v inv owns =>
          owns_close digests inv owns hk rfl).post ?_)
      rintro r v ⟨rfl, closed⟩
      exact fail_owns hk closed fun w owns => owns
    · exact ret_owns hk answered fun v owns => ⟨rfl, owns⟩

theorem entry_of_owns (h : Owns host keys me key phase s) :
    s.registry me.1 key = (phase.view (host.file key)).entry := congrArg View.entry h.mine

theorem takeRecordLock_safe (digests : Set.InjOn host.digest keys) (hk : key ∈ keys)
    {answers : Answers} {namespace_ normalized : String} {shared : Bool}
    (h : Owns host keys me key .entered s) :
    LockSafe host keys me (takeRecordLock host me answers namespace_ normalized key shared)
      (fun r t => r = .ok () → Owns host keys me key (.kept (kindOf shared)) t) s := by
  have failed : ∀ {e : OperationLockError} {P : Prop},
      (Except.error e : Except OperationLockError Unit) = .ok () → P := fun h => by cases h
  refine Task.Safe.bind lock_refl
    (Task.Safe.attempt ((lockAcrossProcesses_safe digests hk h).post ?_))
  rintro (e | file) t answered
  · refine Task.Safe.bind lock_refl
      ((modify_owns .free hk answered fun u inv owns =>
        owns_put inv owns hk rfl).post ?_)
    rintro r u ⟨rfl, freed⟩
    refine Task.Safe.bind lock_refl ((unlockMutex_safe hk freed .free).post ?_)
    rintro (e' | ⟨⟩) v _
    · exact failed
    · exact fun _ _ => failed
  · obtain ⟨rfl, locked⟩ := answered
    refine (modify_owns _ hk locked fun u inv owns => owns_put inv owns hk ?_).post
      fun r u kept _ => kept.2
    rw [entry_of_owns owns]
    rfl

/-- The phase a guard leads to. -/
inductive Admitted : Phase → Bool → Phase → Prop
  | first_shared : Admitted (.kept .read) true (.shared 0)
  | first_exclusive : Admitted (.kept .write) false .exclusive
  | next_shared (others : Nat) : Admitted (.shared others) true (.shared (others + 1))

theorem Admitted.settled {shared : Bool} (h : Admitted phase shared phase') : Settled phase' := by
  cases h <;> constructor

theorem count_shared (h : Owns host keys me key phase s) :
    s.guards.count (me.1, { key, shared := true }) = (phase.view (host.file key)).shared :=
  congrArg View.shared h.mine

theorem count_exclusive (h : Owns host keys me key phase s) :
    s.guards.count (me.1, { key, shared := false }) = (phase.view (host.file key)).exclusive :=
  congrArg View.exclusive h.mine

theorem admit_safe (hk : key ∈ keys) {shared : Bool} (admitted : Admitted phase shared phase')
    (h : Owns host keys me key phase s) :
    LockSafe host keys me (countGuard me { key, shared } : LockTask Pid Err Unit)
      (fun r t => r = .ok () ∧ Owns host keys me key phase' t) s := by
  refine modify_owns _ hk h fun t inv owns => owns_guards inv owns hk ?_ ?_
  · intro pid guard hne
    refine List.count_cons_of_ne fun same => ?_
    cases same
    exact hne.elim (fun h => h rfl) fun h => h rfl
  · rw [entry_of_owns owns, List.count_cons, List.count_cons, count_shared owns,
      count_exclusive owns]
    cases admitted <;> simp [Phase.view, LockState.withGuard]

/-- The phases of a key whose entry was just looked up. -/
inductive Present : Phase → Prop
  | entered : Present .entered
  | shared (others : Nat) : Present (.shared others)
  | exclusive : Present .exclusive

theorem entryOrDefault_safe (hk : key ∈ keys) (h : Owns host keys me key phase s)
    (settled : Settled phase) :
    LockSafe host keys me (entryOrDefault me key : LockTask Pid Err LockState)
      (fun r t => ∃ phase', Present phase' ∧
        r = .ok ((phase'.view (host.file key)).entry.getD {}) ∧ Owns host keys me key phase' t) s := by
  refine Task.safe_step (owns_stable hk) h fun t owns inv _ => ?_
  rw [entry_of_owns owns]
  -- Writing the entry back, or a new one, leads to a present phase.
  have back : ∀ phase', Present phase' →
      (phase.view (host.file key)).entry.getD {} = (phase'.view (host.file key)).entry.getD {} →
      ({ phase.view (host.file key) with
        entry := some ((phase.view (host.file key)).entry.getD {}) } : View) =
          phase'.view (host.file key) →
      (Guarantee host keys me t
        (t.put me.1 key (some ((phase.view (host.file key)).entry.getD {}))) ∧
        Inv host keys (t.put me.1 key (some ((phase.view (host.file key)).entry.getD {})))) ∧
      LockSafe host keys me
        (.ret ((t.registry me.1 key).getD {}) : LockTask Pid Err LockState)
        (fun r u => ∃ phase', Present phase' ∧
          r = .ok ((phase'.view (host.file key)).entry.getD {}) ∧
            Owns host keys me key phase' u)
        (t.put me.1 key (some ((phase.view (host.file key)).entry.getD {}))) := by
    intro phase' present same here
    obtain ⟨kept, after⟩ := owns_put inv owns hk here
    rw [entry_of_owns owns]
    exact ⟨kept, ret_owns hk after fun u owns => ⟨phase', present, by rw [same], owns⟩⟩
  cases settled with
  | free => exact back .entered .entered rfl rfl
  | shared others => exact back (.shared others) (.shared others) rfl rfl
  | exclusive => exact back .exclusive .exclusive rfl rfl

theorem acquireWithMode_safe (digests : Set.InjOn host.digest keys) {answers : Answers}
    {namespace_ : String} {path : Path} {shared : Bool}
    (hk : keyOf namespace_ (normalizePath answers.files path) ∈ keys) :
    LockSafe host keys me (acquireWithMode host me answers namespace_ path shared)
      (fun _ _ => True) s := by
  unfold acquireWithMode
  dsimp only
  generalize keyOf namespace_ (normalizePath answers.files path) = key at hk ⊢
  -- What is left once the key can take the guard, and when it cannot.
  have rest : ∀ {t phase phase'}, Admitted phase shared phase' → Owns host keys me key phase t →
      LockSafe host keys me (do
        countGuard me { key, shared }
        unlockMutex me
        return { key, shared } : LockTask Pid OperationLockError OperationGuard)
        (fun _ _ => True) t := by
    intro t phase phase' admitted owns
    refine Task.Safe.bind lock_refl ((admit_safe hk admitted owns).post ?_)
    rintro r u ⟨rfl, owns⟩
    refine Task.Safe.bind lock_refl ((unlockMutex_safe hk owns admitted.settled).post ?_)
    rintro (e | ⟨⟩) v _
    · trivial
    · exact fun _ _ => trivial
  have refused : ∀ {t phase} {e : OperationLockError}, Settled phase →
      Owns host keys me key phase t →
      LockSafe host keys me (do
        unlockMutex me
        .fail e : LockTask Pid OperationLockError OperationGuard) (fun _ _ => True) t := by
    intro t phase e settled owns
    refine Task.Safe.bind lock_refl ((unlockMutex_safe hk owns settled).post ?_)
    rintro (e | ⟨⟩) v _
    · trivial
    · exact fun _ _ => trivial
  refine Task.Safe.bind lock_refl ((lockMutex_safe (fun _ => True) hk
    (fun t on => by simpa using on) fun _ _ _ _ _ => trivial).post ?_)
  rintro r t ⟨rfl, phase, owns, settled, _⟩
  refine Task.Safe.bind lock_refl ((entryOrDefault_safe hk owns settled).post ?_)
  rintro r u ⟨phase', present, rfl, owns⟩
  cases present with
  | entered =>
    have available : unavailable {} shared = false := by cases shared <;> rfl
    change LockSafe host keys me (if unavailable {} shared = true then _ else _) _ u
    rw [available, if_neg (by simp)]
    refine Task.Safe.bind lock_refl (Task.Safe.onlyIf (fun _ => ?_) fun no => by cases no)
    refine (takeRecordLock_safe digests hk owns).post ?_
    rintro (e | ⟨⟩) v taken
    · trivial
    · cases shared with
      | true => exact rest .first_shared (taken rfl)
      | false => exact rest .first_exclusive (taken rfl)
  | shared others =>
    cases shared with
    | true =>
      refine Task.Safe.bind lock_refl ?_
      exact ret_owns hk owns fun v owns => rest (.next_shared others) owns
    | false => exact refused (.shared others) owns
  | exclusive =>
    cases shared with
    | true => exact refused .exclusive owns
    | false => exact refused .exclusive owns

theorem acquireFor_safe (digests : Set.InjOn host.digest keys) {namespace_ : String} {path : Path}
    {timeout : Nat} {attempts : List (Answers × Nat)}
    (hk : ∀ attempt ∈ attempts, keyOf namespace_ (normalizePath attempt.1.files path) ∈ keys) :
    LockSafe host keys me (acquireFor host me namespace_ path timeout attempts)
      (fun _ _ => True) s := by
  induction attempts generalizing s with
  | nil => exact fun _ _ _ off => by cases off
  | cons attempt later ih =>
    refine Task.Safe.bind lock_refl (Task.Safe.attempt
      ((acquireWithMode_safe digests (hk attempt List.mem_cons_self)).post ?_))
    rintro ((message | message) | guard) t _
    · dsimp only
      split
      · exact fun _ _ => trivial
      · exact ih fun attempt' mem => hk attempt' (List.mem_cons_of_mem _ mem)
    · exact fun _ _ => trivial
    · exact fun _ _ => trivial

/-- The phase a dropped guard leaves. -/
inductive Released : Phase → Bool → Phase → Prop
  | last_shared : Released (.shared 0) true (.removed .read)
  | exclusive : Released .exclusive false (.removed .write)
  | other_shared (others : Nat) : Released (.shared (others + 1)) true (.shared others)

/-- The phase behind a guard that is alive. -/
inductive Backs : Phase → Bool → Prop
  | shared (others : Nat) : Backs (.shared others) true
  | exclusive : Backs .exclusive false

theorem backs_of_alive {pid : Pid} {guard : OperationGuard} {phase : Phase}
    (h : InPhase host s pid guard.key phase) (alive : (pid, guard) ∈ s.guards) :
    Backs phase guard.shared := by
  have counted : 0 < s.guards.count (pid, guard) := List.count_pos_iff.mpr alive
  obtain ⟨key, shared⟩ := guard
  have inShared := congrArg View.shared h
  have inExclusive := congrArg View.exclusive h
  simp only [System.view] at inShared inExclusive
  cases shared with
  | true =>
    rw [inShared] at counted
    cases phase with
    | shared others => exact .shared others
    | _ => cases counted
  | false =>
    rw [inExclusive] at counted
    cases phase with
    | exclusive => exact .exclusive
    | _ => cases counted

theorem released_of_alive {guard : OperationGuard} (h : InPhase host s me.1 guard.key phase)
    (alive : (me.1, guard) ∈ s.guards) : ∃ phase', Released phase guard.shared phase' := by
  have backs := backs_of_alive h alive
  generalize guard.shared = shared at backs ⊢
  cases backs with
  | shared others => cases others <;> exact ⟨_, by constructor⟩
  | exclusive => exact ⟨_, .exclusive⟩

/-- The drop's update of the entry and the guards. -/
theorem owns_release {shared : Bool} (inv : Inv host keys s) (h : Owns host keys me key phase s)
    (hk : key ∈ keys) (released : Released phase shared phase') :
    (Guarantee host keys me s
      { s.put me.1 key ((s.registry me.1 key).bind (LockState.released · shared)) with
        guards := s.guards.erase (me.1, { key, shared }) } ∧
      Inv host keys
        { s.put me.1 key ((s.registry me.1 key).bind (LockState.released · shared)) with
          guards := s.guards.erase (me.1, { key, shared }) }) ∧
      Owns host keys me key phase'
        { s.put me.1 key ((s.registry me.1 key).bind (LockState.released · shared)) with
          guards := s.guards.erase (me.1, { key, shared }) } := by
  refine owns_guards inv h hk ?_ ?_
  · intro pid guard hne
    refine List.count_erase_of_ne fun same => ?_
    cases same
    exact hne.elim (fun h => h rfl) fun h => h rfl
  · rw [entry_of_owns h, List.count_erase, List.count_erase, count_shared h, count_exclusive h]
    cases released <;> simp [Phase.view, LockState.released, LockState.release]

theorem dropGuard_safe (digests : Set.InjOn host.digest keys) {guard : OperationGuard} :
    LockSafe host keys me (dropGuard me guard : LockTask Pid Err Unit) (fun _ _ => True) s := by
  by_cases hk : guard.key ∈ keys
  swap
  · -- A guard of a strange key is never alive.
    refine Task.Safe.bind lock_refl (Task.safe_step (P := fun _ => True) (fun _ _ _ _ => trivial)
      trivial fun t _ inv on => ?_)
    simp only [decide_eq_true_eq] at on
    exact absurd on.2 ((inv.strange me.1 guard.key hk).2 guard rfl)
  · refine Task.Safe.bind lock_refl ((lockMutex_safe
      (fun phase => ∃ phase', Released phase guard.shared phase') hk
      (fun t on => ?_) fun t phase on here _ => ?_).post ?_)
    · simp only [decide_eq_true_eq] at on
      exact on.1
    · simp only [decide_eq_true_eq] at on
      exact released_of_alive here on.2
    obtain ⟨key, shared⟩ := guard
    dsimp only at hk ⊢
    rintro r t ⟨rfl, phase, owns, _, phase', released⟩
    have close : ∀ {u kind}, Owns host keys me key (.removed kind) u →
        LockSafe host keys me (do
          closeFile me (host.file key)
          unlockMutex me : LockTask Pid Err Unit) (fun _ _ => True) u := by
      intro u kind owns
      refine Task.Safe.bind lock_refl ((modify_owns .free hk owns fun v inv owns =>
        owns_close digests inv owns hk rfl).post ?_)
      rintro r v ⟨rfl, owns⟩
      exact unlockMutex_safe hk owns .free
    refine Task.safe_step (owns_stable hk) owns fun u owns inv _ => ?_
    obtain ⟨kept, after⟩ := owns_release inv owns hk released
    refine ⟨kept, ?_⟩
    have entry := entry_of_owns owns
    change LockSafe host keys me (do
      dropDescriptor me (droppedFile (u.registry me.1 key) shared)
      unlockMutex me : LockTask Pid Err Unit) _ _
    cases released with
    | last_shared =>
      rw [show droppedFile (u.registry me.1 key) true = some (host.file key) by rw [entry]; rfl]
      exact close after
    | exclusive =>
      rw [show droppedFile (u.registry me.1 key) false = some (host.file key) by rw [entry]; rfl]
      exact close after
    | other_shared others =>
      rw [show droppedFile (u.registry me.1 key) true = none by rw [entry]; rfl]
      refine Task.Safe.bind lock_refl ?_
      exact ret_owns hk after fun v owns => unlockMutex_safe hk owns (.shared others)

theorem LockEntry.safe (digests : Set.InjOn host.digest keys)
    {p : LockTask Pid OperationLockError Unit} (h : LockEntry host keys me s p) :
    LockSafe host keys me p (fun _ _ => True) s := by
  cases h with
  | acquire answers namespace_ path hk =>
    exact (Task.Safe.attempt (Task.Safe.mapError
      ((acquireWithMode_safe digests hk).post fun _ _ _ => trivial))).discard lock_refl
  | acquireShared answers namespace_ path hk =>
    exact (Task.Safe.attempt (Task.Safe.mapError
      ((acquireWithMode_safe digests hk).post fun _ _ _ => trivial))).discard lock_refl
  | acquireFor namespace_ path timeout attempts hk =>
    exact (acquireFor_safe digests hk).discard lock_refl
  | drop guard => exact dropGuard_safe digests

/-! ## An attempt that nobody disturbs -/

end Tasks

/-! ## What the invariant says of guards -/

section Guards

variable {host : LockHost} {keys : Set String} {s : System Pid}

theorem Inv.alive (inv : Inv host keys s) {pid : Pid} {guard : OperationGuard}
    (alive : (pid, guard) ∈ s.guards) :
    guard.key ∈ keys ∧ ∃ phase, InPhase host s pid guard.key phase ∧ Backs phase guard.shared := by
  have hk : guard.key ∈ keys := by
    by_contra strange
    exact (inv.strange pid guard.key strange).2 guard rfl alive
  obtain ⟨phase, here, _⟩ := inv.phases pid guard.key hk
  exact ⟨hk, phase, here, backs_of_alive here alive⟩

/-- Where no guard of the key is alive and no mutex is taken, the key is free. -/
theorem Inv.free (inv : Inv host keys s) {pid : Pid} {key : String} (hk : key ∈ keys)
    (mutex : s.mutex pid = none) (dropped : ∀ guard ∈ s.guards, guard.2.key ≠ key) :
    InPhase host s pid key .free := by
  obtain ⟨phase, here, settled⟩ := inv.phases pid key hk
  have counts : ∀ shared, s.guards.count (pid, { key, shared }) = 0 := fun shared =>
    List.count_eq_zero.mpr fun alive => dropped _ alive rfl
  have inShared := (congrArg View.shared here).symm.trans (counts true)
  have inExclusive := (congrArg View.exclusive here).symm.trans (counts false)
  cases settled mutex with
  | free => exact here
  | shared others => cases inShared
  | exclusive => cases inExclusive

end Guards

/-! ## Whole runs -/

def samplePrefix : Path where
  text := "/p"
  absolute := true
  components := [.normal "p"]

end RoLauncher.Locks
