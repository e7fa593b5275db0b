import RoLauncher.Runners.Registry
import RoLauncher.Threads.Framed

/-!
# The registry stays closed

Once a call of `shutdown_all` has returned, and none timed out, no session is registered, and none
is any more (`shutdown_all_closes`). A session is inserted only under the startup lock
of its prefix, by a thread that found the launcher open while it had the lock; whoever closes the
launcher takes each of these locks afterwards, and finds what was inserted.

`Frame` is what most steps keep of the registry, `ClosingRely` what a thread counts on while others
go on. A thread that has a startup lock counts on its prefix: no other thread inserts a session
there, ends the one that is there, or finds none there.
-/

namespace RoLauncher.Runners

open RoLauncher.Threads
open RoLauncher.Session (SessionError)

/-! ## What the others may do -/

/-- A step that leaves alone what is said of a closed registry. -/
structure Frame (s s' : Registry) : Prop where
  created : s.created ≤ s'.created
  sessions : ∀ key, s'.sessions key = s.sessions key
  startupLocks : s'.startupLocks = s.startupLocks
  startupHolder : ∀ key, s'.startupHolder key = s.startupHolder key
  closing : s'.closing = s.closing
  census : s'.census = s.census
  emptied : s'.emptied = s.emptied
  joined : s'.joined = s.joined
  timedOut : s'.timedOut = s.timedOut
  returned : s'.returned = s.returned
  prefixKey : ∀ sid, sid < s.created → (s'.session sid).prefixKey = (s.session sid).prefixKey
  ended : ∀ sid, sid < s.created → (s'.session sid).state.Over → (s.session sid).state.Over
  spawned : ∀ job, job ∈ s'.spawned → job ∈ s.spawned ∨
    ∃ key generation sid, job = .idleTimer key generation sid

/-- When a job may be waiting. -/
def Job.Due (s : Registry) : Job → Prop
  | .idleTimer .. => True
  | .shutdownKey .. => s.closing = true
  | .forceKill .. => s.timedOut = true

structure ClosingInv (s : Registry) : Prop where
  registered : ∀ key sid, s.sessions key = some sid →
    sid < s.created ∧ (s.session sid).prefixKey = key
  found : ∀ key sid, s.sessions key = some sid →
    key ∈ s.startupLocks ∧ key ∉ s.emptied ∧ ∀ keys, s.census = some keys → key ∈ keys
  tidy : ∀ key sid, s.startupHolder key = none → s.sessions key = some sid →
    (s.session sid).state.Over → s.timedOut = true
  announced : ∀ key, key ∈ s.emptied → s.closing = true
  counted : ∀ keys, s.census = some keys →
    s.closing = true ∧ ∀ key, key ∈ keys → key ∈ s.startupLocks
  joined : ∀ call key, (call, key) ∈ s.joined → s.timedOut = true ∨ key ∈ s.emptied
  returned : s.returned = true → ∃ keys, s.census = some keys ∧ ∀ key, key ∈ keys → key ∈ s.emptied
  due : ∀ job, job ∈ s.spawned → job.Due s

/-- What a thread counts on for a prefix whose startup lock it has. -/
structure Guarded (me : Nat) (key : String) (s s' : Registry) : Prop where
  holder : s'.startupHolder key = some me
  sessions : s'.sessions key = s.sessions key ∨ s'.timedOut = true ∧ s'.sessions key = none
  emptied : key ∈ s'.emptied → key ∈ s.emptied
  ended : ∀ sid, s.sessions key = some sid → (s'.session sid).state.Over →
    (s.session sid).state.Over ∨ s'.timedOut = true

/-- What thread `me` counts on. -/
structure ClosingRely (me : Nat) (s s' : Registry) : Prop where
  created : s.created ≤ s'.created
  fresh : ∀ key sid, s'.sessions key = some sid → s.sessions key = some sid ∨ s.created ≤ sid
  startup : ∀ key, s.startupHolder key = some me → Guarded me key s s'
  names : ∀ key, key ∈ s.startupLocks → key ∈ s'.startupLocks
  timedOut : s.timedOut = true → s'.timedOut = true
  closing : s.closing = true → s'.closing = true
  returned : s.returned = true → s'.returned = true
  census : ∀ keys, s.census = some keys → s'.census = some keys
  counted : ∀ keys, s'.census = some keys →
    s.census = some keys ∨ ∀ key, key ∈ s.startupLocks → key ∈ keys
  emptied : ∀ key, key ∈ s.emptied → key ∈ s'.emptied

theorem closingRely_refl (me : Nat) (s : Registry) : ClosingRely me s s := by
  constructor <;> grind [Guarded]

theorem guarded_trans {me : Nat} {key : String} {s s' s'' : Registry} (first : Guarded me key s s')
    (second : Guarded me key s' s'') (timedOut : s'.timedOut = true → s''.timedOut = true) :
    Guarded me key s s'' := by
  constructor <;> grind [Guarded]

theorem closingRely_trans (me : Nat) (s s' s'' : Registry) (first : ClosingRely me s s')
    (second : ClosingRely me s' s'') : ClosingRely me s s'' := by
  constructor
  case startup =>
    intro key mine
    have here := first.startup key mine
    exact guarded_trans here (second.startup key here.holder) second.timedOut
  all_goals grind [ClosingRely]

def closingDiscipline : Discipline Nat Registry where
  inv := ClosingInv
  rely := ClosingRely
  guar me s s' := ∀ other, other ≠ me → ClosingRely other s s'
  refl := closingRely_refl
  trans := closingRely_trans
  others _ u _ _ ne guar := guar u (Ne.symm ne)

/-- An assertion that thread `me` can keep. -/
abbrev Lasting (me : Nat) (P : Registry → Prop) : Prop := Task.Stable (ClosingRely me) P

theorem Frame.rely {s s' : Registry} (frame : Frame s s') (inv : ClosingInv s) (me : Nat) :
    ClosingRely me s s' := by
  constructor
  case startup =>
    intro key mine
    constructor <;> grind [Frame, ClosingInv]
  all_goals grind [Frame, ClosingInv]

theorem Frame.inv {s s' : Registry} (frame : Frame s s') (inv : ClosingInv s) : ClosingInv s' := by
  constructor
  case due =>
    intro job here
    rcases frame.spawned job here with old | ⟨key, generation, sid, rfl⟩
    · have due := inv.due job old
      cases job with
      | idleTimer key generation sid => trivial
      | shutdownKey call key => exact frame.closing.trans due
      | forceKill key sid => exact frame.timedOut.trans due
    · trivial
  all_goals grind [Frame, ClosingInv]

/-! ## Rules -/

section Rules

variable {α β : Type} {me : Nat} {P : Registry → Prop} {s : Registry}

abbrev ClosingSafe (me : Nat) (p : RegistryTask α) (Q : Except Failure α → Registry → Prop)
    (s : Registry) : Prop := closingDiscipline.Safe me p Q s

/-- A step that is within what the others count on. -/
theorem own_step {enabled : Registry → Bool} {update : Registry → Registry} {k : Registry → RegistryTask α}
    {Q : Except Failure α → Registry → Prop} (lasting : Lasting me P) (holds : P s)
    (rely : ∀ t, P t → ClosingInv t → enabled t = true → ∀ other, other ≠ me → ClosingRely other t (update t))
    (inv : ∀ t, P t → ClosingInv t → enabled t = true → ClosingInv (update t))
    (rest : ∀ t, P t → ClosingInv t → enabled t = true → ClosingSafe me (k t) Q (update t)) :
    ClosingSafe me (.step enabled update k) Q s :=
  Task.safe_step lasting holds fun t here inv' on =>
    ⟨⟨rely t here inv' on, inv t here inv' on⟩, rest t here inv' on⟩

theorem frame_refl (s : Registry) : Frame s s := by
  constructor <;> grind

theorem closingQuiet : Task.Quiet ClosingInv (ClosingRely me) (closingDiscipline.guar me) Frame where
  rely frame inv := frame.rely inv me
  guar frame inv other _ := frame.rely inv other
  inv frame inv := frame.inv inv

/-- Every step of the task leaves alone what is said of a closed registry. -/
abbrev Framed (p : RegistryTask α) : Prop := Task.Framed Frame p

theorem Framed.safe {p : RegistryTask α} (framed : Framed p) (lasting : Lasting me P) (holds : P s) :
    ClosingSafe me p (fun _ t => P t) s := closingQuiet.safe framed lasting holds

theorem framed_read (f : Registry → α) : Framed (.read f : RegistryTask α) := Task.Framed.read frame_refl f

/-- A session that is changed, but not its prefix, and not by ending it. -/
theorem frame_put {sid : Nat} {session : RunnerSession} (prefixKey : session.prefixKey = (s.session sid).prefixKey)
    (ended : session.state.Over → (s.session sid).state.Over) : Frame s (s.put sid session) := by
  constructor <;> grind [Registry.put]

/-! ## Steps that are framed -/

theorem framed_isQuiet (sid : Nat) : Framed (isQuiet sid) := by
  refine (framed_read _).bind fun operationLeases => ?_
  split
  · refine (framed_read _).bind fun clientLeases => ?_
    split
    · exact framed_read _
    · trivial
  · trivial

theorem frame_bump (s : Registry) (sid generation : Nat) :
    Frame s (s.put sid { s.session sid with idleGeneration := generation }) := frame_put rfl id

theorem frame_spawn (s : Registry) (key : String) (generation sid : Nat) :
    Frame s (s.spawn (.idleTimer key generation sid)) := by
  constructor <;> grind [Registry.spawn]

theorem framed_scheduleIdleShutdown (sid : Nat) : Framed (scheduleIdleShutdown sid) := by
  refine (framed_isQuiet sid).bind fun quiet => ?_
  split
  · refine (Task.Framed.fetch fun s => frame_bump s sid _).bind fun generation => ?_
    exact Task.Framed.modify fun s => frame_spawn s _ generation sid
  · trivial

theorem frame_lockState (s : Registry) (sid : Nat) (holder : Option StateGuard) : Frame s (s.lockState sid holder) := by
  constructor <;> grind [Registry.lockState]

theorem frame_lockState_met (s : Registry) (sid : Nat) (holder : Option StateGuard) (met : Bool) :
    Frame s { s.lockState sid holder with metFatal := met } := by
  have locked : Frame s (s.lockState sid holder) := frame_lockState s sid holder
  exact { locked with }

theorem framed_withStateLock {sid : Nat} {request : Option Request} {body : RegistryTask α} (framed : Framed body) :
    Framed (withStateLock me sid request body) := by
  refine (Task.Framed.await fun s => frame_lockState_met s sid _ _).bind fun _ => ?_
  refine framed.attempt.bind fun result => ?_
  exact (Task.Framed.modify fun s => frame_lockState s sid none).bind fun _ => Task.Framed.ofExcept result

/-- What the body establishes under the lock still holds when the lock is given back. -/
theorem withStateLock_safe {sid : Nat} {request : Option Request} {body : RegistryTask α}
    {Q : Except Failure α → Registry → Prop} (lasting : Lasting me P) (holds : P s)
    (kept : ∀ r, Lasting me (Q r)) (safe : ∀ t, P t → ClosingSafe me body Q t) :
    ClosingSafe me (withStateLock me sid request body) Q s := by
  refine closingQuiet.step lasting holds (fun t => frame_lockState_met t sid _ _) fun t _ _ _ here => ?_
  show ClosingSafe me (body.attempt >>= fun result =>
    Task.modify (·.lockState sid none) >>= fun _ => Task.ofExcept result) Q _
  refine Task.Safe.bind (closingRely_refl me) (Task.Safe.attempt ((safe _ here).post ?_))
  intro r u established
  exact closingQuiet.step (kept r) established (fun t => frame_lockState t sid none)
    fun v _ _ _ established => Task.safe_ofExcept (kept r) established

theorem framed_decideShutdown (sid : Nat) (cause : ShutdownCause) : Framed (decideShutdown me sid cause) := by
  have stop : Framed (.fetch (fun _ => some false) fun s => s.put sid ((s.session sid).leave .stopping cause) :
      RegistryTask (Option Bool)) := by
    refine Task.Framed.fetch fun s => frame_put rfl fun ended => ?_
    rcases ended with ended | ended
    · cases ended
    · cases ended
  apply framed_withStateLock
  cases cause with
  | idle generation =>
    refine (framed_read _).bind fun state => ?_
    cases state with
    | ready =>
      refine (framed_read _).bind fun current => ?_
      split
      · refine (framed_isQuiet sid).bind fun quiet => ?_
        split
        · exact stop
        · trivial
      · trivial
    | stopping => trivial
    | stopped => trivial
    | failed => trivial
  | quiescent =>
    refine (framed_isQuiet sid).bind fun quiet => ?_
    split
    · refine (framed_read _).bind fun state => ?_
      cases state with
      | ready => exact stop
      | stopping => trivial
      | stopped => trivial
      | failed => trivial
    · trivial
  | forced =>
    refine (framed_read _).bind fun state => ?_
    cases state with
    | ready => exact stop
    | stopping => trivial
    | stopped => trivial
    | failed => trivial

end Rules

/-! ## Under the startup lock -/

/-- The thread has the lock, and the session of the prefix is over only after a timeout. -/
structure Within (me : Nat) (key : String) (s : Registry) : Prop where
  holder : s.startupHolder key = some me
  tidy : ∀ sid, s.sessions key = some sid → (s.session sid).state.Over → s.timedOut = true

/-- The thread has the lock, and no other session than this one, which is of no other prefix. -/
structure Owned (me : Nat) (key : String) (sid : Nat) (s : Registry) : Prop where
  holder : s.startupHolder key = some me
  created : sid < s.created
  only : ∀ other, s.sessions key = some other → other = sid
  nowhere : ∀ other, s.sessions other = some sid → other = key

/-- The thread has the lock, and no session. -/
structure Gone (me : Nat) (key : String) (s : Registry) : Prop where
  holder : s.startupHolder key = some me
  none : s.sessions key = none

section Locked

variable {α : Type} {me : Nat} {key : String} {sid : Nat} {s : Registry}

theorem within_lasting : Lasting me (Within me key) := by
  intro s t within moved
  have guarded := moved.startup key within.holder
  constructor <;> grind [Within, Guarded, ClosingRely]

theorem owned_lasting : Lasting me (Owned me key sid) := by
  intro s t owned moved
  have guarded := moved.startup key owned.holder
  constructor <;> grind [Owned, Guarded, ClosingRely]

theorem gone_lasting : Lasting me (Gone me key) := by
  intro s t gone moved
  have guarded := moved.startup key gone.holder
  constructor <;> grind [Gone, Guarded]

theorem Gone.within (gone : Gone me key s) : Within me key s := by
  constructor <;> grind [Gone]

/-- A session is changed, and ended only where somebody answers for it. -/
theorem ClosingInv.put (inv : ClosingInv s) {session : RunnerSession}
    (same : session.prefixKey = (s.session sid).prefixKey)
    (tidy : ∀ key, s.startupHolder key = none → s.sessions key = some sid → s.timedOut = true) :
    ClosingInv (s.put sid session) where
  registered key' sid' found := by
    have old := inv.registered key' sid' found
    rw [session_put]
    split
    next here =>
      subst here
      exact ⟨old.1, same.trans old.2⟩
    next => exact old
  found := inv.found
  tidy key' sid' free found ended := by
    rw [session_put] at ended
    split at ended
    next here =>
      subst here
      exact tidy key' free found
    next => exact inv.tidy key' sid' free found ended
  announced := inv.announced
  counted := inv.counted
  joined := inv.joined
  returned := inv.returned
  due := inv.due

/-- A session of a prefix whose lock the thread does not have is another one. -/
theorem Owned.ne_of_not_mine {key' : String} {sid' : Nat} (owned : Owned me key sid s)
    (other : s.startupHolder key' ≠ some me) (found : s.sessions key' = some sid') : sid' ≠ sid := by
  intro same
  subst same
  rw [owned.nowhere key' found] at other
  exact other owned.holder

/-- The session of the prefix may be ended by the thread that has its lock. -/
theorem setState_safe (state : SessionState) (owned : Owned me key sid s) :
    ClosingSafe me (setState sid state) (fun r t => ∃ a, r = .ok a ∧ Owned me key sid t) s := by
  apply own_step owned_lasting owned
  case rely =>
    intro t owned inv _ other ne
    constructor
    case startup =>
      intro key' theirs
      refine ⟨theirs, .inl rfl, id, ?_⟩
      intro sid' found
      have apart : sid' ≠ sid := owned.ne_of_not_mine (by grind) found
      rw [session_put, if_neg apart]
      exact .inl
    all_goals grind [Registry.put]
  case inv =>
    intro t owned inv _
    refine inv.put rfl fun key' free found => ?_
    rw [owned.nowhere key' found, owned.holder] at free
    cases free
  case rest =>
    intro t owned _ _
    exact Task.safe_ret owned_lasting ⟨owned.holder, owned.created, owned.only, owned.nowhere⟩ fun u here => ⟨(), rfl, here⟩

theorem of_sessions_remove {other : String} (found : (s.remove key).sessions other = some sid) :
    other ≠ key ∧ s.sessions other = some sid := by
  rw [sessions_remove] at found
  split at found
  next => cases found
  next apart => exact ⟨apart, found⟩

theorem ClosingInv.remove (inv : ClosingInv s) (key : String) : ClosingInv (s.remove key) where
  registered _ _ found := inv.registered _ _ (of_sessions_remove found).2
  found _ _ found := inv.found _ _ (of_sessions_remove found).2
  tidy _ _ free found := inv.tidy _ _ free (of_sessions_remove found).2
  announced := inv.announced
  counted := inv.counted
  joined := inv.joined
  returned := inv.returned
  due := inv.due

/-- A session is removed by the holder of the lock, or after a timeout. -/
theorem rely_remove {other : Nat} (may : s.startupHolder key ≠ some other ∨ s.timedOut = true) :
    ClosingRely other s (s.remove key) := by
  constructor
  case fresh => exact fun key' sid' found => .inl (of_sessions_remove found).2
  case startup =>
    intro key' theirs
    refine ⟨theirs, ?_, id, fun sid' _ ended => .inl ended⟩
    rw [sessions_remove]
    split
    next same =>
      subst same
      exact .inr ⟨may.resolve_left fun apart => apart theirs, rfl⟩
    next => exact .inl rfl
  all_goals grind [Registry.remove]

theorem removeSessionIfSame_keeps {F : Registry → Prop} (lasting : Lasting me F) (kept : ∀ t, F t → F (t.remove key))
    (owned : Owned me key sid s) (holds : F s) :
    ClosingSafe me (removeSessionIfSame key sid) (fun r t => ∃ a, r = .ok a ∧ Gone me key t ∧ F t) s := by
  apply own_step (Task.Stable.and owned_lasting lasting) ⟨owned, holds⟩
  case rely =>
    intro t here _ _ other ne
    split
    next => exact rely_remove (.inl (by grind [Owned]))
    next => exact closingRely_refl other t
  case inv =>
    intro t _ inv _
    split
    next => exact inv.remove key
    next => exact inv
  case rest =>
    intro t here _ _
    refine Task.safe_ret (Task.Stable.and gone_lasting lasting) ?_ fun u here => ⟨(), rfl, here⟩
    split
    next => exact ⟨⟨here.1.holder, by rw [sessions_remove, if_pos rfl]⟩, kept t here.2⟩
    next absent =>
      refine ⟨⟨here.1.holder, ?_⟩, here.2⟩
      cases found : t.sessions key with
      | none => rfl
      | some other =>
        rw [here.1.only other found] at found
        exact absurd found absent

theorem removeSessionIfSame_safe (owned : Owned me key sid s) :
    ClosingSafe me (removeSessionIfSame key sid) (fun r t => ∃ a, r = .ok a ∧ Gone me key t) s := by
  refine (removeSessionIfSame_keeps (fun _ _ _ _ => trivial) (fun _ _ => trivial) owned trivial).post ?_
  rintro r t ⟨a, same, gone, -⟩
  exact ⟨a, same, gone⟩

/-- A session that failed is gone. -/
theorem failSession_safe (error : SessionError) (owned : Owned me key sid s) :
    ClosingSafe me (failSession key sid error) (fun _ t => Gone me key t) s := by
  refine (setState_safe .failed owned).andThen (closingRely_refl me) fun _ t owned => ?_
  refine (removeSessionIfSame_safe owned).andThen (closingRely_refl me) fun _ u gone => ?_
  exact Task.safe_fail gone_lasting gone fun _ => id

/-- What a shutdown that was not dropped leaves of the session: nothing, unless a timeout passed. -/
def Shut {α : Type} (key : String) (r : Except Failure α) (s : Registry) : Prop :=
  r ≠ .error .dropped → s.sessions key = none ∨ s.timedOut = true

theorem settleShutdown_safe (conversation : Conversation) (owned : Owned me key sid s) (within : Within me key s) :
    ClosingSafe me (settleShutdown key sid conversation)
      (fun r t => Within me key t ∧ Shut key r t) s := by
  have fails (error : SessionError) : ClosingSafe me (failSession key sid error)
      (fun r t => Within me key t ∧ Shut key r t) s :=
    (failSession_safe error owned).post fun _ _ gone => ⟨gone.within, fun _ => .inl gone.none⟩
  cases conversation with
  | stopped exits =>
    cases exits with
    | true =>
      refine (setState_safe .stopped owned).andThen (closingRely_refl me) fun _ t owned => ?_
      refine (removeSessionIfSame_safe owned).post ?_
      rintro r t ⟨_, rfl, gone⟩
      exact ⟨gone.within, fun _ => .inl gone.none⟩
    | false => exact fails _
  | failed error => exact fails error
  | timedOut => exact fails _
  | dropped => exact Task.safe_fail within_lasting within fun _ within => ⟨within, fun never => absurd rfl never⟩

theorem cleared_lasting {C : Prop} :
    Lasting me fun s => (Owned me key sid s ∧ Within me key s) ∧ (C → s.sessions key = none ∨ s.timedOut = true) := by
  intro s t here moved
  refine ⟨⟨owned_lasting _ _ here.1.1 moved, within_lasting _ _ here.1.2 moved⟩, ?_⟩
  have guarded := moved.startup key here.1.1.holder
  have timedOut := moved.timedOut
  grind [Guarded]

/-- A forced shutdown goes on unless the session is over. -/
theorem decideShutdown_forced_safe (owned : Owned me key sid s) (within : Within me key s) :
    ClosingSafe me (decideShutdown me sid .forced)
      (fun r t => (Owned me key sid t ∧ Within me key t) ∧
        ((∀ skip, r ≠ .ok (some skip)) → t.sessions key = none ∨ t.timedOut = true)) s := by
  have lasting : Lasting me fun s => Owned me key sid s ∧ Within me key s := Task.Stable.and owned_lasting within_lasting
  refine withStateLock_safe lasting ⟨owned, within⟩ (fun r => cleared_lasting) fun t here => ?_
  refine (closingQuiet.read (K := fun state v => (Owned me key sid v ∧ Within me key v) ∧
    (state.Over → v.sessions key = none ∨ v.timedOut = true)) frame_refl lasting here (fun state => cleared_lasting) ?_).andThen
      (closingRely_refl me) fun state u known => ?_
  · intro u here _
    refine ⟨here, fun ended => ?_⟩
    cases found : u.sessions key with
    | none => exact .inl rfl
    | some other =>
      rw [here.1.only other found] at found
      exact .inr (here.2.tidy sid found ended)
  · have going (answer : Bool) (v : Registry) (here : Owned me key sid v ∧ Within me key v) :
        ClosingSafe me (.ret (some answer))
          (fun r t => (Owned me key sid t ∧ Within me key t) ∧
            ((∀ skip, r ≠ .ok (some skip)) → t.sessions key = none ∨ t.timedOut = true)) v :=
      Task.safe_ret lasting here fun w here => ⟨here, fun never => absurd rfl (never answer)⟩
    cases state with
    | ready =>
      refine closingQuiet.step lasting known.1 (fun t => frame_put rfl ?_) fun v _ _ _ here => going false _ here
      intro never
      rcases never with never | never
      · cases never
      · cases never
    | stopping => exact going true u known.1
    | stopped => exact Task.safe_ret cleared_lasting known fun w known => ⟨known.1, fun _ => known.2 (.inl rfl)⟩
    | failed => exact Task.safe_ret cleared_lasting known fun w known => ⟨known.1, fun _ => known.2 (.inr rfl)⟩

/-- A shutdown of the session of a prefix, or of one that is of none. -/
theorem shutdownSessionLocked_safe (cause : ShutdownCause) (supervisor : Bool → Conversation)
    (owned : Owned me key sid s) (within : Within me key s) :
    ClosingSafe me (shutdownSessionLocked me key sid cause supervisor)
      (fun r t => Within me key t ∧ (cause = .forced → Shut key r t)) s := by
  have lasting : Lasting me fun s => Owned me key sid s ∧ Within me key s := Task.Stable.and owned_lasting within_lasting
  have decided : ClosingSafe me (decideShutdown me sid cause)
      (fun r t => (Owned me key sid t ∧ Within me key t) ∧
        (cause = .forced → (∀ skip, r ≠ .ok (some skip)) → t.sessions key = none ∨ t.timedOut = true)) s := by
    cases cause with
    | forced => exact (decideShutdown_forced_safe owned within).post fun r t here => ⟨here.1, fun _ => here.2⟩
    | idle generation =>
      refine ((framed_decideShutdown sid _).safe lasting ⟨owned, within⟩).post fun r t here => ⟨here, ?_⟩
      intro never
      cases never
    | quiescent =>
      refine ((framed_decideShutdown sid _).safe lasting ⟨owned, within⟩).post fun r t here => ⟨here, ?_⟩
      intro never
      cases never
  refine Task.Safe.bind (closingRely_refl me) (decided.post ?_)
  intro r t here
  have kept : Lasting me fun t => (Owned me key sid t ∧ Within me key t) ∧
      ((cause = .forced ∧ ∀ skip, r ≠ .ok (some skip)) → t.sessions key = none ∨ t.timedOut = true) := cleared_lasting
  have known := And.intro here.1 fun both : cause = .forced ∧ ∀ skip, r ≠ .ok (some skip) => here.2 both.1 both.2
  cases r with
  | error e =>
    refine ⟨here.1.2, fun forced _ => here.2 forced ?_⟩
    intro skip never
    cases never
  | ok decision =>
    cases decision with
    | none =>
      refine Task.safe_ret kept known fun u here => ⟨here.1.2, fun forced _ => here.2 ⟨forced, ?_⟩⟩
      intro skip never
      cases never
    | some skipShutdownRequest =>
      exact (settleShutdown_safe _ here.1.1 here.1.2).post fun _ _ shut => ⟨shut.1, fun _ => shut.2⟩

/-! ## The startup lock -/

theorem rely_lockStartup {other : Nat} {holder : Option Nat} (may : s.startupHolder key ≠ some other) :
    ClosingRely other s (s.lockStartup key holder) := by
  constructor
  case startup =>
    intro key' theirs
    refine ⟨?_, .inl rfl, id, fun _ _ => .inl⟩
    rw [startupHolder_lockStartup, if_neg ?_, theirs]
    rintro rfl
    exact may theirs
  all_goals grind [Registry.lockStartup]

/-- The lock is taken by anybody, and given back when the session of the prefix is not over. -/
theorem ClosingInv.lockStartup (inv : ClosingInv s) {holder : Option Nat}
    (tidy : holder = none → ∀ sid, s.sessions key = some sid → (s.session sid).state.Over → s.timedOut = true) :
    ClosingInv (s.lockStartup key holder) where
  registered := inv.registered
  found := inv.found
  tidy key' sid' free found ended := by
    rw [startupHolder_lockStartup] at free
    split at free
    next same =>
      subst same
      exact tidy free sid' found ended
    next => exact inv.tidy key' sid' free found ended
  announced := inv.announced
  counted := inv.counted
  joined := inv.joined
  returned := inv.returned
  due := inv.due

theorem mem_nameLock {other : String} :
    other ∈ (s.nameLock key).startupLocks ↔ other = key ∨ other ∈ s.startupLocks := by
  unfold Registry.nameLock
  split
  next there => grind
  next => exact List.mem_cons

theorem rely_nameLock (other : Nat) : ClosingRely other s (s.nameLock key) where
  created := Nat.le_refl _
  fresh _ _ := .inl
  startup _ theirs := ⟨theirs, .inl rfl, id, fun _ _ => .inl⟩
  names _ there := mem_nameLock.mpr (.inr there)
  timedOut := id
  closing := id
  returned := id
  census _ := id
  counted _ := .inl
  emptied _ := id

theorem ClosingInv.nameLock (inv : ClosingInv s) : ClosingInv (s.nameLock key) where
  registered := inv.registered
  found _ _ found := by
    obtain ⟨named, rest⟩ := inv.found _ _ found
    exact ⟨mem_nameLock.mpr (.inr named), rest⟩
  tidy := inv.tidy
  announced := inv.announced
  counted keys census := by
    obtain ⟨closing, named⟩ := inv.counted keys census
    exact ⟨closing, fun key' there => mem_nameLock.mpr (.inr (named key' there))⟩
  joined := inv.joined
  returned := inv.returned
  due := inv.due

theorem withStartupLock_safe {P : Registry → Prop} {body : RegistryTask α} {Q : Except Failure α → Registry → Prop}
    (lasting : Lasting me P) (holds : P s) (kept : ∀ r, Lasting me (Q r))
    (given : ∀ r t, Q r t → Q r (t.lockStartup key none))
    (safe : ∀ t, P t → Within me key t → key ∈ t.startupLocks →
      ClosingSafe me body (fun r t => Within me key t ∧ Q r t) t) :
    ClosingSafe me (withStartupLock me key body) Q s := by
  apply own_step lasting holds
  case rely => exact fun t _ _ _ other _ => rely_nameLock other
  case inv => exact fun t _ inv _ => inv.nameLock
  intro t here _ _
  have here : P (t.nameLock key) := lasting _ _ here (rely_nameLock me)
  have named : key ∈ (t.nameLock key).startupLocks := mem_nameLock.mpr (.inl rfl)
  have lasting' : Lasting me fun u => P u ∧ key ∈ u.startupLocks :=
    Task.Stable.and lasting fun _ _ there moved => moved.names key there
  apply own_step lasting' ⟨here, named⟩
  case rely => exact fun u _ _ free other _ => rely_lockStartup (by grind)
  case inv => exact fun u _ inv _ => inv.lockStartup fun never => by cases never
  case rest =>
    intro u here inv free
    have free : u.startupHolder key = none := of_decide_eq_true free
    have within : Within me key (u.lockStartup key (some me)) := by
      refine ⟨?_, fun sid found ended => inv.tidy key sid free found ended⟩
      rw [startupHolder_lockStartup, if_pos rfl]
    have moved : ClosingRely me u (u.lockStartup key (some me)) := rely_lockStartup (by grind)
    show ClosingSafe me (body.attempt >>= fun result =>
      Task.modify (·.lockStartup key none) >>= fun _ => Task.ofExcept result) Q _
    have done := safe _ (lasting _ _ here.1 moved) within here.2
    refine Task.Safe.bind (closingRely_refl me) (Task.Safe.attempt (done.post ?_))
    intro r v established
    have lasting'' : Lasting me fun v => Within me key v ∧ Q r v := Task.Stable.and within_lasting (kept r)
    apply own_step lasting'' established
    case rely => exact fun w here _ _ other ne => rely_lockStartup (by grind [Within])
    case inv => exact fun w here inv _ => inv.lockStartup fun _ => here.1.tidy
    case rest => exact fun w here _ _ => Task.safe_ofExcept (kept r) (given r w here.2)

theorem ClosingInv.owned (inv : ClosingInv s) (mine : s.startupHolder key = some me)
    (found : s.sessions key = some sid) : Owned me key sid s := by
  obtain ⟨created, named⟩ := inv.registered key sid found
  refine ⟨mine, created, ?_, ?_⟩
  · intro other same
    rw [found] at same
    exact (Option.some.inj same).symm
  · intro other same
    rw [← (inv.registered other sid same).2, named]

/-- What a look at the sessions tells the holder of the lock. -/
structure Seen (me : Nat) (key : String) (found : Option Nat) (s : Registry) : Prop where
  gone : found = none → Gone me key s
  owned : ∀ sid, found = some sid → Owned me key sid s

theorem seen_lasting {found : Option Nat} : Lasting me (Seen me key found) := by
  intro s t seen moved
  exact ⟨fun none => gone_lasting s t (seen.gone none) moved,
    fun sid same => owned_lasting s t (seen.owned sid same) moved⟩

theorem look_safe {F : Registry → Prop} (lasting : Lasting me F) (holder : ∀ t, F t → t.startupHolder key = some me)
    (holds : F s) :
    ClosingSafe me (.read fun s => s.sessions key) (fun r t => ∃ found, r = .ok found ∧ F t ∧ Seen me key found t) s := by
  refine closingQuiet.read (K := fun found t => F t ∧ Seen me key found t) frame_refl lasting holds
    (fun found => Task.Stable.and lasting seen_lasting) fun t here inv => ⟨here, ?_, ?_⟩
  · exact fun none => ⟨holder t here, none⟩
  · exact fun sid found => inv.owned (holder t here) found

/-- Nothing is left to say of how the task ends. -/
abbrev Harmless (me : Nat) (p : RegistryTask α) : Prop :=
  Task.Harmless ClosingInv (ClosingRely me) (closingDiscipline.guar me) p

theorem Framed.harmless {p : RegistryTask α} (framed : Framed p) : Harmless me p := closingQuiet.harmless framed

theorem Harmless.bind {β : Type} {p : RegistryTask α} {f : α → RegistryTask β} (first : Harmless me p)
    (rest : ∀ a, Harmless me (f a)) : Harmless me (p >>= f) := Task.Harmless.bind (closingRely_refl me) first rest

theorem shutdownSession_harmless (cause : ShutdownCause) (supervisor : Bool → Conversation) :
    Harmless me (shutdownSession me key sid cause supervisor) := by
  intro s
  apply withStartupLock_safe Task.stable_true trivial (fun _ => Task.stable_true) fun _ _ => id
  intro t _ within _
  refine (look_safe within_lasting (fun _ within => within.holder) within).andThen (closingRely_refl me)
    fun found u known => ?_
  split
  next same =>
    exact (shutdownSessionLocked_safe cause supervisor (known.2.owned sid same) known.1).post
      fun _ _ shut => ⟨shut.1, trivial⟩
  next => exact Task.safe_ret within_lasting known.1 fun _ within => ⟨within, trivial⟩

theorem idleShutdownIfQuiet_harmless (generation : Nat) (supervisor : Bool → Conversation) :
    Harmless me (idleShutdownIfQuiet me key generation sid supervisor) := by
  have nothing : Harmless me (.ret () : RegistryTask Unit) := Task.Harmless.ret ()
  refine (framed_read _).harmless.bind fun found => ?_
  split
  · refine (framed_read _).harmless.bind fun current => ?_
    split
    · refine (framed_isQuiet sid).harmless.bind fun quiet => ?_
      split
      · refine Harmless.bind (Framed.harmless ⟨frame_refl, fun _ => trivial⟩) fun state => ?_
        split
        · exact shutdownSession_harmless _ supervisor
        · exact nothing
      · exact nothing
    · exact nothing
  · exact nothing

/-! ## Operations -/

/-- The thread has the lock since before anybody found no session here and closed. -/
structure Unclosed (me : Nat) (key : String) (s : Registry) : Prop where
  holder : s.startupHolder key = some me
  named : key ∈ s.startupLocks
  counted : ∀ keys, s.census = some keys → key ∈ keys
  emptied : key ∉ s.emptied

theorem unclosed_lasting : Lasting me (Unclosed me key) := by
  intro s t unclosed moved
  have guarded := moved.startup key unclosed.holder
  refine ⟨guarded.holder, moved.names key unclosed.named, ?_, fun there => unclosed.emptied (guarded.emptied there)⟩
  intro keys census
  rcases moved.counted keys census with before | after
  · exact unclosed.counted keys before
  · exact after key unclosed.named

/-- A launcher that is found open under the lock has emptied no prefix. -/
theorem ClosingInv.unclosed (inv : ClosingInv s) (mine : s.startupHolder key = some me) (named : key ∈ s.startupLocks)
    (open_ : s.closing = false) : Unclosed me key s := by
  refine ⟨mine, named, ?_, ?_⟩
  · intro keys census
    have closing := (inv.counted keys census).1
    rw [open_] at closing
    cases closing
  · intro there
    have closing := inv.announced key there
    rw [open_] at closing
    cases closing

theorem frame_hand (s : Registry) (lease : OperationLease) : Frame s (s.hand lease) := by
  have put : Frame s (s.put lease.session { s.session lease.session with
      operationLeases := (s.session lease.session).operationLeases + 1 }) := frame_put rfl id
  exact { put with }

theorem frame_create (s : Registry) (session : RunnerSession) : Frame s (s.create session) where
  created := Nat.le_succ _
  sessions _ := rfl
  startupLocks := rfl
  startupHolder _ := rfl
  closing := rfl
  census := rfl
  emptied := rfl
  joined := rfl
  timedOut := rfl
  returned := rfl
  prefixKey sid old := by
    show ((s.put s.created session).session sid).prefixKey = _
    rw [session_put, if_neg (Nat.ne_of_lt old)]
  ended sid old := by
    show ((s.put s.created session).session sid).state.Over → _
    rw [session_put, if_neg (Nat.ne_of_lt old)]
    exact id
  spawned _ := .inl

theorem rely_publish {request : Request} {fatal : Bool} {other : Nat} (unclosed : Unclosed me key s)
    (inv : ClosingInv s) (ne : other ≠ me) : ClosingRely other s (s.publish key request fatal) where
  created := Nat.le_succ _
  fresh key' sid' found := by
    rw [sessions_publish] at found
    split at found
    next =>
      cases found
      exact .inr (Nat.le_refl _)
    next => exact .inl found
  startup key' theirs := by
    have apart : key' ≠ key := by
      rintro rfl
      rw [unclosed.holder] at theirs
      cases theirs
      exact ne rfl
    refine ⟨theirs, .inl ?_, id, ?_⟩
    · rw [sessions_publish, if_neg apart]
    · intro sid' found
      rw [session_publish, if_neg (Nat.ne_of_lt (inv.registered key' sid' found).1)]
      exact .inl
  names _ := id
  timedOut := id
  closing := id
  returned := id
  census _ := id
  counted _ := .inl
  emptied _ := id

theorem ClosingInv.publish {request : Request} {fatal : Bool} (inv : ClosingInv s) (unclosed : Unclosed me key s) :
    ClosingInv (s.publish key request fatal) where
  registered key' sid' found := by
    rw [sessions_publish] at found
    split at found
    next same =>
      cases found
      refine ⟨Nat.lt_succ_self _, ?_⟩
      rw [session_publish, if_pos rfl]
      exact same.symm
    next =>
      obtain ⟨created, named⟩ := inv.registered key' sid' found
      refine ⟨Nat.lt_succ_of_lt created, ?_⟩
      rw [session_publish, if_neg (Nat.ne_of_lt created)]
      exact named
  found key' sid' found := by
    rw [sessions_publish] at found
    split at found
    next same =>
      subst same
      exact ⟨unclosed.named, unclosed.emptied, unclosed.counted⟩
    next => exact inv.found key' sid' found
  tidy key' sid' free found ended := by
    rw [sessions_publish] at found
    split at found
    next same =>
      subst same
      have never : s.startupHolder key' = none := free
      rw [unclosed.holder] at never
      cases never
    next =>
      rw [session_publish, if_neg (Nat.ne_of_lt (inv.registered key' sid' found).1)] at ended
      exact inv.tidy key' sid' free found ended
  announced := inv.announced
  counted := inv.counted
  joined := inv.joined
  returned := inv.returned
  due := inv.due

theorem beginOnExisting_safe {request : Request} (owned : Owned me key sid s) (within : Within me key s)
    (unclosed : Unclosed me key s) :
    ClosingSafe me (beginOnExisting me key request sid)
      (fun r t => (Within me key t ∧ Unclosed me key t) ∧ (r = .ok none → t.sessions key = none)) s := by
  have both : Lasting me fun t => Within me key t ∧ Unclosed me key t := Task.Stable.and within_lasting unclosed_lasting
  have all : Lasting me fun t => Owned me key sid t ∧ Within me key t ∧ Unclosed me key t :=
    Task.Stable.and owned_lasting both
  have kept (C : Prop) : Lasting me fun t => (Within me key t ∧ Unclosed me key t) ∧ (C → t.sessions key = none) := by
    intro t u here moved
    refine ⟨both t u here.1 moved, fun c => ?_⟩
    exact (gone_lasting t u ⟨here.1.1.holder, here.2 c⟩ moved).none
  have fails (e : Failure) (t : Registry) (here : Within me key t ∧ Unclosed me key t) :
      ClosingSafe me (.fail e : RegistryTask (Option Admission))
        (fun r t => (Within me key t ∧ Unclosed me key t) ∧ (r = .ok none → t.sessions key = none)) t :=
    Task.safe_fail both here fun u here => ⟨here, fun never => by cases never⟩
  have gives (admission : Admission) (t : Registry) (here : Within me key t ∧ Unclosed me key t) :
      ClosingSafe me (.ret (some admission))
        (fun r t => (Within me key t ∧ Unclosed me key t) ∧ (r = .ok none → t.sessions key = none)) t :=
    Task.safe_ret both here fun u here => ⟨here, fun never => by cases never⟩
  have removes (t : Registry) (here : Owned me key sid t ∧ Within me key t ∧ Unclosed me key t) :
      ClosingSafe me (removeSessionIfSame key sid >>= fun _ => .ret none : RegistryTask (Option Admission))
        (fun r t => (Within me key t ∧ Unclosed me key t) ∧ (r = .ok none → t.sessions key = none)) t := by
    have kept (v : Registry) (unclosed : Unclosed me key v) : Unclosed me key (v.remove key) :=
      ⟨unclosed.holder, unclosed.named, unclosed.counted, unclosed.emptied⟩
    refine (removeSessionIfSame_keeps unclosed_lasting kept here.1 here.2.2).andThen (closingRely_refl me)
      fun _ u gone => ?_
    refine Task.safe_ret (Task.Stable.and gone_lasting unclosed_lasting) gone fun v gone => ?_
    exact ⟨⟨gone.1.within, gone.2⟩, fun _ => gone.1.none⟩
  refine withStateLock_safe all ⟨owned, within, unclosed⟩ (fun r => kept _) fun t here => ?_
  refine ((framed_read _).safe all here).seq (closingRely_refl me) (fun existing u here => ?_) fun e u here => ?_
  · split
    next =>
      split
      next => exact fails _ u here.2
      next =>
        split
        next =>
          refine ((framed_isQuiet sid).safe both here.2).seq (closingRely_refl me) (fun quiet v here => ?_) fun e v here => ?_
          · split
            next =>
              refine ((framed_read _).safe both here).seq (closingRely_refl me) (fun generation w here => ?_) fun e w here => ?_
              · exact gives _ w here
              · exact ⟨here, fun never => by cases never⟩
            next => exact fails _ v here
          · exact ⟨here, fun never => by cases never⟩
        next =>
          refine closingQuiet.step both here.2 (fun v => frame_bump v sid _) fun v _ _ _ here => ?_
          exact closingQuiet.step both here (fun w => frame_hand w _) fun w _ _ _ here => gives _ _ here
    next => exact gives _ u here.2
    next => exact removes u here
    next => exact removes u here
  · exact ⟨here.2, fun never => by cases never⟩

theorem startSession_safe {request : Request} (attempt : Attempt) (gone : Gone me key s) (unclosed : Unclosed me key s) :
    ClosingSafe me (startSession me key request attempt) (fun _ t => Within me key t) s := by
  have lasting : Lasting me fun t => Gone me key t ∧ Unclosed me key t := Task.Stable.and gone_lasting unclosed_lasting
  refine (Framed.safe (Task.Framed.ofExcept _) lasting ⟨gone, unclosed⟩).seq (closingRely_refl me) (fun _ t here => ?_)
    fun e t here => here.1.within
  refine ((framed_read _).safe lasting here).seq (closingRely_refl me) (fun closing u here => ?_)
    fun e u here => here.1.within
  split
  next =>
    refine closingQuiet.step gone_lasting here.1 (fun v => frame_create v _) fun v _ inv _ here => ?_
    have owned : Owned me key v.created (v.create (.new key request attempt.fatal false)) := by
      refine ⟨here.holder, Nat.lt_succ_self _, ?_, ?_⟩
      · intro other found
        have none : (v.create (.new key request attempt.fatal false)).sessions key = Option.none := here.none
        rw [none] at found
        cases found
      · intro other found
        exact absurd (inv.registered other v.created found).1 (Nat.lt_irrefl _)
    refine (shutdownSessionLocked_safe .forced attempt.discard owned here.within).seq (closingRely_refl me)
      (fun _ w shut => ?_) fun e w shut => shut.1
    exact Task.safe_fail within_lasting shut.1 fun _ => id
  next =>
    apply own_step lasting here
    case rely => exact fun v here inv _ other ne => rely_publish here.2 inv ne
    case inv => exact fun v here inv _ => inv.publish here.2
    case rest =>
      intro v here inv _
      refine Task.safe_ret within_lasting ?_ fun _ => id
      refine ⟨here.1.holder, fun sid found ended => ?_⟩
      rw [sessions_publish, if_pos rfl] at found
      cases found
      rw [session_publish, if_pos rfl] at ended
      rcases ended with never | never
      · cases never
      · cases never

theorem beginLocked_safe {request : Request} (attempt : Attempt) (within : Within me key s)
    (named : key ∈ s.startupLocks) :
    ClosingSafe me (beginLocked me key request attempt) (fun _ t => Within me key t) s := by
  have lasting : Lasting me fun t => Within me key t ∧ key ∈ t.startupLocks :=
    Task.Stable.and within_lasting fun _ _ there moved => moved.names key there
  have both : Lasting me fun t => Within me key t ∧ Unclosed me key t := Task.Stable.and within_lasting unclosed_lasting
  have opened (closing : Bool) : Lasting me fun t => Within me key t ∧ (closing = false → Unclosed me key t) :=
    Task.Stable.and within_lasting fun t u here moved open_ => unclosed_lasting t u (here open_) moved
  refine (closingQuiet.read (K := fun closing t => Within me key t ∧ (closing = false → Unclosed me key t))
    frame_refl lasting ⟨within, named⟩ opened ?_).andThen (closingRely_refl me) fun closing t known => ?_
  · exact fun t here inv => ⟨here.1, inv.unclosed here.1.holder here.2⟩
  split
  next => exact Task.safe_fail within_lasting known.1 fun _ => id
  next open_ =>
    have unclosed := known.2 (Bool.eq_false_iff.mpr open_)
    refine (look_safe both (fun _ here => here.1.holder) ⟨known.1, unclosed⟩).andThen (closingRely_refl me)
      fun found u known => ?_
    split
    next => exact startSession_safe attempt (known.2.gone rfl) known.1.2
    next sid =>
      refine Task.Safe.bind (closingRely_refl me)
        ((beginOnExisting_safe (known.2.owned sid rfl) known.1.1 known.1.2).post ?_)
      intro r v here
      cases r with
      | error e => exact here.1.1
      | ok admission =>
        cases admission with
        | none => exact startSession_safe attempt ⟨here.1.1.holder, here.2 rfl⟩ here.1.2
        | some admission => exact Task.safe_ret within_lasting here.1.1 fun _ => id

theorem beginLoop_harmless {request : Request} (attempts : List Attempt) :
    Harmless me (beginLoop me key request attempts) := by
  induction attempts with
  | nil => exact Framed.harmless ⟨frame_refl, fun _ => trivial⟩
  | cons attempt later ih =>
    have locked : Harmless me (withStartupLock me key (beginLocked me key request attempt)) := by
      intro s
      apply withStartupLock_safe Task.stable_true trivial (fun _ => Task.stable_true) fun _ _ => id
      intro t _ within named
      exact (beginLocked_safe attempt within named).post fun _ _ within => ⟨within, trivial⟩
    refine locked.bind fun admission => ?_
    cases admission with
    | lease lease => exact Framed.harmless trivial
    | shutdown sid cause => exact (shutdownSession_harmless cause attempt.shutdown).bind fun _ => ih

theorem canonicalKey_framed (canonical : Option String) : Framed (canonicalKey canonical) := by
  cases canonical with
  | none => trivial
  | some key => trivial

theorem beginOperationOpt_harmless {request : Request} (canonical : Option String) (attempts : List Attempt) :
    Harmless me (beginOperationOpt me canonical request attempts) :=
  (canonicalKey_framed canonical).harmless.bind fun _ => beginLoop_harmless attempts

theorem shutdownPrefix_harmless (canonical : Option String) (supervisor : Bool → Conversation) :
    Harmless me (shutdownPrefix me canonical supervisor) := by
  refine (canonicalKey_framed canonical).harmless.bind fun key => ?_
  refine (framed_read _).harmless.bind fun found => ?_
  cases found with
  | none => exact Framed.harmless trivial
  | some sid => exact shutdownSession_harmless _ supervisor

/-! ## Timeouts -/

theorem timedOut_lasting : Lasting me fun s => s.timedOut = true := fun _ _ late moved => moved.timedOut late

/-- After a timeout anybody may end a session. -/
theorem setState_late (state : SessionState) (late : s.timedOut = true) :
    ClosingSafe me (setState sid state) (fun r t => ∃ a, r = .ok a ∧ t.timedOut = true) s := by
  apply own_step timedOut_lasting late
  case rely =>
    intro t late inv _ other _
    constructor
    case startup => exact fun key' theirs => ⟨theirs, .inl rfl, id, fun _ _ _ => .inr late⟩
    all_goals grind [Registry.put]
  case inv => exact fun t late inv _ => inv.put rfl fun _ _ _ => late
  case rest => exact fun t late _ _ => Task.safe_ret timedOut_lasting late fun _ late => ⟨(), rfl, late⟩

theorem removeSessionIfSame_late (late : s.timedOut = true) :
    ClosingSafe me (removeSessionIfSame key sid) (fun r t => ∃ a, r = .ok a ∧ t.timedOut = true) s := by
  apply own_step timedOut_lasting late
  case rely =>
    intro t late _ _ other _
    split
    next => exact rely_remove (.inr late)
    next => exact closingRely_refl other t
  case inv =>
    intro t _ inv _
    split
    next => exact inv.remove key
    next => exact inv
  case rest =>
    intro t late _ _
    refine Task.safe_ret timedOut_lasting ?_ fun _ late => ⟨(), rfl, late⟩
    split
    next => exact late
    next => exact late

theorem failSession_late (error : SessionError) (late : s.timedOut = true) :
    ClosingSafe me (failSession key sid error) (fun _ t => t.timedOut = true) s := by
  refine (setState_late .failed late).andThen (closingRely_refl me) fun _ t late => ?_
  refine (removeSessionIfSame_late late).andThen (closingRely_refl me) fun _ u late => ?_
  exact Task.safe_fail timedOut_lasting late fun _ => id

theorem forceKillSession_safe (late : s.timedOut = true) :
    ClosingSafe me (forceKillSession key sid) (fun _ t => t.timedOut = true) s := by
  refine Task.Safe.bind (closingRely_refl me) (Task.Safe.attempt ((failSession_late _ late).post ?_))
  exact fun r t late => Task.safe_ret timedOut_lasting late fun _ => id

/-- A timeout of `shutdown_all`. -/
def Registry.expire (s : Registry) : Registry := { s with timedOut := true }

theorem rely_expire (other : Nat) : ClosingRely other s s.expire where
  created := Nat.le_refl _
  fresh _ _ := .inl
  startup _ theirs := ⟨theirs, .inl rfl, id, fun _ _ => .inl⟩
  names _ := id
  timedOut _ := rfl
  closing := id
  returned := id
  census _ := id
  counted _ := .inl
  emptied _ := id

theorem ClosingInv.expire (inv : ClosingInv s) : ClosingInv s.expire where
  registered := inv.registered
  found := inv.found
  tidy _ _ _ _ _ := rfl
  announced := inv.announced
  counted := inv.counted
  joined _ _ _ := .inl rfl
  returned := inv.returned
  due job there := by
    have due := inv.due job there
    cases job with
    | idleTimer key generation sid => trivial
    | shutdownKey call key => exact due
    | forceKill key sid => rfl

theorem expireKey_safe : ClosingSafe me (expireKey key) (fun _ t => t.timedOut = true) s := by
  apply own_step Task.stable_true trivial (fun t _ _ _ other _ => rely_expire other) (fun t _ inv _ => inv.expire)
  intro t _ _ _
  have late : t.expire.timedOut = true := rfl
  refine ((framed_read _).safe timedOut_lasting late).seq (closingRely_refl me) (fun found u late => ?_)
    fun e u late => late
  cases found with
  | none => exact Task.safe_ret timedOut_lasting late fun _ => id
  | some sid => exact forceKillSession_safe late

/-- A prefix was found without a session under its lock, or a timeout passed. -/
def Emptied (key : String) (s : Registry) : Prop := s.timedOut = true ∨ key ∈ s.emptied

theorem emptied_lasting : Lasting me (Emptied key) := by
  intro s t here moved
  rcases here with late | there
  · exact .inl (moved.timedOut late)
  · exact .inr (moved.emptied key there)

theorem joinKey_safe {call : Nat} (emptied : Emptied key s) :
    ClosingSafe me (joinKey call key) (fun _ _ => True) s := by
  apply own_step emptied_lasting emptied
  case rely =>
    intro t _ _ _ other _
    constructor
    case startup => exact fun _ theirs => ⟨theirs, .inl rfl, id, fun _ _ => .inl⟩
    all_goals grind
  case inv =>
    intro t emptied inv _
    refine { inv with joined := ?_ }
    intro call' key' there
    rcases List.mem_cons.mp there with same | old
    · cases same
      exact emptied
    · exact inv.joined call' key' old
  case rest => exact fun t _ _ _ => Task.safe_ret Task.stable_true trivial fun _ => id

/-! ## Closing -/

theorem closing_lasting : Lasting me fun s => s.closing = true := fun _ _ closing moved => moved.closing closing

theorem closing_own : Task.Stable (closingDiscipline.guar me) fun s => s.closing = true :=
  fun _ _ closing guar => (guar (me + 1) (Nat.succ_ne_self me)).closing closing

theorem shut_lasting {r : Except Failure Unit} : Lasting me fun s => (Within me key s ∧ s.closing = true) ∧ Shut key r s := by
  intro s t here moved
  have guarded := moved.startup key here.1.1.holder
  refine ⟨⟨within_lasting s t here.1.1 moved, moved.closing here.1.2⟩, fun given => ?_⟩
  rcases here.2 given with none | late
  · rcases guarded.sessions with same | gone
    · exact .inl (same.trans none)
    · exact .inl gone.2
  · exact .inr (moved.timedOut late)

/-- A prefix is found without a session, under its lock. -/
def Registry.empty (s : Registry) (key : String) : Registry :=
  if s.sessions key = none ∧ s.closing then { s with emptied := key :: s.emptied } else s

theorem rely_empty {other : Nat} (apart : s.startupHolder key ≠ some other) : ClosingRely other s (s.empty key) := by
  unfold Registry.empty
  split
  next =>
    constructor
    case startup =>
      intro key' theirs
      refine ⟨theirs, .inl rfl, fun there => ?_, fun _ _ => .inl⟩
      rcases List.mem_cons.mp there with rfl | old
      · exact absurd theirs apart
      · exact old
    case emptied => exact fun _ => List.mem_cons_of_mem key
    all_goals grind
  next => exact closingRely_refl other s

theorem ClosingInv.empty (inv : ClosingInv s) (key : String) : ClosingInv (s.empty key) := by
  unfold Registry.empty
  split
  next here =>
    refine { inv with found := ?_, announced := ?_, joined := ?_, returned := ?_ }
    · intro key' sid found
      obtain ⟨named, out, counted⟩ := inv.found key' sid found
      refine ⟨named, fun there => ?_, counted⟩
      rcases List.mem_cons.mp there with rfl | old
      · rw [here.1] at found
        cases found
      · exact out old
    · exact fun _ _ => here.2
    · exact fun call key' there => (inv.joined call key' there).imp_right (List.mem_cons_of_mem key)
    · intro returned
      obtain ⟨keys, census, all⟩ := inv.returned returned
      exact ⟨keys, census, fun key' there => List.mem_cons_of_mem key (all key' there)⟩
  next => exact inv

theorem emptied_of_shut {r : Except Failure Unit} (shut : Shut key r s) (closing : s.closing = true)
    (given : r ≠ .error .dropped) : Emptied key (s.empty key) := by
  unfold Registry.empty
  split
  next => exact .inr List.mem_cons_self
  next full =>
    rcases shut given with none | late
    · exact absurd ⟨none, closing⟩ full
    · exact .inl late

theorem shutdownKeyLocked_safe (supervisor : Bool → Conversation) (within : Within me key s) (closing : s.closing = true) :
    ClosingSafe me (shutdownKeyLocked me key supervisor)
      (fun r t => Within me key t ∧ (r ≠ .error .dropped → Emptied key t)) s := by
  have lasting : Lasting me fun t => Within me key t ∧ t.closing = true := Task.Stable.and within_lasting closing_lasting
  have emptied (r : Except Failure Unit) : Lasting me fun t => Within me key t ∧ (r ≠ .error .dropped → Emptied key t) :=
    Task.Stable.and within_lasting fun t u here moved given => emptied_lasting t u (here given) moved
  refine Task.Safe.bind (closingRely_refl me) (Task.Safe.attempt ?_)
  refine (look_safe lasting (fun _ here => here.1.holder) ⟨within, closing⟩).andThen (closingRely_refl me)
    fun found t known => ?_
  have rest (r : Except Failure Unit) (u : Registry) (here : (Within me key u ∧ u.closing = true) ∧ Shut key r u) :
      ClosingSafe me (Task.modify (fun s => if s.sessions key = none ∧ s.closing then { s with emptied := key :: s.emptied }
        else s) >>= fun _ => Task.ofExcept r) (fun r t => Within me key t ∧ (r ≠ .error .dropped → Emptied key t)) u := by
    apply own_step shut_lasting here
    case rely => exact fun v here _ _ other ne => rely_empty (by grind [Within])
    case inv => exact fun v _ inv _ => inv.empty key
    case rest =>
      intro v here _ _
      have within' : Within me key (v.empty key) := by
        unfold Registry.empty
        split
        next => exact ⟨here.1.1.holder, here.1.1.tidy⟩
        next => exact here.1.1
      exact Task.safe_ofExcept (emptied r) ⟨within', emptied_of_shut here.2 here.1.2⟩
  cases found with
  | none =>
    exact Task.safe_ret shut_lasting ⟨known.1, fun _ => .inl (known.2.gone rfl).none⟩ fun u here => rest _ u here
  | some sid =>
    have shut := shutdownSessionLocked_safe .forced supervisor (known.2.owned sid rfl) known.1.1
    have both := Task.Safe.keeps closing_lasting closing_own shut known.1.2
    exact both.post fun r u here => rest r u ⟨⟨here.1.1, here.2⟩, here.1.2 rfl⟩

theorem shutdownKey_safe {call : Nat} (answers : KeyAnswers) (closing : s.closing = true) :
    ClosingSafe me (shutdownKey me call key answers) (fun _ _ => True) s := by
  have expires (t : Registry) : ClosingSafe me (expireKey key >>= fun _ => joinKey call key) (fun _ _ => True) t :=
    expireKey_safe.seq (closingRely_refl me) (fun _ u late => joinKey_safe (.inl late)) fun _ _ _ => trivial
  unfold shutdownKey
  split
  next => exact expires s
  next =>
    have kept (r : Except Failure Unit) : Lasting me fun t => r ≠ .error .dropped → Emptied key t :=
      fun t u here moved given => emptied_lasting t u (here given) moved
    have locked : ClosingSafe me (withStartupLock me key (shutdownKeyLocked me key answers.supervisor))
        (fun r t => r ≠ .error .dropped → Emptied key t) s := by
      apply withStartupLock_safe closing_lasting closing kept fun _ _ => id
      exact fun t closing within _ => shutdownKeyLocked_safe answers.supervisor within closing
    refine Task.Safe.bind (closingRely_refl me) (Task.Safe.attempt (locked.post fun r t emptied => ?_))
    cases r with
    | ok given => exact joinKey_safe (emptied fun never => by cases never)
    | error failure =>
      cases failure with
      | error error => exact joinKey_safe (emptied fun never => by cases never)
      | dropped =>
        show ClosingSafe me (if answers.aborted then .ret ()
          else expireKey key >>= fun _ => joinKey call key) (fun _ _ => True) t
        split
        next => exact Task.safe_ret Task.stable_true trivial fun _ => id
        next => exact expires t

theorem runJob_harmless {job : Job} {body : RegistryTask Unit}
    (safe : ∀ s, job.Due s → ClosingSafe me body (fun _ _ => True) s) : Harmless me (runJob job body) := by
  intro s
  have taken (t : Registry) : Frame t { t with spawned := t.spawned.erase job } := by
    constructor
    case spawned => exact fun _ there => .inl (List.mem_of_mem_erase there)
    all_goals grind
  refine closingQuiet.step Task.stable_true trivial taken fun t _ inv there _ => safe _ ?_
  have due := inv.due job (of_decide_eq_true there)
  cases job with
  | idleTimer key generation sid => trivial
  | shutdownKey call key => exact due
  | forceKill key sid => exact due

/-- Jobs that are due are spawned. -/
theorem ClosingInv.spawned (inv : ClosingInv s) {jobs : List Job} {calls : Nat} (due : ∀ job ∈ jobs, job.Due s) :
    ClosingInv { s with calls := calls, spawned := jobs ++ s.spawned } := by
  refine { inv with due := ?_ }
  intro job there
  have due : job.Due s := (List.mem_append.mp there).elim (due job) (inv.due job)
  cases job with
  | idleTimer key generation sid => trivial
  | shutdownKey call key => exact due
  | forceKill key sid => exact due

theorem rely_spawned (other : Nat) {jobs : List Job} {calls : Nat} :
    ClosingRely other s { s with calls := calls, spawned := jobs } where
  created := Nat.le_refl _
  fresh _ _ := .inl
  startup _ theirs := ⟨theirs, .inl rfl, id, fun _ _ => .inl⟩
  names _ := id
  timedOut := id
  closing := id
  returned := id
  census _ := id
  counted _ := .inl
  emptied _ := id

theorem killRemaining_safe (remaining : List String) (late : s.timedOut = true) :
    ClosingSafe me (killRemaining remaining) (fun _ _ => True) s := by
  induction remaining generalizing s with
  | nil => exact Task.safe_ret Task.stable_true trivial fun _ => id
  | cons key remaining ih =>
    refine ((framed_read _).safe timedOut_lasting late).seq (closingRely_refl me) (fun found t late => ?_)
      fun _ _ _ => trivial
    cases found with
    | none => exact ih late
    | some sid =>
      apply own_step timedOut_lasting late
      case rely => exact fun u _ _ _ other _ => rely_spawned other
      case inv =>
        intro u late inv _
        refine @ClosingInv.spawned _ inv [.forceKill key sid] _ fun job there => ?_
        rw [List.mem_singleton.mp there]
        exact late
      case rest => exact fun u late _ _ => ih late

/-- The prefixes of the census are among these. -/
def Covers (keys : List String) (s : Registry) : Prop :=
  ∃ census, s.census = some census ∧ ∀ key, key ∈ census → key ∈ keys

theorem covers_lasting {keys : List String} : Lasting me (Covers keys) := by
  rintro s t ⟨census, counted, all⟩ moved
  exact ⟨census, moved.census census counted, all⟩

theorem returnErrors_safe {keys : List String} (covers : Covers keys s) (emptied : ∀ key, key ∈ keys → Emptied key s) :
    ClosingSafe me (returnErrors) (fun _ _ => True) s := by
  have lasting : Lasting me fun t => Covers keys t ∧ ∀ key, key ∈ keys → Emptied key t :=
    Task.Stable.and covers_lasting fun t u here moved key there => emptied_lasting t u (here key there) moved
  apply own_step lasting ⟨covers, emptied⟩
  case rely =>
    intro t _ _ _ other _
    constructor
    case startup => exact fun _ theirs => ⟨theirs, .inl rfl, id, fun _ _ => .inl⟩
    all_goals grind
  case inv =>
    intro t here inv _
    refine { inv with returned := ?_ }
    intro returned
    rcases Bool.or_eq_true_iff.mp returned with before | now
    · exact inv.returned before
    · obtain ⟨census, counted, all⟩ := here.1
      refine ⟨census, counted, fun key there => ?_⟩
      refine (here.2 key (all key there)).resolve_left fun late => ?_
      rw [late] at now
      cases now
  case rest => exact fun t _ _ _ => Task.safe_ret Task.stable_true trivial fun _ => id

/-- Admission is closed. -/
theorem close_safe : ClosingSafe me (.modify fun s => { s with closing := true })
    (fun r t => ∃ a, r = .ok a ∧ t.closing = true) s := by
  apply own_step Task.stable_true trivial
  case rely =>
    intro t _ _ _ other _
    constructor
    case startup => exact fun _ theirs => ⟨theirs, .inl rfl, id, fun _ _ => .inl⟩
    all_goals grind
  case inv =>
    intro t _ inv _
    refine { inv with announced := fun _ _ => rfl, counted := ?_, due := ?_ }
    · exact fun keys census => ⟨rfl, (inv.counted keys census).2⟩
    · intro job there
      have due := inv.due job there
      cases job with
      | idleTimer key generation sid => trivial
      | shutdownKey call key => rfl
      | forceKill key sid => exact due
  case rest => exact fun t _ _ _ => Task.safe_ret closing_lasting rfl fun _ closing => ⟨(), rfl, closing⟩

/-- The census is taken of the locks that there are. -/
theorem census_safe (closing : s.closing = true) :
    ClosingSafe me (.fetch (·.startupLocks) fun s => { s with census := some (s.census.getD s.startupLocks) })
      (fun r t => ∃ keys, r = .ok keys ∧ t.closing = true ∧ Covers keys t) s := by
  have counted (t : Registry) (keys : List String) (same : some (t.census.getD t.startupLocks) = some keys) :
      t.census = some keys ∨ keys = t.startupLocks := by
    cases before : t.census with
    | none =>
      rw [before] at same
      exact .inr (Option.some.inj same).symm
    | some census =>
      rw [before] at same
      exact .inl same
  apply own_step closing_lasting closing
  case rely =>
    intro t _ _ _ other _
    constructor
    case startup => exact fun _ theirs => ⟨theirs, .inl rfl, id, fun _ _ => .inl⟩
    case census =>
      intro keys census
      show some (t.census.getD t.startupLocks) = some keys
      rw [census]
      rfl
    case counted =>
      intro keys same
      refine (counted t keys same).imp_right ?_
      rintro rfl key there
      exact there
    all_goals grind
  case inv =>
    intro t closing inv _
    refine { inv with found := ?_, counted := ?_, returned := ?_ }
    · intro key sid found
      obtain ⟨named, out, before⟩ := inv.found key sid found
      refine ⟨named, out, fun keys same => ?_⟩
      rcases counted t keys same with census | rfl
      · exact before keys census
      · exact named
    · intro keys same
      refine ⟨closing, ?_⟩
      rcases counted t keys same with census | rfl
      · exact (inv.counted keys census).2
      · exact fun _ => id
    · intro returned
      obtain ⟨keys, census, all⟩ := inv.returned returned
      refine ⟨keys, ?_, all⟩
      show some (t.census.getD t.startupLocks) = some keys
      rw [census]
      rfl
  case rest =>
    intro t closing inv _
    have lasting : Lasting me fun u => u.closing = true ∧ Covers t.startupLocks u :=
      Task.Stable.and closing_lasting covers_lasting
    refine Task.safe_ret lasting ⟨closing, _, rfl, ?_⟩ fun u here => ⟨_, rfl, here⟩
    rcases counted t _ rfl with census | same
    · exact (inv.counted _ census).2
    · rw [same]
      exact fun _ => id

theorem shutdownAllOwned_harmless (timesOut : Bool) : Harmless me (shutdownAllOwned timesOut) := by
  intro s
  refine close_safe.andThen (closingRely_refl me) fun _ t closing => ?_
  refine (census_safe closing).andThen (closingRely_refl me) fun keys u here => ?_
  split
  next none =>
    refine returnErrors_safe here.2 fun key never => ?_
    rw [none] at never
    cases never
  next =>
    have lasting : Lasting me fun v => v.closing = true ∧ Covers keys v := Task.Stable.and closing_lasting covers_lasting
    apply own_step lasting here
    case rely => exact fun v _ _ _ other _ => rely_spawned other
    case inv =>
      intro v here inv _
      refine inv.spawned fun job there => ?_
      obtain ⟨key, -, rfl⟩ := List.mem_map.mp there
      exact here.1
    case rest =>
      intro v here _ _
      cases timesOut with
      | true =>
        apply own_step Task.stable_true trivial (fun w _ _ _ other _ => rely_expire other) (fun w _ inv _ => inv.expire)
        intro w _ _ _
        have late : w.expire.timedOut = true := rfl
        refine ((framed_read _).safe timedOut_lasting late).seq (closingRely_refl me)
          (fun remaining x late => killRemaining_safe remaining late) fun _ _ _ => trivial
      | false =>
        refine closingQuiet.step covers_lasting here.2 frame_refl fun w covers inv joined _ => ?_
        refine returnErrors_safe covers fun key there => ?_
        exact inv.joined v.calls key (of_decide_eq_true joined key there)

theorem shutdownAll_harmless (timesOut : Bool) : Harmless me (shutdownAll timesOut) := by
  intro s
  exact close_safe.andThen (closingRely_refl me) fun _ t _ => shutdownAllOwned_harmless timesOut t

/-! ## Every task -/

theorem framed_accepted (sid : Nat) (requestId : String) (s : Registry) : Frame s (accepted sid requestId s) := by
  have put : Frame s (s.put sid { s.session sid with activeRequests := (s.session sid).activeRequests + 1 }) :=
    frame_put rfl id
  exact { put with }

theorem framed_released (s : Registry) (lease : OperationLease) : Frame s
    { s.put lease.session { s.session lease.session with
        operationLeases := (s.session lease.session).operationLeases - 1 } with
      leases := s.leases.erase lease } := by
  have put : Frame s (s.put lease.session { s.session lease.session with
    operationLeases := (s.session lease.session).operationLeases - 1 }) := frame_put rfl id
  exact { put with }

theorem framed_exited (sid : Nat) (requestId : String) (s : Registry) : Frame s (exited sid requestId s) := by
  have put : Frame s (s.put sid { s.session sid with activeRequests := (s.session sid).activeRequests - 1 }) :=
    frame_put rfl id
  exact { put with }

theorem framed_clients (s : Registry) (sid clientLeases : Nat) (clients : List Nat) (attachedForced : Bool) : Frame s
    { s.put sid { s.session sid with clientLeases := clientLeases } with clients, attachedForced } := by
  have put : Frame s (s.put sid { s.session sid with clientLeases := clientLeases }) := frame_put rfl id
  exact { put with }

theorem RegistryEntry.harmless {p : RegistryTask Unit} (entry : RegistryEntry me s p) : Harmless me p := by
  cases entry with
  | beginOperation canonical request attempts => exact (beginOperationOpt_harmless canonical attempts).discard (closingRely_refl me)
  | attachClient lease =>
    refine (Framed.harmless ?_).discard (closingRely_refl me)
    refine (Task.Framed.await fun s => framed_clients s _ _ _ _).bind fun _ => ?_
    exact (Task.Framed.modify fun s => frame_bump s _ _).bind fun _ => trivial
  | releaseOperationLease lease =>
    exact Framed.harmless ((Task.Framed.await fun s => framed_released s lease).bind fun _ => framed_scheduleIdleShutdown _)
  | releaseClientLease sid =>
    exact Framed.harmless ((Task.Framed.await fun s => framed_clients s _ _ _ _).bind fun _ => framed_scheduleIdleShutdown _)
  | launch lease requestId answer =>
    refine Framed.harmless (Task.Framed.bind ⟨frame_refl, fun _ => trivial⟩ fun state => ?_)
    split
    · cases answer with
      | ok done => exact Task.Framed.await fun s => framed_accepted _ _ s
      | error error => trivial
    · trivial
  | launchAccepted sid requestId _ =>
    refine Framed.harmless (Task.Framed.modify fun s => ?_)
    have counted : Frame s (accepted sid requestId s) := framed_accepted sid requestId s
    exact { counted with }
  | controllerExited sid requestId _ =>
    exact Framed.harmless ((Task.Framed.modify fun s => framed_exited sid requestId s).bind fun _ =>
      framed_scheduleIdleShutdown sid)
  | setFatal sid _ =>
    refine Framed.harmless (Task.Framed.modify fun s => ?_)
    have put : Frame s (s.put sid { s.session sid with fatal := true }) := frame_put rfl id
    exact { put with }
  | shutdownPrefix canonical supervisor => exact shutdownPrefix_harmless canonical supervisor
  | shutdownSession key sid cause supervisor _ => exact shutdownSession_harmless cause supervisor
  | shutdownAll timesOut => exact shutdownAll_harmless timesOut
  | idleTimer key generation sid supervisor =>
    exact runJob_harmless fun t _ => idleShutdownIfQuiet_harmless generation supervisor t
  | shutdownKey call key answers => exact runJob_harmless fun t closing => shutdownKey_safe answers closing
  | forceKill key sid => exact runJob_harmless fun t late => (forceKillSession_safe late).post fun _ _ _ => trivial

end Locked

theorem closingInv_new : ClosingInv .new := by
  constructor <;> grind [Registry.new]

theorem entries_safe (t : Nat) (s : Registry) (p : RegistryTask Unit) (_ : ClosingInv s) (entry : RegistryEntry t s p) :
    closingDiscipline.Safe t p (fun _ _ => True) s := entry.harmless s

theorem no_session {s : Registry} (inv : ClosingInv s) (returned : s.returned = true) (key : String) :
    s.sessions key = none := by
  obtain ⟨keys, census, all⟩ := inv.returned returned
  cases found : s.sessions key with
  | none => rfl
  | some sid =>
    obtain ⟨-, out, counted⟩ := inv.found key sid found
    exact absurd (all key (counted keys census)) out

/-- When a call of `shutdown_all` has returned, and none timed out, no session is registered, and
nothing that goes on registers one. -/
theorem shutdown_all_closes {c c' : Pool Nat Registry Failure} (run : PoolRun RegistryEntry (Pool.idle .new) c)
    (returned : c.1.returned = true) (later : PoolRun RegistryEntry c c') :
    (∀ key, c.1.sessions key = none) ∧ ∀ key, c'.1.sessions key = none := by
  have start : closingDiscipline.inv .new := closingInv_new
  have kept := run.kept entries_safe (Discipline.kept_idle start)
  have kept' := later.kept entries_safe kept
  have still : c'.1.returned = true := by
    clear kept'
    induction later with
    | refl => exact returned
    | tail before step ih =>
      rcases PoolRun.steps (D := closingDiscipline) entries_safe before kept step with same | ⟨t, guar⟩
      · rw [same]
        exact ih
      · exact (guar (t + 1) (Nat.succ_ne_self t)).returned ih
  exact ⟨no_session kept.1 returned, no_session kept'.1 still⟩

/-! ## One session, closed -/

def sampleRequest : Request where
  runner := { kind := .wine, path := "/usr/bin/wine" }
  planId := "plan"

def sampleAttempt : Attempt where
  shutdown _ := .stopped true
  bootstrap := .ok ()
  fatal := false
  discard _ := .stopped true

/-- A session was started. -/
def oneSession : Registry := (beginOperationOpt 0 (some "/p") sampleRequest [sampleAttempt]).discard.left .new

/-- `shutdown_all`, when it waits for the prefixes. -/
def closingSession : RegistryTask Unit × Registry :=
  (shutdownAll false).partway 4 oneSession

def closedPrefix : Registry :=
  (runJob (.shutdownKey 0 "/p") (shutdownKey 2 0 "/p"
    { lockTimesOut := false, supervisor := fun _ => .stopped true, aborted := false })).left closingSession.2

def allClosed : Registry := closingSession.1.left closedPrefix

/-- A session is started, and another thread closes the launcher while a third one ends the session. -/
theorem shutdown_all_closes_one : oneSession.sessions "/p" = some 0 ∧ allClosed.returned = true ∧
    ∀ key, allClosed.sessions key = none := by
  let begins : RegistryTask Unit := (beginOperationOpt 0 (some "/p") sampleRequest [sampleAttempt]).discard
  let ends : RegistryTask Unit := runJob (.shutdownKey 0 "/p") (shutdownKey 2 0 "/p"
    { lockTimesOut := false, supervisor := fun _ => .stopped true, aborted := false })
  have first : PoolRun RegistryEntry (Pool.idle .new) (oneSession, fun _ => none) :=
    PoolRun.left (p := begins) rfl (.beginOperation (some "/p") sampleRequest [sampleAttempt]) (by decide +kernel)
  have second : PoolRun RegistryEntry (oneSession, fun _ => none)
      (oneSession, Function.update (fun _ => none) 1 (some (shutdownAll false))) :=
    .single (.start rfl (.shutdownAll false))
  have third : PoolRun RegistryEntry (oneSession, Function.update (fun _ => none) 1 (some (shutdownAll false)))
      (closingSession.2, Function.update (fun _ => none) 1 (some closingSession.1)) :=
    PoolRun.partway 4 (by decide +kernel)
  have fourth : PoolRun RegistryEntry (closingSession.2, Function.update (fun _ => none) 1 (some closingSession.1))
      (closedPrefix, Function.update (fun _ => none) 1 (some closingSession.1)) :=
    PoolRun.left (t := 2) (p := ends) rfl (.shutdownKey 0 "/p" _) (by decide +kernel)
  have fifth : PoolRun RegistryEntry (closedPrefix, Function.update (fun _ => none) 1 (some closingSession.1))
      (allClosed, Function.update (fun _ => none) 1 none) := PoolRun.rest (by decide +kernel)
  have returned : allClosed.returned = true := by decide +kernel
  have run := (((first.trans second).trans third).trans fourth).trans fifth
  exact ⟨by decide +kernel, returned, (shutdown_all_closes run returned .refl).1⟩

end RoLauncher.Runners
