import Mathlib.Data.List.Count
import RoLauncher.Runners.Closing

/-!
# What the counters of a session say

A session is stopped for idleness, or by a shutdown of a quiescent prefix, by a thread that has its
startup lock and has read its three counters as zero one after the other. No lease can come back
meanwhile. An accepted request can, when its launch was given up before: then `late` is set.

So a session that is needed is ready, or was stopped by force. A client can still be attached to one
that was, as `attach_client` does not look at the state: then `attachedForced` is set.

A supervisor that dies leaves its requests counted, and operations begin on its session as before:
then `stranded` or `metFatal` is set.
-/

namespace RoLauncher.Runners

open RoLauncher.Threads
open RoLauncher.Session (SessionError)

/-- The operation leases on a session that are alive. -/
def Registry.leasesOn (s : Registry) (sid : Nat) : Nat := s.leases.countP fun lease => lease.session = sid

/-- The client leases on a session that are alive. -/
def Registry.clientsOn (s : Registry) (sid : Nat) : Nat := s.clients.count sid

/-- The launches on a session that are outstanding. -/
def Registry.outstandingOn (s : Registry) (sid : Nat) : Nat :=
  s.outstanding.countP fun launch => launch.1 = sid

/-- Nothing but force has stopped the session. -/
def RunnerSession.Steady (session : RunnerSession) : Prop :=
  session.state = .ready ∨ session.stopCause = some .forced

structure LeaseInv (s : Registry) : Prop where
  registered : ∀ key sid, s.sessions key = some sid →
    sid < s.created ∧ (s.session sid).prefixKey = key ∧ (s.session sid).published = true
  operations : ∀ sid, (s.session sid).operationLeases =
    s.leasesOn sid + if (s.session sid).published then 0 else 1
  attached : ∀ sid, (s.session sid).clientLeases = s.clientsOn sid
  lent : ∀ lease, lease ∈ s.leases → lease.session < s.created
  agreed : ∀ lease, lease ∈ s.leases → (s.session lease.session).asked = lease.request
  steady : ∀ lease, lease ∈ s.leases → (s.session lease.session).Steady
  requested : ∀ sid, s.misreported = true ∨ (s.session sid).activeRequests = s.outstandingOn sid
  clients : ∀ sid, sid ∈ s.clients → sid < s.created
  launched : ∀ launch, launch ∈ s.outstanding → launch.1 < s.created
  stranded : ∀ sid, (s.session sid).fatal = true → (s.session sid).activeRequests = 0 ∨ s.stranded = true

/-- What a thread counts on for a session whose startup lock it has. -/
structure Counted (me sid : Nat) (s s' : Registry) : Prop where
  leases : s.leasesOn sid = 0 → s'.leasesOn sid = 0
  clients : s.leasesOn sid = 0 → s.clientsOn sid = 0 → s'.clientsOn sid = 0
  requests : ∀ request, s.stateHolder sid = some { thread := me, request } → s.leasesOn sid = 0 →
    (s.session sid).activeRequests = 0 → (s'.session sid).activeRequests = 0 ∨ s'.late = true

/-- What a thread counts on for a session whose state lock it has. -/
structure Settled (guard : StateGuard) (sid : Nat) (s s' : Registry) : Prop where
  holder : s'.stateHolder sid = some guard
  state : (s'.session sid).state = (s.session sid).state
  fatal : (s'.session sid).fatal = true → (s.session sid).fatal = true ∨ (s.Fits sid guard.request → s'.metFatal = true)

/-- What thread `me` counts on. -/
structure LeaseRely (me : Nat) (s s' : Registry) : Prop where
  created : s.created ≤ s'.created
  prefixKey : ∀ sid, sid < s.created → (s'.session sid).prefixKey = (s.session sid).prefixKey
  asked : ∀ sid, sid < s.created → (s'.session sid).asked = (s.session sid).asked
  published : ∀ sid, sid < s.created → (s'.session sid).published = (s.session sid).published
  startup : ∀ key, s.startupHolder key = some me → s'.startupHolder key = some me
  counted : ∀ sid, sid < s.created → s.startupHolder (s.session sid).prefixKey = some me → Counted me sid s s'
  settled : ∀ sid guard, sid < s.created → s.stateHolder sid = some guard → guard.thread = me → Settled guard sid s s'
  late : s.late = true → s'.late = true
  metFatal : s.metFatal = true → s'.metFatal = true

/-- What every step keeps to, whichever thread takes it. -/
structure Lawful (s s' : Registry) : Prop where
  leaves : ∀ sid, (s.session sid).state = .ready → (s'.session sid).state ≠ .ready →
    ∃ cause, (s'.session sid).stopCause = some cause ∧ (cause = .forced ∨ s'.late = true ∨
      s.leasesOn sid = 0 ∧ s.clientsOn sid = 0 ∧ (s.session sid).activeRequests = 0)
  hands : ∀ lease, s.leases.count lease < s'.leases.count lease →
    (s'.session lease.session).state = .ready ∧ (s'.session lease.session).asked = lease.request ∧
      ((s'.session lease.session).fatal = true → s'.metFatal = true)
  attaches : ∀ sid, s.clients.count sid < s'.clients.count sid →
    ((s'.session sid).state = .ready ∨ s'.attachedForced = true) ∧
      ∃ lease, lease ∈ s.leases ∧ lease.session = sid ∧ (s'.session sid).asked = lease.request
  misreported : s.misreported = true → s'.misreported = true

theorem counted_refl (me sid : Nat) (s : Registry) : Counted me sid s s :=
  ⟨id, fun _ => id, fun _ _ _ => .inl⟩

theorem settled_refl {guard : StateGuard} {sid : Nat} {s : Registry} (holder : s.stateHolder sid = some guard) :
    Settled guard sid s s := ⟨holder, rfl, .inl⟩

theorem leaseRely_refl (me : Nat) (s : Registry) : LeaseRely me s s where
  created := Nat.le_refl _
  prefixKey _ _ := rfl
  asked _ _ := rfl
  published _ _ := rfl
  startup _ := id
  counted sid _ _ := counted_refl me sid s
  settled _ _ _ holder _ := settled_refl holder
  late := id
  metFatal := id

theorem leaseRely_trans (me : Nat) (s s' s'' : Registry) (first : LeaseRely me s s') (second : LeaseRely me s' s'') :
    LeaseRely me s s'' where
  created := Nat.le_trans first.created second.created
  prefixKey sid old := (second.prefixKey sid (Nat.lt_of_lt_of_le old first.created)).trans (first.prefixKey sid old)
  asked sid old := (second.asked sid (Nat.lt_of_lt_of_le old first.created)).trans (first.asked sid old)
  published sid old := (second.published sid (Nat.lt_of_lt_of_le old first.created)).trans (first.published sid old)
  startup key mine := second.startup key (first.startup key mine)
  counted sid old mine := by
    have old' := Nat.lt_of_lt_of_le old first.created
    have here := first.counted sid old mine
    have mine' := first.startup _ mine
    rw [← first.prefixKey sid old] at mine'
    have there := second.counted sid old' mine'
    refine ⟨fun none => there.leases (here.leases none),
      fun none empty => there.clients (here.leases none) (here.clients none empty), ?_⟩
    intro request held none idle
    rcases here.requests request held none idle with idle | late
    · exact there.requests request (first.settled sid _ old held rfl).holder (here.leases none) idle
    · exact .inr (second.late late)
  settled sid guard old held mine := by
    have old' := Nat.lt_of_lt_of_le old first.created
    have here := first.settled sid guard old held mine
    have there := second.settled sid guard old' here.holder mine
    refine ⟨there.holder, there.state.trans here.state, fun fatal => ?_⟩
    have fits : s.Fits sid guard.request → s'.Fits sid guard.request := by
      intro fits
      exact ⟨fits.1.trans (by rw [first.asked sid old]), here.state.trans fits.2⟩
    rcases there.fatal fatal with before | met
    · exact (here.fatal before).imp_right fun met given => second.metFatal (met given)
    · exact .inr fun given => met (fits given)
  late held := second.late (first.late held)
  metFatal held := second.metFatal (first.metFatal held)

def leaseDiscipline : Discipline Nat Registry where
  inv := LeaseInv
  rely := LeaseRely
  guar me s s' := (∀ other, other ≠ me → LeaseRely other s s') ∧ Lawful s s'
  refl := leaseRely_refl
  trans := leaseRely_trans
  others _ u _ _ ne guar := guar.1 u (Ne.symm ne)

/-! ## Steps that leave the counters alone -/

/-- A step that leaves alone what is said of the counters. -/
structure Still (s s' : Registry) : Prop where
  created : s'.created = s.created
  session : ∀ sid, ∃ generation, s'.session sid = { s.session sid with idleGeneration := generation }
  sessions : ∀ key sid, s'.sessions key = some sid → s.sessions key = some sid
  startupHolder : ∀ key, s'.startupHolder key = s.startupHolder key
  stateHolder : ∀ sid, s'.stateHolder sid = s.stateHolder sid
  leases : s'.leases = s.leases
  clients : s'.clients = s.clients
  outstanding : s'.outstanding = s.outstanding
  late : s'.late = s.late
  misreported : s'.misreported = s.misreported
  stranded : s'.stranded = s.stranded
  metFatal : s'.metFatal = s.metFatal

namespace Still

variable {s s' : Registry}

theorem refl (s : Registry) : Still s s where
  created := rfl
  session _ := ⟨_, rfl⟩
  sessions _ _ := id
  startupHolder _ := rfl
  stateHolder _ := rfl
  leases := rfl
  clients := rfl
  outstanding := rfl
  late := rfl
  misreported := rfl
  stranded := rfl
  metFatal := rfl

theorem leasesOn (still : Still s s') (sid : Nat) : s'.leasesOn sid = s.leasesOn sid := by
  rw [Registry.leasesOn, still.leases]
  rfl

theorem clientsOn (still : Still s s') (sid : Nat) : s'.clientsOn sid = s.clientsOn sid := by
  rw [Registry.clientsOn, still.clients]
  rfl

/-- Any part of a session but its idle generation. -/
theorem field {α : Type} (still : Still s s') (sid : Nat) (part : RunnerSession → α)
    (other : ∀ session generation, part { session with idleGeneration := generation } = part session) :
    part (s'.session sid) = part (s.session sid) := by
  obtain ⟨generation, same⟩ := still.session sid
  rw [same]
  exact other _ generation

theorem rely (still : Still s s') (me : Nat) : LeaseRely me s s' where
  created := Nat.le_of_eq still.created.symm
  prefixKey sid _ := still.field sid (·.prefixKey) fun _ _ => rfl
  asked sid _ := still.field sid (·.asked) fun _ _ => rfl
  published sid _ := still.field sid (·.published) fun _ _ => rfl
  startup key mine := (still.startupHolder key).trans mine
  counted sid _ _ := by
    refine ⟨(still.leasesOn sid).trans, fun _ => (still.clientsOn sid).trans, fun _ _ _ idle => .inl ?_⟩
    exact (still.field sid (·.activeRequests) fun _ _ => rfl).trans idle
  settled sid guard _ held _ := by
    refine ⟨(still.stateHolder sid).trans held, still.field sid (·.state) fun _ _ => rfl, fun fatal => .inl ?_⟩
    exact (still.field sid (·.fatal) fun _ _ => rfl).symm.trans fatal
  late held := still.late.trans held
  metFatal held := still.metFatal.trans held

theorem lawful (still : Still s s') : Lawful s s' where
  leaves sid ready left := absurd ((still.field sid (·.state) fun _ _ => rfl).trans ready) left
  hands lease more := by
    rw [still.leases] at more
    exact absurd more (Nat.lt_irrefl _)
  attaches sid more := by
    rw [still.clients] at more
    exact absurd more (Nat.lt_irrefl _)
  misreported held := still.misreported.trans held

theorem inv (still : Still s s') (inv : LeaseInv s) : LeaseInv s' where
  registered key sid found := by
    obtain ⟨created, named, published⟩ := inv.registered key sid (still.sessions key sid found)
    refine ⟨still.created ▸ created, ?_, ?_⟩
    · exact (still.field sid (·.prefixKey) fun _ _ => rfl).trans named
    · exact (still.field sid (·.published) fun _ _ => rfl).trans published
  operations sid := by
    rw [still.leasesOn, still.field sid (·.operationLeases) fun _ _ => rfl,
      still.field sid (·.published) fun _ _ => rfl]
    exact inv.operations sid
  attached sid := by
    rw [still.clientsOn, still.field sid (·.clientLeases) fun _ _ => rfl]
    exact inv.attached sid
  lent lease there := by
    rw [still.leases] at there
    rw [still.created]
    exact inv.lent lease there
  agreed lease there := by
    rw [still.leases] at there
    rw [still.field lease.session (·.asked) fun _ _ => rfl]
    exact inv.agreed lease there
  steady lease there := by
    rw [still.leases] at there
    have same := still.field lease.session RunnerSession.Steady fun _ _ => rfl
    rw [same]
    exact inv.steady lease there
  requested sid := by
    rw [still.misreported, still.field sid (·.activeRequests) fun _ _ => rfl, Registry.outstandingOn,
      still.outstanding]
    exact inv.requested sid
  clients sid there := by
    rw [still.clients] at there
    rw [still.created]
    exact inv.clients sid there
  launched launch there := by
    rw [still.outstanding] at there
    rw [still.created]
    exact inv.launched launch there
  stranded sid fatal := by
    rw [still.field sid (·.fatal) fun _ _ => rfl] at fatal
    rw [still.field sid (·.activeRequests) fun _ _ => rfl, still.stranded]
    exact inv.stranded sid fatal

end Still

section Rules

variable {α β : Type} {me sid : Nat} {key : String} {P : Registry → Prop} {s : Registry}

abbrev LeaseSafe (me : Nat) (p : RegistryTask α) (Q : Except Failure α → Registry → Prop)
    (s : Registry) : Prop := leaseDiscipline.Safe me p Q s

/-- An assertion that thread `me` can keep. -/
abbrev Kept (me : Nat) (P : Registry → Prop) : Prop := Task.Stable (LeaseRely me) P

/-- Nothing is left to say of how the task ends. -/
abbrev Plain (me : Nat) (p : RegistryTask α) : Prop :=
  Task.Harmless LeaseInv (LeaseRely me) (leaseDiscipline.guar me) p

theorem leaseQuiet : Task.Quiet LeaseInv (LeaseRely me) (leaseDiscipline.guar me) Still where
  rely still _ := still.rely me
  guar still _ := ⟨fun other _ => still.rely other, still.lawful⟩
  inv still inv := still.inv inv

/-- A step that is within what the others count on. -/
theorem lawful_step {enabled : Registry → Bool} {update : Registry → Registry} {k : Registry → RegistryTask α}
    {Q : Except Failure α → Registry → Prop} (kept : Kept me P) (holds : P s)
    (rely : ∀ t, P t → LeaseInv t → enabled t = true → ∀ other, other ≠ me → LeaseRely other t (update t))
    (lawful : ∀ t, P t → LeaseInv t → enabled t = true → Lawful t (update t))
    (inv : ∀ t, P t → LeaseInv t → enabled t = true → LeaseInv (update t))
    (rest : ∀ t, P t → LeaseInv t → enabled t = true → LeaseSafe me (k t) Q (update t)) :
    LeaseSafe me (.step enabled update k) Q s :=
  Task.safe_step kept holds fun t here inv' on =>
    ⟨⟨⟨rely t here inv' on, lawful t here inv' on⟩, inv t here inv' on⟩, rest t here inv' on⟩

/-! ## Steps that change a session -/

/-- A session is changed by a step that its locks allow. -/
theorem rely_put {other : Nat} {session : RunnerSession} (prefixKey : session.prefixKey = (s.session sid).prefixKey)
    (asked : session.asked = (s.session sid).asked) (published : session.published = (s.session sid).published)
    (idle : (s.session sid).activeRequests = 0 → session.activeRequests = 0)
    (settled : ∀ guard, s.stateHolder sid = some guard → guard.thread = other →
      session.state = (s.session sid).state ∧ (session.fatal = true → (s.session sid).fatal = true)) :
    LeaseRely other s (s.put sid session) where
  created := Nat.le_refl _
  prefixKey _ _ := by grind
  asked _ _ := by grind
  published _ _ := by grind
  startup _ := id
  counted sid' _ _ := by
    refine ⟨id, fun _ => id, fun _ _ _ none => .inl ?_⟩
    rw [session_put]
    split
    next same =>
      subst same
      exact idle none
    next => exact none
  settled sid' guard _ held mine := by
    refine ⟨held, ?_, fun fatal => .inl ?_⟩
    · grind
    · grind
  late := id
  metFatal := id

/-- Leases and clients come and go; they come only where no other thread can tell. Nobody counts on a
request that has not ended. -/
theorem rely_lists {other : Nat} {sessions : String → Option Nat} {leases : List OperationLease} {clients : List Nat}
    {outstanding : List (Nat × String)} {late misreported attachedForced stranded metFatal : Bool}
    (handed : ∀ sid, sid < s.created → s.startupHolder (s.session sid).prefixKey = some other →
      s.leasesOn sid = 0 → leases.countP (fun lease => lease.session = sid) = 0)
    (attached : ∀ sid, s.leasesOn sid = 0 → s.clientsOn sid = 0 → clients.count sid = 0)
    (later : s.late = true → late = true) (met : s.metFatal = true → metFatal = true) :
    LeaseRely other s { s with
      sessions, leases, clients, outstanding, late, misreported, attachedForced, stranded, metFatal } where
  created := Nat.le_refl _
  prefixKey _ _ := rfl
  asked _ _ := rfl
  published _ _ := rfl
  startup _ := id
  counted sid old mine := ⟨handed sid old mine, fun none empty => attached sid none empty, fun _ _ _ => .inl⟩
  settled _ _ _ held _ := ⟨held, rfl, .inl⟩
  late := later
  metFatal := met

/-- A step at which no session is left and no lease is handed out. -/
theorem lawful_of_same {s' : Registry} (state : ∀ sid, (s.session sid).state = .ready → (s'.session sid).state = .ready)
    (leases : ∀ lease, s'.leases.count lease ≤ s.leases.count lease)
    (clients : ∀ sid, s'.clients.count sid ≤ s.clients.count sid)
    (misreported : s.misreported = true → s'.misreported = true) : Lawful s s' where
  leaves sid ready left := absurd (state sid ready) left
  hands lease more := absurd more (Nat.not_lt.mpr (leases lease))
  attaches sid more := absurd more (Nat.not_lt.mpr (clients sid))
  misreported := misreported

theorem state_put {session : RunnerSession} (same : session.state = (s.session sid).state) (other : Nat) :
    ((s.put sid session).session other).state = (s.session other).state := by
  grind

/-- The session of a lease is there for what the lease asks, and nothing but force has stopped it. -/
structure Registry.Serves (s : Registry) (lease : OperationLease) : Prop where
  created : lease.session < s.created
  asked : (s.session lease.session).asked = lease.request
  steady : (s.session lease.session).Steady

theorem LeaseInv.serves (inv : LeaseInv s) {lease : OperationLease} (there : lease ∈ s.leases) : s.Serves lease :=
  ⟨inv.lent lease there, inv.agreed lease there, inv.steady lease there⟩

/-- A session's counters move with the leases and clients on it and its launches. -/
theorem LeaseInv.move (inv : LeaseInv s) {session : RunnerSession} {leases : List OperationLease} {clients : List Nat}
    {outstanding : List (Nat × String)} {late misreported attachedForced stranded metFatal : Bool}
    (prefixKey : session.prefixKey = (s.session sid).prefixKey)
    (published : session.published = (s.session sid).published)
    (asked : session.asked = (s.session sid).asked)
    (steady : leases.countP (fun lease => lease.session = sid) ≠ 0 → (s.session sid).Steady → session.Steady)
    (operations : session.operationLeases + s.leasesOn sid =
      (s.session sid).operationLeases + leases.countP fun lease => lease.session = sid)
    (others : ∀ other, other ≠ sid → leases.countP (fun lease => lease.session = other) = s.leasesOn other)
    (attached : session.clientLeases + s.clientsOn sid = (s.session sid).clientLeases + clients.count sid)
    (apart : ∀ other, other ≠ sid → clients.count other = s.clientsOn other)
    (requested : misreported = true ∨ session.activeRequests + s.outstandingOn sid =
      (s.session sid).activeRequests + outstanding.countP fun launch => launch.1 = sid)
    (elsewhere : ∀ other, other ≠ sid → outstanding.countP (fun launch => launch.1 = other) = s.outstandingOn other)
    (lent : ∀ lease, lease ∈ leases → s.Serves lease) (alive : ∀ client, client ∈ clients → client < s.created)
    (launched : ∀ launch, launch ∈ outstanding → launch.1 < s.created)
    (dead : session.fatal = true → session.activeRequests = 0 ∨ stranded = true)
    (reported : s.misreported = true → misreported = true) (still : s.stranded = true → stranded = true) :
    LeaseInv { s.put sid session with
      leases, clients, outstanding, late, misreported, attachedForced, stranded, metFatal } where
  registered key other found := by
    obtain ⟨old, named, there⟩ := inv.registered key other found
    refine ⟨old, ?_⟩
    show ((s.put sid session).session other).prefixKey = key ∧ ((s.put sid session).session other).published = true
    grind
  operations other := by
    have old := inv.operations other
    show ((s.put sid session).session other).operationLeases = leases.countP (fun lease => lease.session = other) +
      if ((s.put sid session).session other).published then 0 else 1
    rw [session_put]
    split
    next same =>
      subst same
      rw [published]
      omega
    next ne =>
      rw [others other ne]
      exact old
  attached other := by
    have old := inv.attached other
    show ((s.put sid session).session other).clientLeases = clients.count other
    rw [session_put]
    split
    next same =>
      subst same
      omega
    next ne =>
      rw [apart other ne]
      exact old
  lent lease there := (lent lease there).created
  agreed lease there := by
    have serves := (lent lease there).asked
    show ((s.put sid session).session lease.session).asked = lease.request
    grind
  steady lease there := by
    have serves := (lent lease there).steady
    show ((s.put sid session).session lease.session).Steady
    rw [session_put]
    split
    next same =>
      rw [same] at serves
      refine steady (fun none => ?_) serves
      exact List.countP_eq_zero.mp none lease there (decide_eq_true same)
    next => exact serves
  requested other := by
    have old := inv.requested other
    show misreported = true ∨ ((s.put sid session).session other).activeRequests =
      outstanding.countP fun launch => launch.1 = other
    rw [session_put]
    split
    next same =>
      subst same
      rcases old with held | old
      · exact .inl (reported held)
      · exact requested.imp_right fun moved => by omega
    next ne =>
      rw [elsewhere other ne]
      exact old.imp_left reported
  clients := alive
  launched := launched
  stranded other fatal := by
    have fatal : ((s.put sid session).session other).fatal = true := fatal
    show ((s.put sid session).session other).activeRequests = 0 ∨ stranded = true
    rw [session_put] at fatal ⊢
    split at fatal
    next same =>
      rw [if_pos same]
      exact dead fatal
    next ne =>
      rw [if_neg ne]
      exact (inv.stranded other fatal).imp_right still

/-- What no thread says of a session is changed. -/
theorem LeaseInv.put (inv : LeaseInv s) {session : RunnerSession}
    (prefixKey : session.prefixKey = (s.session sid).prefixKey)
    (published : session.published = (s.session sid).published)
    (asked : session.asked = (s.session sid).asked)
    (operations : session.operationLeases = (s.session sid).operationLeases)
    (attached : session.clientLeases = (s.session sid).clientLeases)
    (requested : session.activeRequests = (s.session sid).activeRequests)
    (steady : s.leasesOn sid ≠ 0 → (s.session sid).Steady → session.Steady)
    (stranded : session.fatal = true → session.activeRequests = 0 ∨ s.stranded = true) :
    LeaseInv (s.put sid session) := by
  refine inv.move prefixKey published asked steady ?_ (fun _ _ => rfl) ?_ (fun _ _ => rfl) (.inr ?_)
    (fun _ _ => rfl) (fun _ there => inv.serves there) inv.clients inv.launched stranded id id
  · rw [operations]
    rfl
  · rw [attached]
    rfl
  · rw [requested]
    rfl

/-! ### A session goes to another state -/

theorem kept_true : Kept me fun _ => True := Task.stable_true

theorem steady_leave {session : RunnerSession} (state : SessionState) (steady : session.Steady) :
    (session.leave state .forced).Steady := by
  refine .inr ?_
  rw [RunnerSession.leave]
  dsimp only
  split
  next => rfl
  next stopped => exact steady.resolve_left stopped

/-- Where a thread writes the state without a reason, the cause is the force of it. -/
theorem setState_keeps {F : Registry → Prop} (state : SessionState) (kept : Kept me F)
    (own : ∀ t session, F t → F (t.put sid session)) (holds : F s) :
    LeaseSafe me (setState sid state) (fun _ t => F t) s := by
  apply lawful_step kept holds
  case rely =>
    intro t _ _ free other _
    refine rely_put rfl rfl rfl id fun guard held _ => ?_
    rw [of_decide_eq_true free] at held
    cases held
  case lawful =>
    intro t _ _ _
    refine ⟨fun other ready left => ?_, fun lease more => absurd more (Nat.lt_irrefl _),
      fun other more => absurd more (Nat.lt_irrefl _), id⟩
    rw [session_put] at left ⊢
    split at left
    next same =>
      subst same
      rw [if_pos rfl]
      exact ⟨.forced, if_pos ready, .inl rfl⟩
    next => exact absurd ready left
  case inv =>
    exact fun t _ inv _ => inv.put rfl rfl rfl rfl rfl rfl (fun _ => steady_leave state) (inv.stranded sid)
  case rest => exact fun t here _ _ => Task.safe_ret kept (own t _ here) fun _ => id

theorem still_remove (s : Registry) (key : String) (sid : Nat) :
    Still s (if s.sessions key = some sid then s.remove key else s) := by
  split
  next =>
    refine { Still.refl s with sessions := fun other sid' found => ?_ }
    rw [sessions_remove] at found
    split at found
    next => cases found
    next => exact found
  next => exact Still.refl s

theorem removal_keeps {F : Registry → Prop} (kept : Kept me F) (holds : F s) :
    LeaseSafe me (removeSessionIfSame key sid) (fun _ t => F t) s :=
  leaseQuiet.safe (Task.Framed.modify fun t => still_remove t key sid) kept holds

theorem failSession_keeps {F : Registry → Prop} (error : SessionError) (kept : Kept me F)
    (own : ∀ t session, F t → F (t.put sid session)) (holds : F s) :
    LeaseSafe me (failSession key sid error) (fun _ t => F t) s := by
  refine (setState_keeps .failed kept own holds).seq (leaseRely_refl me) (fun _ t here => ?_) fun _ _ => id
  refine (removal_keeps kept here).seq (leaseRely_refl me) (fun _ u here => ?_) fun _ _ => id
  exact Task.safe_fail kept here fun _ => id

theorem settleShutdown_keeps {F : Registry → Prop} (conversation : Conversation) (kept : Kept me F)
    (own : ∀ t session, F t → F (t.put sid session)) (holds : F s) :
    LeaseSafe me (settleShutdown key sid conversation) (fun _ t => F t) s := by
  cases conversation with
  | stopped exits =>
    cases exits with
    | true =>
      refine (setState_keeps .stopped kept own holds).seq (leaseRely_refl me) (fun _ t here => ?_) fun _ _ => id
      exact removal_keeps kept here
    | false => exact failSession_keeps _ kept own holds
  | failed error => exact failSession_keeps error kept own holds
  | timedOut => exact failSession_keeps _ kept own holds
  | dropped => exact Task.safe_fail kept holds fun _ => id

theorem forceKillSession_plain : Plain me (forceKillSession key sid) := by
  intro s
  refine Task.Safe.bind (leaseRely_refl me) (Task.Safe.attempt
    ((failSession_keeps _ kept_true (fun _ _ _ => trivial) trivial).post ?_))
  exact fun r t _ => Task.Harmless.ret () t

theorem Plain.bind {p : RegistryTask α} {f : α → RegistryTask β} (first : Plain me p) (rest : ∀ a, Plain me (f a)) :
    Plain me (p >>= f) := Task.Harmless.bind (leaseRely_refl me) first rest

/-! ### The locks -/

theorem startup_lawful {holder : Option Nat} : Lawful s (s.lockStartup key holder) :=
  lawful_of_same (fun _ => id) (fun _ => Nat.le_refl _) (fun _ => Nat.le_refl _) id

theorem startup_rely {other : Nat} {holder : Option Nat} (may : s.startupHolder key ≠ some other) :
    LeaseRely other s (s.lockStartup key holder) where
  created := Nat.le_refl _
  prefixKey _ _ := rfl
  asked _ _ := rfl
  published _ _ := rfl
  startup key' theirs := by
    rw [startupHolder_lockStartup, if_neg ?_, theirs]
    rintro rfl
    exact may theirs
  counted _ _ _ := ⟨id, fun _ => id, fun _ _ _ => .inl⟩
  settled _ _ _ held _ := ⟨held, rfl, .inl⟩
  late := id
  metFatal := id

theorem LeaseInv.lockStartup (inv : LeaseInv s) (holder : Option Nat) : LeaseInv (s.lockStartup key holder) :=
  { inv with }

theorem still_nameLock (s : Registry) (key : String) : Still s (s.nameLock key) :=
  { Still.refl s with }

/-- The body counts on the lock, and keeps it. -/
theorem withStartupLock_plain {body : RegistryTask α}
    (safe : ∀ t, t.startupHolder key = some me →
      LeaseSafe me body (fun _ u => u.startupHolder key = some me) t) :
    Plain me (withStartupLock me key body) := by
  intro s
  have held : Kept me fun t => t.startupHolder key = some me := fun t u mine moved => moved.startup key mine
  refine leaseQuiet.step kept_true trivial (fun t => still_nameLock t key) fun t _ _ _ _ => ?_
  apply lawful_step kept_true trivial
  case rely => exact fun u _ _ free other _ => startup_rely (by grind)
  case lawful => exact fun u _ _ _ => startup_lawful
  case inv => exact fun u _ inv _ => inv.lockStartup _
  case rest =>
    intro u _ _ _
    have mine : (u.lockStartup key (some me)).startupHolder key = some me := by
      rw [startupHolder_lockStartup, if_pos rfl]
    show LeaseSafe me (body.attempt >>= fun result =>
      Task.modify (·.lockStartup key none) >>= fun _ => Task.ofExcept result) (fun _ _ => True) _
    refine Task.Safe.bind (leaseRely_refl me) (Task.Safe.attempt ((safe _ mine).post ?_))
    intro r v mine
    apply lawful_step held mine
    case rely => exact fun w mine _ _ other ne => startup_rely (by grind)
    case lawful => exact fun w _ _ _ => startup_lawful
    case inv => exact fun w _ inv _ => inv.lockStartup _
    case rest => exact fun w _ _ _ => leaseQuiet.harmless (Task.Framed.ofExcept r) _

theorem state_rely {other : Nat} {holder : Option StateGuard} {metFatal : Bool}
    (may : ∀ guard, s.stateHolder sid = some guard → guard.thread ≠ other) (met : s.metFatal = true → metFatal = true) :
    LeaseRely other s { s.lockState sid holder with metFatal } where
  created := Nat.le_refl _
  prefixKey _ _ := rfl
  asked _ _ := rfl
  published _ _ := rfl
  startup _ := id
  counted _ _ _ := ⟨id, fun _ => id, fun _ _ _ => .inl⟩
  settled sid' guard _ held mine := by
    refine ⟨?_, rfl, .inl⟩
    show Function.update s.stateHolder sid holder sid' = some guard
    rw [Function.update_of_ne, held]
    rintro rfl
    exact may guard held mine
  late := id
  metFatal := met

end Rules

/-! ## The decision to stop -/

/-- The thread has the startup lock of the session's prefix. -/
structure Mine (me : Nat) (key : String) (sid : Nat) (s : Registry) : Prop where
  holder : s.startupHolder key = some me
  created : sid < s.created
  prefixKey : (s.session sid).prefixKey = key

/-- The thread has the state lock too, and has told if an operation would meet a dead supervisor. -/
structure Deciding (me : Nat) (key : String) (sid : Nat) (request : Option Request) (s : Registry) : Prop
    extends Mine me key sid s where
  held : s.stateHolder sid = some { thread := me, request }
  met : (s.session sid).fatal = true → s.Fits sid request → s.metFatal = true

/-- Nothing needs the session, unless it was accepted late. -/
structure Idle (sid : Nat) (s : Registry) : Prop where
  leases : s.leasesOn sid = 0
  clients : s.clientsOn sid = 0
  requests : (s.session sid).activeRequests = 0 ∨ s.late = true

section Decision

variable {α : Type} {me sid : Nat} {key : String} {request : Option Request} {s t : Registry}

theorem Mine.counted (mine : Mine me key sid s) (moved : LeaseRely me s t) : Counted me sid s t :=
  moved.counted sid mine.created (by rw [mine.prefixKey, mine.holder])

theorem mine_kept : Kept me (Mine me key sid) := by
  intro s t mine moved
  refine ⟨moved.startup key mine.holder, Nat.lt_of_lt_of_le mine.created moved.created, ?_⟩
  exact (moved.prefixKey sid mine.created).trans mine.prefixKey

theorem deciding_kept : Kept me (Deciding me key sid request) := by
  intro s t deciding moved
  have settled := moved.settled sid _ deciding.created deciding.held rfl
  refine ⟨mine_kept s t deciding.toMine moved, settled.holder, fun fatal fits => ?_⟩
  have fits' : s.Fits sid request := by
    refine ⟨fits.1.trans ?_, settled.state.symm.trans fits.2⟩
    rw [moved.asked sid deciding.created]
  rcases settled.fatal fatal with before | met
  · exact moved.metFatal (deciding.met before fits')
  · exact met fits'

theorem leases_kept : Kept me fun s => Deciding me key sid request s ∧ s.leasesOn sid = 0 := by
  intro s t here moved
  exact ⟨deciding_kept s t here.1 moved, (here.1.counted moved).leases here.2⟩

theorem clients_kept : Kept me fun s => Deciding me key sid request s ∧ s.leasesOn sid = 0 ∧ s.clientsOn sid = 0 := by
  intro s t here moved
  have counted := here.1.counted moved
  exact ⟨deciding_kept s t here.1 moved, counted.leases here.2.1, counted.clients here.2.1 here.2.2⟩

theorem idle_kept : Kept me fun s => Deciding me key sid request s ∧ Idle sid s := by
  intro s t here moved
  have counted := here.1.counted moved
  refine ⟨deciding_kept s t here.1 moved, counted.leases here.2.leases,
    counted.clients here.2.leases here.2.clients, ?_⟩
  rcases here.2.requests with none | late
  · exact counted.requests request here.1.held here.2.leases none
  · exact .inr (moved.late late)

theorem ifIdle_kept {C : Prop} : Kept me fun s => Deciding me key sid request s ∧ (C → Idle sid s) := by
  intro s t here moved
  refine ⟨deciding_kept s t here.1 moved, fun c => ?_⟩
  exact (idle_kept s t ⟨here.1, here.2 c⟩ moved).2

/-- The counters are read one after the other; what was read as zero stays so. -/
theorem isQuiet_safe (deciding : Deciding me key sid request s) :
    LeaseSafe me (isQuiet sid) (fun r t => Deciding me key sid request t ∧ (r = .ok true → Idle sid t)) s := by
  have stops (t : Registry) (here : Deciding me key sid request t) : LeaseSafe me (.ret false)
      (fun r t => Deciding me key sid request t ∧ (r = .ok true → Idle sid t)) t :=
    Task.safe_ret deciding_kept here fun u here => ⟨here, fun never => by cases never⟩
  have first (count : Nat) : Kept me fun t => Deciding me key sid request t ∧ (count = 0 → t.leasesOn sid = 0) := by
    intro t u here moved
    exact ⟨deciding_kept t u here.1 moved, fun none => (leases_kept t u ⟨here.1, here.2 none⟩ moved).2⟩
  refine (leaseQuiet.read (K := fun count t => Deciding me key sid request t ∧ (count = 0 → t.leasesOn sid = 0))
    Still.refl deciding_kept deciding first ?_).andThen (leaseRely_refl me) fun operationLeases t known => ?_
  · intro t here inv
    refine ⟨here, fun none => ?_⟩
    have sum := inv.operations sid
    omega
  · split
    next none =>
      have second (count : Nat) : Kept me fun t => Deciding me key sid request t ∧
          (count = 0 → t.leasesOn sid = 0 ∧ t.clientsOn sid = 0) := by
        intro u v here moved
        exact ⟨deciding_kept u v here.1 moved, fun none => (clients_kept u v ⟨here.1, here.2 none⟩ moved).2⟩
      refine (leaseQuiet.read (K := fun count t => Deciding me key sid request t ∧
          (count = 0 → t.leasesOn sid = 0 ∧ t.clientsOn sid = 0)) Still.refl leases_kept ⟨known.1, known.2 none⟩
        second ?_).andThen (leaseRely_refl me) fun clientLeases u known => ?_
      · exact fun u here inv => ⟨here.1, fun none => ⟨here.2, (inv.attached sid).symm.trans none⟩⟩
      · split
        next none =>
          refine leaseQuiet.step clients_kept ⟨known.1, known.2 none⟩ Still.refl fun v here _ _ _ => ?_
          refine Task.safe_ret ifIdle_kept ⟨here.1, fun zero : decide ((v.session sid).activeRequests = 0) = true =>
            ⟨here.2.1, here.2.2, .inl (of_decide_eq_true zero)⟩⟩ fun w here => ⟨here.1, fun same => here.2 ?_⟩
          exact Except.ok.inj same
        next => exact stops u known.1
    next => exact stops t known.1

/-- The body has the state lock, and keeps it. -/
theorem withStateLock_mine {body : RegistryTask α} (mine : Mine me key sid s)
    (safe : ∀ t, Deciding me key sid request t →
      LeaseSafe me body (fun _ u => Deciding me key sid request u) t) :
    LeaseSafe me (withStateLock me sid request body) (fun _ t => Mine me key sid t) s := by
  apply lawful_step mine_kept mine
  case rely =>
    intro t _ _ free other _
    refine state_rely (fun guard held => ?_) fun met => ?_
    · rw [of_decide_eq_true free] at held
      cases held
    · rw [met]
      rfl
  case lawful => exact fun t _ _ _ => lawful_of_same (fun _ => id) (fun _ => Nat.le_refl _) (fun _ => Nat.le_refl _) id
  case inv => exact fun t _ inv _ => { inv with }
  case rest =>
    intro t mine _ _
    have deciding : Deciding me key sid request { t.lockState sid (some { thread := me, request }) with
        metFatal := t.metFatal || ((t.session sid).fatal && t.Fits sid request) } := by
      refine ⟨⟨mine.holder, mine.created, mine.prefixKey⟩, Function.update_self _ _ _, fun fatal fits => ?_⟩
      rw [Bool.or_eq_true, Bool.and_eq_true]
      exact .inr ⟨fatal, decide_eq_true fits⟩
    show LeaseSafe me (body.attempt >>= fun result =>
      Task.modify (·.lockState sid none) >>= fun _ => Task.ofExcept result) (fun _ t => Mine me key sid t) _
    refine Task.Safe.bind (leaseRely_refl me) (Task.Safe.attempt ((safe _ deciding).post ?_))
    intro r u deciding
    apply lawful_step deciding_kept deciding
    case rely =>
      intro v deciding _ _ other ne
      refine state_rely (fun guard held mine => ?_) id
      rw [deciding.held] at held
      cases held
      exact ne mine.symm
    case lawful => exact fun v _ _ _ => lawful_of_same (fun _ => id) (fun _ => Nat.le_refl _) (fun _ => Nat.le_refl _) id
    case inv => exact fun v _ inv _ => { inv with }
    case rest =>
      intro v deciding _ _
      exact Task.safe_ofExcept mine_kept ⟨deciding.holder, deciding.created, deciding.prefixKey⟩

/-- What it takes to leave `ready` for this cause. -/
def Allowed (cause : ShutdownCause) (sid : Nat) (s : Registry) : Prop := cause = .forced ∨ Idle sid s

theorem allowed_kept {cause : ShutdownCause} :
    Kept me fun s => Deciding me key sid request s ∧ Allowed cause sid s := by
  intro s t here moved
  rcases here.2 with forced | idle
  · exact ⟨deciding_kept s t here.1 moved, .inl forced⟩
  · have still := idle_kept s t ⟨here.1, idle⟩ moved
    exact ⟨still.1, .inr still.2⟩

theorem stop_safe {cause : ShutdownCause} (deciding : Deciding me key sid request s) (allowed : Allowed cause sid s) :
    LeaseSafe me (.fetch (fun _ => some false) fun s => s.put sid ((s.session sid).leave .stopping cause) :
      RegistryTask (Option Bool)) (fun _ t => Deciding me key sid request t) s := by
  apply lawful_step allowed_kept ⟨deciding, allowed⟩
  case rely =>
    intro t here _ _ other ne
    refine rely_put rfl rfl rfl id fun guard held mine => ?_
    rw [here.1.held] at held
    cases held
    exact absurd mine.symm ne
  case lawful =>
    intro t here _ _
    refine ⟨fun other ready left => ?_, fun lease more => absurd more (Nat.lt_irrefl _),
      fun other more => absurd more (Nat.lt_irrefl _), id⟩
    rw [session_put] at left ⊢
    split at left
    next same =>
      subst same
      rw [if_pos rfl]
      refine ⟨cause, if_pos ready, here.2.imp_right fun idle => ?_⟩
      rcases idle.requests with none | late
      · exact .inr ⟨idle.leases, idle.clients, none⟩
      · exact .inl late
    next => exact absurd ready left
  case inv =>
    intro t here inv _
    refine inv.put rfl rfl rfl rfl rfl rfl (fun needed steady => ?_) (inv.stranded sid)
    rcases here.2 with rfl | idle
    · exact steady_leave .stopping steady
    · exact absurd idle.leases needed
  case rest =>
    intro t here _ _
    refine Task.safe_ret deciding_kept ⟨⟨here.1.holder, here.1.created, ?_⟩, here.1.held, fun fatal fits => ?_⟩
      fun _ => id
    · rw [session_put, if_pos rfl]
      exact here.1.prefixKey
    · have stopping := fits.2
      rw [session_put, if_pos rfl] at stopping
      cases stopping

theorem decideShutdown_safe (cause : ShutdownCause) (mine : Mine me key sid s) :
    LeaseSafe me (decideShutdown me sid cause) (fun _ t => Mine me key sid t) s := by
  refine @withStateLock_mine _ me sid key none s _ mine fun t deciding => ?_
  have refuses {answer : Option Bool} (u : Registry) (here : Deciding me key sid none u) :
      LeaseSafe me (.ret answer) (fun _ v => Deciding me key sid none v) u :=
    Task.safe_ret deciding_kept here fun _ => id
  cases cause with
  | idle generation =>
    refine leaseQuiet.andThen (leaseRely_refl me) (Task.Framed.read Still.refl _) deciding_kept deciding
      (fun state u here => ?_) fun _ _ => id
    cases state with
    | ready =>
      refine leaseQuiet.andThen (leaseRely_refl me) (Task.Framed.read Still.refl _) deciding_kept here
        (fun current u here => ?_) fun _ _ => id
      split
      next =>
        refine (isQuiet_safe here).seq (leaseRely_refl me) (fun quiet v known => ?_) fun _ _ known => known.1
        split
        next yes => exact stop_safe known.1 (.inr (known.2 (congrArg Except.ok yes)))
        next => exact refuses v known.1
      next => exact refuses u here
    | stopping => exact refuses u here
    | stopped => exact refuses u here
    | failed => exact refuses u here
  | quiescent =>
    refine (isQuiet_safe deciding).seq (leaseRely_refl me) (fun quiet u known => ?_) fun _ _ known => known.1
    split
    next yes =>
      refine leaseQuiet.andThen (leaseRely_refl me) (Task.Framed.read Still.refl _) idle_kept
        ⟨known.1, known.2 (congrArg Except.ok yes)⟩ (fun state v here => ?_) fun _ _ here => here.1
      cases state with
      | ready => exact stop_safe here.1 (.inr here.2)
      | stopping => exact refuses v here.1
      | stopped => exact refuses v here.1
      | failed => exact refuses v here.1
    next => exact Task.safe_fail deciding_kept known.1 fun _ => id
  | forced =>
    refine leaseQuiet.andThen (leaseRely_refl me) (Task.Framed.read Still.refl _) deciding_kept deciding
      (fun state u here => ?_) fun _ _ => id
    cases state with
    | ready => exact stop_safe here (.inl rfl)
    | stopping => exact refuses u here
    | stopped => exact refuses u here
    | failed => exact refuses u here

theorem shutdownSessionLocked_holds (cause : ShutdownCause) (supervisor : Bool → Conversation)
    (mine : Mine me key sid s) :
    LeaseSafe me (shutdownSessionLocked me key sid cause supervisor) (fun _ t => t.startupHolder key = some me) s := by
  have held : Kept me fun t => t.startupHolder key = some me := fun t u here moved => moved.startup key here
  refine (decideShutdown_safe cause mine).seq (leaseRely_refl me) (fun decision t mine => ?_) fun _ _ mine => mine.holder
  cases decision with
  | none => exact Task.safe_ret held mine.holder fun _ => id
  | some skip => exact settleShutdown_keeps (supervisor skip) held (fun _ _ => id) mine.holder

theorem held_kept : Kept me fun t => t.startupHolder key = some me := fun _ _ here moved => moved.startup key here

/-- The session that is registered is the thread's, as long as it has the lock. -/
theorem lookup_safe (holder : s.startupHolder key = some me) :
    LeaseSafe me (.read fun s => s.sessions key) (fun r t => ∃ found, r = .ok found ∧
      t.startupHolder key = some me ∧ ∀ sid, found = some sid → Mine me key sid t) s := by
  have kept (found : Option Nat) : Kept me fun t =>
      t.startupHolder key = some me ∧ ∀ sid, found = some sid → Mine me key sid t :=
    held_kept.and fun t u here moved sid same => mine_kept t u (here sid same) moved
  refine leaseQuiet.read Still.refl held_kept holder kept fun t here inv => ⟨here, fun sid found => ?_⟩
  obtain ⟨created, named, -⟩ := inv.registered key sid found
  exact ⟨here, created, named⟩

theorem shutdownSession_plain (cause : ShutdownCause) (supervisor : Bool → Conversation) :
    Plain me (shutdownSession me key sid cause supervisor) := by
  refine withStartupLock_plain fun t holder => ?_
  refine (lookup_safe holder).andThen (leaseRely_refl me) fun found u known => ?_
  split
  next same => exact shutdownSessionLocked_holds cause supervisor (known.2 sid same)
  next => exact Task.safe_ret held_kept known.1 fun _ => id

theorem framed_quiet (sid : Nat) : Task.Framed Still (isQuiet sid) := by
  refine (Task.Framed.read Still.refl _).bind fun operationLeases => ?_
  split
  · refine (Task.Framed.read Still.refl _).bind fun clientLeases => ?_
    split
    · exact Task.Framed.read Still.refl _
    · trivial
  · trivial

theorem idleShutdownIfQuiet_plain (generation : Nat) (supervisor : Bool → Conversation) :
    Plain me (idleShutdownIfQuiet me key generation sid supervisor) := by
  have nothing : Plain me (.ret () : RegistryTask Unit) := Task.Harmless.ret ()
  refine Plain.bind (leaseQuiet.harmless (Task.Framed.read Still.refl _)) fun found => ?_
  split
  · refine Plain.bind (leaseQuiet.harmless (Task.Framed.read Still.refl _)) fun current => ?_
    split
    · refine Plain.bind (leaseQuiet.harmless (framed_quiet sid)) fun quiet => ?_
      split
      · refine Plain.bind (leaseQuiet.harmless ⟨Still.refl, fun _ => trivial⟩) fun state => ?_
        split
        · exact shutdownSession_plain _ supervisor
        · exact nothing
      · exact nothing
    · exact nothing
  · exact nothing

/-! ## Leases that are handed out -/

theorem still_bump (s : Registry) (sid generation : Nat) :
    Still s (s.put sid { s.session sid with idleGeneration := generation }) := by
  refine { Still.refl s with session := fun other => ?_ }
  rw [session_put]
  split
  next same =>
    subst same
    exact ⟨generation, rfl⟩
  next => exact ⟨_, rfl⟩

theorem leasesOn_cons (lease : OperationLease) (leases : List OperationLease) (sid : Nat) :
    (lease :: leases).countP (fun lease => lease.session = sid) =
      leases.countP (fun lease => lease.session = sid) + if lease.session = sid then 1 else 0 := by
  rw [List.countP_cons]
  simp

theorem session_hand (lease : OperationLease) (other : Nat) :
    (s.hand lease).session other = if other = lease.session then { s.session lease.session with
      operationLeases := (s.session lease.session).operationLeases + 1 } else s.session other := session_put _ _ _ _

theorem LeaseInv.hand (inv : LeaseInv s) {lease : OperationLease} (created : lease.session < s.created)
    (ready : (s.session lease.session).state = .ready) (asked : (s.session lease.session).asked = lease.request) :
    LeaseInv (s.hand lease) := by
  refine inv.move rfl rfl rfl (fun _ => id) ?_ (fun other ne => ?_) rfl (fun _ _ => rfl) (.inr rfl) (fun _ _ => rfl)
    (fun other there => ?_) inv.clients inv.launched (inv.stranded lease.session) id id
  · show (s.session lease.session).operationLeases + 1 + _ = _
    rw [leasesOn_cons, if_pos rfl, Registry.leasesOn]
    omega
  · rw [leasesOn_cons, if_neg (Ne.symm ne)]
    rfl
  · rcases List.mem_cons.mp there with rfl | old
    · exact ⟨created, asked, .inl ready⟩
    · exact inv.serves old

theorem hand_rely {other : Nat} {lease : OperationLease} (holder : s.startupHolder (s.session lease.session).prefixKey = some me)
    (ne : other ≠ me) : LeaseRely other s (s.hand lease) := by
  have put : LeaseRely other s (s.put lease.session { s.session lease.session with
      operationLeases := (s.session lease.session).operationLeases + 1 }) :=
    rely_put rfl rfl rfl id fun _ _ _ => ⟨rfl, id⟩
  refine leaseRely_trans other _ _ _ put (rely_lists ?_ (fun _ _ => id) id id)
  intro sid _ theirs none
  rw [leasesOn_cons]
  have apart : lease.session ≠ sid := by
    rintro rfl
    rw [session_put, if_pos rfl] at theirs
    rw [show s.startupHolder _ = some other from theirs] at holder
    cases holder
    exact ne rfl
  rw [if_neg apart]
  exact none

theorem hand_lawful (request : Request) (deciding : Deciding me key sid (some request) s)
    (ready : (s.session sid).state = .ready) (asked : (s.session sid).asked = request) :
    Lawful s (s.hand { session := sid, request }) where
  leaves other was left := by
    rw [session_hand] at left
    split at left
    next same =>
      subst same
      exact absurd was left
    next => exact absurd was left
  hands lease more := by
    have same : lease = { session := sid, request } := by
      by_contra apart
      have more : s.leases.count lease < ({ session := sid, request } :: s.leases).count lease := more
      rw [List.count_cons_of_ne (Ne.symm apart)] at more
      exact absurd more (Nat.lt_irrefl _)
    subst same
    rw [session_hand, if_pos rfl]
    refine ⟨ready, asked, fun fatal => deciding.met fatal ⟨?_, ready⟩⟩
    rw [asked]
  attaches _ more := absurd more (Nat.lt_irrefl _)
  misreported := id

/-- What was read of the session still holds of what an operation is checked against. -/
structure Fitting (me : Nat) (key : String) (sid : Nat) (request : Request) (existing : RunnerSession) (s : Registry) :
    Prop extends Deciding me key sid (some request) s where
  ready : existing.state = .ready → (s.session sid).state = .ready
  asked : (s.session sid).asked = existing.asked

theorem fitting_kept {request : Request} {existing : RunnerSession} : Kept me (Fitting me key sid request existing) := by
  intro s t here moved
  refine ⟨deciding_kept s t here.toDeciding moved, fun ready => ?_, (moved.asked sid here.created).trans here.asked⟩
  exact (moved.settled sid _ here.created here.held rfl).state.trans (here.ready ready)

/-- A lease is handed out on a session that is ready and fits. -/
theorem hand_safe {request : Request} {existing : RunnerSession} (fitting : Fitting me key sid request existing s)
    (ready : existing.state = .ready) (asked : existing.asked = request) :
    LeaseSafe me (.modify (·.hand { session := sid, request }) >>= fun _ =>
      .ret (some (.lease { session := sid, request })) : RegistryTask (Option Admission))
      (fun _ t => Deciding me key sid (some request) t) s := by
  apply lawful_step fitting_kept fitting
  case rely =>
    intro t here _ _ other ne
    refine @hand_rely me t other { session := sid, request } ?_ ne
    rw [here.prefixKey]
    exact here.holder
  case lawful =>
    intro t here _ _
    exact hand_lawful request here.toDeciding (here.ready ready) (here.asked.trans asked)
  case inv =>
    exact fun t here inv _ => inv.hand here.created (here.ready ready) (here.asked.trans asked)
  case rest =>
    intro t here _ _
    refine Task.safe_ret deciding_kept ⟨⟨here.holder, here.created, ?_⟩, here.held, fun fatal fits => ?_⟩ fun _ => id
    · rw [session_hand, if_pos rfl]
      exact here.prefixKey
    · rw [session_hand, if_pos rfl] at fatal
      refine here.met fatal ⟨?_, here.ready ready⟩
      rw [here.asked, asked]

theorem beginOnExisting_mine {request : Request} (mine : Mine me key sid s) :
    LeaseSafe me (beginOnExisting me key request sid) (fun _ t => Mine me key sid t) s := by
  refine withStateLock_mine mine fun t deciding => ?_
  refine (leaseQuiet.read (K := Fitting me key sid request) Still.refl deciding_kept deciding
    (fun _ => fitting_kept) fun u here _ => ⟨here, id, rfl⟩).andThen (leaseRely_refl me) fun existing u fitting => ?_
  have refuses (e : Failure) (v : Registry) (here : Deciding me key sid (some request) v) :
      LeaseSafe me (.fail e : RegistryTask (Option Admission)) (fun _ w => Deciding me key sid (some request) w) v :=
    Task.safe_fail deciding_kept here fun _ => id
  have answers (answer : Option Admission) (v : Registry) (here : Deciding me key sid (some request) v) :
      LeaseSafe me (.ret answer) (fun _ w => Deciding me key sid (some request) w) v :=
    Task.safe_ret deciding_kept here fun _ => id
  split
  next ready =>
    split
    next => exact refuses _ u fitting.toDeciding
    next runner =>
      split
      next =>
        refine leaseQuiet.andThen (leaseRely_refl me) (framed_quiet sid) deciding_kept fitting.toDeciding
          (fun quiet v here => ?_) fun _ _ => id
        split
        next =>
          exact leaseQuiet.andThen (leaseRely_refl me) (Task.Framed.read Still.refl _) deciding_kept here
            (fun generation w here => answers _ w here) fun _ _ => id
        next => exact refuses _ v here
      next plan =>
        have asked : existing.asked = request := by
          rw [Decidable.not_not] at runner plan
          cases given : existing.asked
          cases request
          grind
        exact leaseQuiet.andThen (leaseRely_refl me) (Task.Framed.modify fun v => still_bump v sid _) fitting_kept fitting
          (fun _ v here => hand_safe here ready asked) fun _ _ here => here.toDeciding
  next => exact answers _ u fitting.toDeciding
  next =>
    exact (removal_keeps deciding_kept fitting.toDeciding).seq (leaseRely_refl me)
      (fun _ v here => answers _ v here) fun _ _ => id
  next =>
    exact (removal_keeps deciding_kept fitting.toDeciding).seq (leaseRely_refl me)
      (fun _ v here => answers _ v here) fun _ _ => id

/-! ## New sessions -/

theorem leasesOn_of_new (inv : LeaseInv s) {sid : Nat} (new : s.created ≤ sid) : s.leasesOn sid = 0 := by
  rw [Registry.leasesOn, List.countP_eq_zero]
  intro lease there
  have old := inv.lent lease there
  rw [decide_eq_true_eq]
  omega

theorem clientsOn_of_new (inv : LeaseInv s) {sid : Nat} (new : s.created ≤ sid) : s.clientsOn sid = 0 := by
  rw [Registry.clientsOn, List.count_eq_zero]
  intro there
  have old := inv.clients sid there
  omega

theorem outstandingOn_of_new (inv : LeaseInv s) {sid : Nat} (new : s.created ≤ sid) : s.outstandingOn sid = 0 := by
  rw [Registry.outstandingOn, List.countP_eq_zero]
  intro launch there
  have old := inv.launched launch there
  rw [decide_eq_true_eq]
  omega

theorem put_new_rely (other : Nat) (session : RunnerSession) : LeaseRely other s (s.create session) where
  created := Nat.le_succ _
  prefixKey sid old := by
    show ((s.put s.created session).session sid).prefixKey = _
    rw [session_put, if_neg (Nat.ne_of_lt old)]
  asked sid old := by
    show ((s.put s.created session).session sid).asked = _
    rw [session_put, if_neg (Nat.ne_of_lt old)]
  published sid old := by
    show ((s.put s.created session).session sid).published = _
    rw [session_put, if_neg (Nat.ne_of_lt old)]
  startup _ := id
  counted sid old _ := by
    refine ⟨id, fun _ => id, fun _ _ _ idle => .inl ?_⟩
    show ((s.put s.created session).session sid).activeRequests = 0
    rw [session_put, if_neg (Nat.ne_of_lt old)]
    exact idle
  settled sid guard old held _ := by
    refine ⟨held, ?_, fun fatal => .inl ?_⟩
    · show ((s.put s.created session).session sid).state = _
      rw [session_put, if_neg (Nat.ne_of_lt old)]
    · have fatal : ((s.put s.created session).session sid).fatal = true := fatal
      rw [session_put, if_neg (Nat.ne_of_lt old)] at fatal
      exact fatal
  late := id
  metFatal := id

/-- A new session is ready, and idle but for the operation it was started for. -/
theorem LeaseInv.add (inv : LeaseInv s) (key : String) (request : Request) (fatal : Bool) {published metFatal : Bool}
    {sessions : String → Option Nat} {leases : List OperationLease}
    (named : ∀ key' sid, sessions key' = some sid →
      s.sessions key' = some sid ∨ sid = s.created ∧ key = key' ∧ published = true)
    (counted : 1 = leases.countP (fun lease => lease.session = s.created) + if published then 0 else 1)
    (others : ∀ other, other ≠ s.created → leases.countP (fun lease => lease.session = other) = s.leasesOn other)
    (lent : ∀ lease, lease ∈ leases → lease ∈ s.leases ∨ lease = { session := s.created, request }) :
    LeaseInv { s.create (.new key request fatal published) with sessions, leases, metFatal } where
  registered key' sid found := by
    show sid < s.created + 1 ∧ ((s.put s.created _).session sid).prefixKey = key' ∧
      ((s.put s.created _).session sid).published = true
    rcases named key' sid found with old | ⟨rfl, same, there⟩
    · obtain ⟨created, rest⟩ := inv.registered key' sid old
      rw [session_put, if_neg (Nat.ne_of_lt created)]
      exact ⟨Nat.lt_succ_of_lt created, rest⟩
    · rw [session_put, if_pos rfl]
      exact ⟨Nat.lt_succ_self _, same, there⟩
  operations sid := by
    show ((s.put s.created _).session sid).operationLeases = leases.countP (fun lease => lease.session = sid) +
      if ((s.put s.created _).session sid).published then 0 else 1
    rw [session_put]
    split
    next same =>
      subst same
      exact counted
    next apart =>
      rw [others sid apart]
      exact inv.operations sid
  attached sid := by
    show ((s.put s.created _).session sid).clientLeases = s.clientsOn sid
    rw [session_put]
    split
    next same =>
      rw [clientsOn_of_new inv (Nat.le_of_eq same.symm)]
      rfl
    next => exact inv.attached sid
  lent lease there := by
    rcases lent lease there with old | rfl
    · exact Nat.lt_succ_of_lt (inv.lent lease old)
    · exact Nat.lt_succ_self _
  agreed lease there := by
    show ((s.put s.created _).session lease.session).asked = lease.request
    rcases lent lease there with old | rfl
    · rw [session_put, if_neg (Nat.ne_of_lt (inv.lent lease old))]
      exact inv.agreed lease old
    · rw [session_put, if_pos rfl]
      rfl
  steady lease there := by
    show ((s.put s.created _).session lease.session).Steady
    rcases lent lease there with old | rfl
    · rw [session_put, if_neg (Nat.ne_of_lt (inv.lent lease old))]
      exact inv.steady lease old
    · rw [session_put, if_pos rfl]
      exact .inl rfl
  requested sid := by
    show s.misreported = true ∨ ((s.put s.created _).session sid).activeRequests = s.outstandingOn sid
    rw [session_put]
    split
    next same => exact .inr (outstandingOn_of_new inv (Nat.le_of_eq same.symm)).symm
    next => exact inv.requested sid
  launched launch there := Nat.lt_succ_of_lt (inv.launched launch there)
  clients sid there := Nat.lt_succ_of_lt (inv.clients sid there)
  stranded sid := by
    show ((s.put s.created _).session sid).fatal = true →
      ((s.put s.created _).session sid).activeRequests = 0 ∨ s.stranded = true
    rw [session_put]
    split
    next => exact fun _ => .inl rfl
    next => exact inv.stranded sid

theorem LeaseInv.create (inv : LeaseInv s) (key : String) (request : Request) (fatal : Bool) :
    LeaseInv (s.create (.new key request fatal false)) := by
  have none : s.leasesOn s.created = 0 := leasesOn_of_new inv (Nat.le_refl _)
  refine inv.add key request fatal (fun _ _ => .inl) ?_ (fun _ _ => rfl) fun _ => .inl
  show 1 = s.leasesOn s.created + 1
  rw [none]

theorem create_lawful (key : String) (request : Request) (fatal : Bool) :
    Lawful s (s.create (.new key request fatal false)) := by
  refine lawful_of_same (fun sid ready => ?_) (fun _ => Nat.le_refl _) (fun _ => Nat.le_refl _) id
  show ((s.put s.created _).session sid).state = .ready
  rw [session_put]
  split
  next => rfl
  next => exact ready

theorem LeaseInv.publish (inv : LeaseInv s) (key : String) (request : Request) (fatal : Bool) :
    LeaseInv (s.publish key request fatal) := by
  have none : s.leasesOn s.created = 0 := leasesOn_of_new inv (Nat.le_refl _)
  refine inv.add key request fatal (fun key' sid found => ?_) ?_ (fun other apart => ?_) fun lease there => ?_
  · have found : (s.publish key request fatal).sessions key' = some sid := found
    rw [sessions_publish] at found
    split at found
    next same =>
      cases found
      exact .inr ⟨rfl, same.symm, rfl⟩
    next => exact .inl found
  · rw [leasesOn_cons, if_pos rfl]
    show 1 = s.leasesOn s.created + 1
    rw [none]
  · rw [leasesOn_cons, if_neg (Ne.symm apart)]
    rfl
  · exact (List.mem_cons.mp there).symm

theorem publish_rely {other : Nat} (request : Request) (fatal : Bool) (holder : s.startupHolder key = some me)
    (ne : other ≠ me) : LeaseRely other s (s.publish key request fatal) := by
  refine leaseRely_trans other _ _ _ (put_new_rely other (.new key request fatal true))
    (rely_lists ?_ (fun _ _ => id) id fun met => by rw [show s.metFatal = true from met]; rfl)
  intro sid _ theirs none
  rw [leasesOn_cons]
  have apart : s.created ≠ sid := by
    rintro rfl
    have named : ((s.create (.new key request fatal true)).session s.created).prefixKey = key := by
      show ((s.put s.created _).session s.created).prefixKey = key
      rw [session_put, if_pos rfl]
      rfl
    rw [named, show (s.create _).startupHolder key = some me from holder] at theirs
    cases theirs
    exact ne rfl
  rw [if_neg apart]
  exact none

theorem publish_lawful (request : Request) (fatal : Bool) :
    Lawful s (s.publish key request fatal) where
  leaves sid ready left := by
    rw [session_publish] at left
    split at left
    next => exact absurd rfl left
    next => exact absurd ready left
  hands lease more := by
    have same : lease = { session := s.created, request } := by
      by_contra apart
      have more : s.leases.count lease < ({ session := s.created, request } :: s.leases).count lease := more
      rw [List.count_cons_of_ne (Ne.symm apart)] at more
      exact absurd more (Nat.lt_irrefl _)
    subst same
    rw [session_publish, if_pos rfl]
    refine ⟨rfl, rfl, fun given => ?_⟩
    have given : fatal = true := given
    show (s.metFatal || fatal) = true
    rw [given, Bool.or_true]
  attaches _ more := absurd more (Nat.lt_irrefl _)
  misreported := id

theorem startSession_holds {request : Request} (attempt : Attempt) (holder : s.startupHolder key = some me) :
    LeaseSafe me (startSession me key request attempt) (fun _ t => t.startupHolder key = some me) s := by
  refine leaseQuiet.andThen (leaseRely_refl me) (Task.Framed.ofExcept _) held_kept holder (fun _ t holder => ?_)
    fun _ _ => id
  refine leaseQuiet.andThen (leaseRely_refl me) (Task.Framed.read Still.refl _) held_kept holder
    (fun closing u holder => ?_) fun _ _ => id
  split
  next =>
    apply lawful_step held_kept holder
    case rely => exact fun v _ _ _ other _ => put_new_rely other _
    case lawful => exact fun v _ _ _ => create_lawful key request attempt.fatal
    case inv => exact fun v _ inv _ => inv.create key request attempt.fatal
    case rest =>
      intro v holder _ _
      have mine : Mine me key v.created (v.create (.new key request attempt.fatal false)) := by
        refine ⟨holder, Nat.lt_succ_self _, ?_⟩
        show ((v.put v.created _).session v.created).prefixKey = key
        rw [session_put, if_pos rfl]
        rfl
      exact (shutdownSessionLocked_holds .forced attempt.discard mine).seq (leaseRely_refl me)
        (fun _ w holder => Task.safe_fail held_kept holder fun _ => id) fun _ _ => id
  next =>
    apply lawful_step held_kept holder
    case rely => exact fun v holder _ _ other ne => publish_rely request attempt.fatal holder ne
    case lawful => exact fun v _ _ _ => publish_lawful request attempt.fatal
    case inv => exact fun v _ inv _ => inv.publish key request attempt.fatal
    case rest => exact fun v holder _ _ => Task.safe_ret held_kept holder fun _ => id

theorem beginLocked_holds {request : Request} (attempt : Attempt) (holder : s.startupHolder key = some me) :
    LeaseSafe me (beginLocked me key request attempt) (fun _ t => t.startupHolder key = some me) s := by
  refine leaseQuiet.andThen (leaseRely_refl me) (Task.Framed.read Still.refl _) held_kept holder
    (fun closing t holder => ?_) fun _ _ => id
  split
  next => exact Task.safe_fail held_kept holder fun _ => id
  next =>
    refine (lookup_safe holder).andThen (leaseRely_refl me) fun found u known => ?_
    split
    next => exact startSession_holds attempt known.1
    next sid =>
      refine (beginOnExisting_mine (known.2 sid rfl)).seq (leaseRely_refl me) (fun admission v mine => ?_)
        fun _ _ mine => mine.holder
      cases admission with
      | none => exact startSession_holds attempt mine.holder
      | some admission => exact Task.safe_ret held_kept mine.holder fun _ => id

theorem beginLoop_plain {request : Request} (attempts : List Attempt) : Plain me (beginLoop me key request attempts) := by
  induction attempts with
  | nil => exact leaseQuiet.harmless ⟨Still.refl, fun _ => trivial⟩
  | cons attempt later ih =>
    refine Plain.bind (withStartupLock_plain fun t holder => beginLocked_holds attempt holder) fun admission => ?_
    cases admission with
    | lease lease => exact Task.Harmless.ret _
    | shutdown sid cause => exact (shutdownSession_plain cause attempt.shutdown).bind fun _ => ih

theorem canonicalKey_plain (canonical : Option String) : Plain me (canonicalKey canonical) := by
  cases canonical with
  | none => exact Task.Harmless.fail _
  | some key => exact Task.Harmless.ret key

/-! ## Leases that are dropped, clients and requests -/

theorem framed_schedule (sid : Nat) : Task.Framed Still (scheduleIdleShutdown sid) := by
  refine (framed_quiet sid).bind fun quiet => ?_
  split
  · refine (Task.Framed.fetch fun s => still_bump s sid _).bind fun generation => ?_
    exact Task.Framed.modify fun s => { Still.refl s with }
  · trivial

/-- A step from any state, with nothing to remember. -/
theorem plain_step {enabled : Registry → Bool} {update : Registry → Registry} {rest : RegistryTask α}
    (rely : ∀ t, LeaseInv t → enabled t = true → ∀ other, LeaseRely other t (update t))
    (lawful : ∀ t, LeaseInv t → enabled t = true → Lawful t (update t))
    (inv : ∀ t, LeaseInv t → enabled t = true → LeaseInv (update t)) (after : Plain me rest) :
    Plain me (.await enabled update >>= fun _ => rest) := fun _ =>
  lawful_step kept_true trivial (fun t _ inv' on other _ => rely t inv' on other) (fun t _ inv' on => lawful t inv' on)
    (fun t _ inv' on => inv t inv' on) fun _ _ _ _ => after _

theorem leasesOn_erase {lease : OperationLease} {leases : List OperationLease} (there : lease ∈ leases) (sid : Nat) :
    leases.countP (fun lease => lease.session = sid) =
      (leases.erase lease).countP (fun lease => lease.session = sid) + if lease.session = sid then 1 else 0 := by
  rw [(List.perm_cons_erase there).countP_eq, leasesOn_cons]

theorem lawful_move {session : RunnerSession} {leases : List OperationLease} {clients : List Nat}
    {outstanding : List (Nat × String)} {late misreported attachedForced stranded metFatal : Bool}
    (state : session.state = (s.session sid).state) (lent : ∀ lease, leases.count lease ≤ s.leases.count lease)
    (alive : ∀ client, clients.count client ≤ s.clients.count client)
    (reported : s.misreported = true → misreported = true) :
    Lawful s { s.put sid session with
      leases, clients, outstanding, late, misreported, attachedForced, stranded, metFatal } := by
  refine lawful_of_same (fun other ready => ?_) lent alive reported
  show ((s.put sid session).session other).state = .ready
  rw [state_put state]
  exact ready

theorem releaseOperationLease_plain (lease : OperationLease) : Plain me (releaseOperationLease lease) := by
  refine plain_step ?_ ?_ ?_ (leaseQuiet.harmless (framed_schedule _))
  · intro t _ _ other
    have put : LeaseRely other t (t.put lease.session { t.session lease.session with
        operationLeases := (t.session lease.session).operationLeases - 1 }) :=
      rely_put rfl rfl rfl id fun _ _ _ => ⟨rfl, id⟩
    refine leaseRely_trans other _ _ _ put (rely_lists ?_ (fun _ _ => id) id id)
    intro sid _ _ none
    exact Nat.le_zero.mp (none ▸ List.erase_sublist.countP_le)
  · exact fun t _ _ => lawful_move rfl (fun other => List.erase_sublist.count_le other) (fun _ => Nat.le_refl _) id
  · intro t inv there
    have there : lease ∈ t.leases := of_decide_eq_true there
    have less := leasesOn_erase there
    refine inv.move rfl rfl rfl (fun _ => id) ?_ ?_ rfl (fun _ _ => rfl) (.inr rfl) (fun _ _ => rfl)
      (fun _ left => inv.serves (List.mem_of_mem_erase left)) inv.clients inv.launched
      (inv.stranded lease.session) id id
    · have counted := inv.operations lease.session
      have here := less lease.session
      rw [if_pos rfl] at here
      show (t.session lease.session).operationLeases - 1 + _ = _
      rw [Registry.leasesOn] at counted ⊢
      omega
    · intro other ne
      have here := less other
      rw [if_neg (Ne.symm ne)] at here
      exact here.symm

theorem releaseClientLease_plain (sid : Nat) : Plain me (releaseClientLease sid) := by
  refine plain_step ?_ ?_ ?_ (leaseQuiet.harmless (framed_schedule _))
  · intro t _ _ other
    have put : LeaseRely other t (t.put sid { t.session sid with clientLeases := (t.session sid).clientLeases - 1 }) :=
      rely_put rfl rfl rfl id fun _ _ _ => ⟨rfl, id⟩
    refine leaseRely_trans other _ _ _ put (rely_lists (fun _ _ _ => id) ?_ id id)
    intro sid' _ none
    exact Nat.le_zero.mp (none ▸ List.erase_sublist.count_le sid')
  · exact fun t _ _ => lawful_move rfl (fun _ => Nat.le_refl _) (fun other => List.erase_sublist.count_le other) id
  · intro t inv there
    have there : sid ∈ t.clients := of_decide_eq_true there
    refine inv.move rfl rfl rfl (fun _ => id) rfl (fun _ _ => rfl) ?_ ?_ (.inr rfl) (fun _ _ => rfl)
      (fun _ there => inv.serves there)
      (fun client here => inv.clients client (List.mem_of_mem_erase here)) inv.launched (inv.stranded sid) id id
    · have counted := inv.attached sid
      have some : 0 < t.clients.count sid := List.count_pos_iff.mpr there
      show (t.session sid).clientLeases - 1 + _ = _
      rw [List.count_erase_self]
      rw [Registry.clientsOn] at counted ⊢
      omega
    · exact fun other ne => List.count_erase_of_ne ne

/-- A client is attached for the holder of a lease, to a session that is ready or was stopped by force. -/
theorem attach_lawful (inv : LeaseInv s) {lease : OperationLease} (there : lease ∈ s.leases) :
    Lawful s { s.put lease.session { s.session lease.session with
        clientLeases := (s.session lease.session).clientLeases + 1 } with
      clients := lease.session :: s.clients
      attachedForced := s.attachedForced || (s.session lease.session).stopCause = some .forced } where
  leaves other ready left := by
    have left : ((s.put lease.session _).session other).state ≠ .ready := left
    exact absurd (by grind) left
  hands _ more := absurd more (Nat.lt_irrefl _)
  attaches sid more := by
    have same : lease.session = sid := by
      by_contra apart
      have more : s.clients.count sid < (lease.session :: s.clients).count sid := more
      rw [List.count_cons_of_ne apart] at more
      exact absurd more (Nat.lt_irrefl _)
    subst same
    show (((s.put lease.session _).session lease.session).state = .ready ∨
      (s.attachedForced || decide ((s.session lease.session).stopCause = some .forced)) = true) ∧
        ∃ lent, lent ∈ s.leases ∧ lent.session = lease.session ∧
          ((s.put lease.session _).session lease.session).asked = lent.request
    rw [session_put, if_pos rfl]
    refine ⟨(inv.steady lease there).imp_right fun forced => ?_, lease, there, rfl, inv.agreed lease there⟩
    rw [decide_eq_true forced, Bool.or_true]
  misreported := id

theorem attachClient_plain (lease : OperationLease) : Plain me (attachClient lease) := by
  refine plain_step ?_ ?_ ?_ ?_
  · intro t _ there other
    have there : lease ∈ t.leases := of_decide_eq_true there
    have put : LeaseRely other t (t.put lease.session { t.session lease.session with
        clientLeases := (t.session lease.session).clientLeases + 1 }) :=
      rely_put rfl rfl rfl id fun _ _ _ => ⟨rfl, id⟩
    refine leaseRely_trans other _ _ _ put (rely_lists (fun _ _ _ => id) ?_ id id)
    intro sid none empty
    have apart : lease.session ≠ sid := fun same =>
      List.countP_eq_zero.mp none lease there (decide_eq_true same)
    exact (List.count_cons_of_ne apart).trans empty
  · intro t inv there
    exact attach_lawful inv (of_decide_eq_true there)
  · intro t inv there
    have there : lease ∈ t.leases := of_decide_eq_true there
    refine inv.move rfl rfl rfl (fun _ => id) rfl (fun _ _ => rfl) ?_ ?_ (.inr rfl) (fun _ _ => rfl)
      (fun _ there => inv.serves there) ?_ inv.launched (inv.stranded lease.session) id id
    · show (t.session lease.session).clientLeases + 1 + _ = _
      rw [List.count_cons_self, Registry.clientsOn]
      omega
    · exact fun other ne => List.count_cons_of_ne (Ne.symm ne)
    · intro client here
      rcases List.mem_cons.mp here with rfl | old
      · exact inv.lent lease there
      · exact inv.clients client old
  · exact Plain.bind (leaseQuiet.harmless (Task.Framed.modify fun s => still_bump s _ _)) fun _ => Task.Harmless.ret _

/-- A step that touches only the requests of a session, or marks it as fatal. -/
theorem LeaseInv.requests (inv : LeaseInv s) {session : RunnerSession} {outstanding : List (Nat × String)}
    {late misreported stranded metFatal : Bool}
    (same : ∃ requests fatal, session = { s.session sid with activeRequests := requests, fatal := fatal })
    (requested : misreported = true ∨ session.activeRequests + s.outstandingOn sid =
      (s.session sid).activeRequests + outstanding.countP fun launch => launch.1 = sid)
    (elsewhere : ∀ other, other ≠ sid → outstanding.countP (fun launch => launch.1 = other) = s.outstandingOn other)
    (launched : ∀ launch, launch ∈ outstanding → launch.1 < s.created)
    (dead : session.fatal = true → session.activeRequests = 0 ∨ stranded = true)
    (reported : s.misreported = true → misreported = true) (still : s.stranded = true → stranded = true) :
    LeaseInv { s.put sid session with outstanding, late, misreported, stranded, metFatal } := by
  obtain ⟨requests, fatal, rfl⟩ := same
  exact inv.move rfl rfl rfl (fun _ => id) rfl (fun _ _ => rfl) rfl (fun _ _ => rfl) requested elsewhere
    (fun _ there => inv.serves there) inv.clients launched dead reported still

theorem outstandingOn_cons (launch : Nat × String) (outstanding : List (Nat × String)) (sid : Nat) :
    (launch :: outstanding).countP (fun launch => launch.1 = sid) =
      outstanding.countP (fun launch => launch.1 = sid) + if launch.1 = sid then 1 else 0 := by
  rw [List.countP_cons]
  simp

theorem accepted_inv (inv : LeaseInv s) (created : sid < s.created) (requestId : String) (late : Bool) :
    LeaseInv { accepted sid requestId s with late } := by
  refine inv.requests ⟨_, _, rfl⟩ (.inr ?_) (fun other ne => ?_) (fun launch there => ?_)
    (fun fatal => .inr ?_) id fun stranded => ?_
  · show (s.session sid).activeRequests + 1 + s.outstandingOn sid =
      _ + ((sid, requestId) :: s.outstanding).countP fun launch => launch.1 = sid
    rw [outstandingOn_cons, if_pos rfl, Registry.outstandingOn]
    omega
  · show ((sid, requestId) :: s.outstanding).countP (fun launch => launch.1 = other) = _
    rw [outstandingOn_cons, if_neg (Ne.symm ne)]
    rfl
  · rcases List.mem_cons.mp there with rfl | old
    · exact created
    · exact inv.launched launch old
  · have fatal : (s.session sid).fatal = true := fatal
    show (s.stranded || (s.session sid).fatal) = true
    rw [fatal, Bool.or_true]
  · show (s.stranded || (s.session sid).fatal) = true
    rw [stranded, Bool.true_or]

/-- A request is accepted where no other thread can tell. -/
theorem accepted_rely {other : Nat} {requestId : String} {late : Bool} (later : s.late = true → late = true)
    (may : ∀ request, s.stateHolder sid = some { thread := other, request } → s.leasesOn sid = 0 → late = true) :
    LeaseRely other s { accepted sid requestId s with late } where
  created := Nat.le_refl _
  prefixKey sid' _ := by
    show ((s.put sid _).session sid').prefixKey = _
    grind
  asked sid' _ := by
    show ((s.put sid _).session sid').asked = _
    grind
  published sid' _ := by
    show ((s.put sid _).session sid').published = _
    grind
  startup _ := id
  counted sid' _ _ := by
    refine ⟨id, fun _ => id, fun request held none idle => ?_⟩
    show ((s.put sid _).session sid').activeRequests = 0 ∨ late = true
    rw [session_put]
    split
    next same =>
      subst same
      exact .inr (may request held none)
    next => exact .inl idle
  settled sid' guard _ held _ := by
    refine ⟨held, ?_, fun fatal => .inl ?_⟩
    · show ((s.put sid _).session sid').state = _
      grind
    · have fatal : ((s.put sid _).session sid').fatal = true := fatal
      grind
  late := later
  metFatal := id

theorem created_kept : Kept me fun s => sid < s.created := fun _ _ here moved =>
  Nat.lt_of_lt_of_le here moved.created

theorem onLaunchAccepted_safe (created : sid < s.created) (requestId : String) :
    LeaseSafe me (onLaunchAccepted sid requestId) (fun _ _ => True) s := by
  apply lawful_step created_kept created
  case rely =>
    intro t _ _ _ other _
    refine accepted_rely (fun late => ?_) fun request held _ => ?_
    · rw [late, Bool.true_or]
    · rw [held]
      exact Bool.or_true _
  case lawful => exact fun t _ _ _ => lawful_move rfl (fun _ => Nat.le_refl _) (fun _ => Nat.le_refl _) id
  case inv => exact fun t created inv _ => accepted_inv inv created requestId _
  case rest => exact fun t _ _ _ => Task.Harmless.ret () _

theorem launch_plain (lease : OperationLease) (requestId : String) (answer : Except SessionError Unit) :
    Plain me (launch lease requestId answer) := by
  refine Plain.bind (leaseQuiet.harmless ⟨Still.refl, fun _ => trivial⟩) fun state => ?_
  split
  · cases answer with
    | ok done =>
      intro s
      apply lawful_step kept_true trivial
      case rely =>
        intro t _ _ there other _
        refine @accepted_rely lease.session t other requestId t.late id fun request _ none => ?_
        exact absurd (decide_eq_true rfl) (List.countP_eq_zero.mp none lease (of_decide_eq_true there))
      case lawful => exact fun t _ _ _ => lawful_move rfl (fun _ => Nat.le_refl _) (fun _ => Nat.le_refl _) id
      case inv =>
        exact fun t _ inv there => accepted_inv inv (inv.lent lease (of_decide_eq_true there)) requestId t.late
      case rest => exact fun t _ _ _ => Task.Harmless.ret () _
    | error error => exact Task.Harmless.fail _
  · exact Task.Harmless.fail _

theorem outstandingOn_erase {launch : Nat × String} {outstanding : List (Nat × String)} (there : launch ∈ outstanding)
    (sid : Nat) : outstanding.countP (fun launch => launch.1 = sid) =
      (outstanding.erase launch).countP (fun launch => launch.1 = sid) + if launch.1 = sid then 1 else 0 := by
  rw [(List.perm_cons_erase there).countP_eq, outstandingOn_cons]

/-- The counter goes down with the launch whose end is reported, if there is one. -/
theorem exited_inv (inv : LeaseInv s) (requestId : String) : LeaseInv (exited sid requestId s) := by
  refine inv.requests ⟨_, _, rfl⟩ ?_ (fun other ne => ?_)
    (fun launch there => inv.launched launch (List.mem_of_mem_erase there)) (fun fatal => ?_) (fun held => ?_) id
  · by_cases there : (sid, requestId) ∈ s.outstanding
    · rcases inv.requested sid with held | counted
      · exact .inl (by rw [held, Bool.true_or])
      · have less := outstandingOn_erase there sid
        rw [if_pos rfl] at less
        refine .inr ?_
        show (s.session sid).activeRequests - 1 + s.outstandingOn sid = _
        rw [Registry.outstandingOn] at counted ⊢
        omega
    · exact .inl (by rw [decide_eq_true there, Bool.or_true])
  · by_cases there : (sid, requestId) ∈ s.outstanding
    · have less := outstandingOn_erase there other
      rw [if_neg (Ne.symm ne)] at less
      exact less.symm
    · rw [List.erase_of_not_mem there]
      rfl
  · refine (inv.stranded sid fatal).imp_left fun none => ?_
    show (s.session sid).activeRequests - 1 = 0
    rw [none]
  · rw [held, Bool.true_or]

theorem onControllerExited_plain (sid : Nat) (requestId : String) : Plain me (onControllerExited sid requestId) := by
  refine plain_step ?_ ?_ ?_ (leaseQuiet.harmless (framed_schedule sid))
  · intro t _ _ other
    have put : LeaseRely other t (t.put sid { t.session sid with
        activeRequests := (t.session sid).activeRequests - 1 }) := by
      refine rely_put rfl rfl rfl (fun none => ?_) fun _ _ _ => ⟨rfl, id⟩
      show (t.session sid).activeRequests - 1 = 0
      rw [none]
    exact leaseRely_trans other _ _ _ put (rely_lists (fun _ _ _ => id) (fun _ _ => id) id id)
  · intro t _ _
    refine lawful_move rfl (fun _ => Nat.le_refl _) (fun _ => Nat.le_refl _) fun held => ?_
    rw [held, Bool.true_or]
  · exact fun t inv _ => exited_inv inv requestId

/-- A thread that decides on the session is told of an operation that it may admit. -/
theorem fatal_rely (other : Nat) (stranded : Bool) :
    LeaseRely other s { s.put sid { s.session sid with fatal := true } with
      stranded
      metFatal := s.metFatal || (s.stateHolder sid).any fun guard => s.Fits sid guard.request } where
  created := Nat.le_refl _
  prefixKey sid' _ := by
    show ((s.put sid _).session sid').prefixKey = _
    grind
  asked sid' _ := by
    show ((s.put sid _).session sid').asked = _
    grind
  published sid' _ := by
    show ((s.put sid _).session sid').published = _
    grind
  startup _ := id
  counted sid' _ _ := by
    refine ⟨id, fun _ => id, fun request held none idle => .inl ?_⟩
    show ((s.put sid _).session sid').activeRequests = 0
    grind
  settled sid' guard _ held _ := by
    refine ⟨held, ?_, fun fatal => ?_⟩
    · show ((s.put sid _).session sid').state = _
      grind
    · have fatal : ((s.put sid _).session sid').fatal = true := fatal
      rw [session_put] at fatal
      split at fatal
      next same =>
        subst same
        refine .inr fun fits => ?_
        show (s.metFatal || (s.stateHolder sid').any fun guard => s.Fits sid' guard.request) = true
        rw [held, Bool.or_eq_true]
        exact .inr (decide_eq_true fits)
      next => exact .inl fatal
  late := id
  metFatal met := by
    show (s.metFatal || _) = true
    rw [met, Bool.true_or]

theorem setFatal_plain (sid : Nat) : Plain me (setFatal sid) := by
  intro s
  apply lawful_step kept_true trivial
  case rely => exact fun t _ _ _ other _ => fatal_rely other _
  case lawful => exact fun t _ _ _ => lawful_move rfl (fun _ => Nat.le_refl _) (fun _ => Nat.le_refl _) id
  case inv =>
    intro t _ inv _
    refine inv.requests ⟨_, _, rfl⟩ (.inr rfl) (fun _ _ => rfl) inv.launched (fun _ => ?_) id fun stranded => ?_
    · show (t.session sid).activeRequests = 0 ∨ (t.stranded || decide ((t.session sid).activeRequests ≠ 0)) = true
      by_cases none : (t.session sid).activeRequests = 0
      · exact .inl none
      · rw [Bool.or_eq_true]
        exact .inr (.inr (decide_eq_true none))
    · show (t.stranded || _) = true
      rw [stranded, Bool.true_or]
  case rest => exact fun t _ _ _ => Task.Harmless.ret () _

theorem shutdownPrefix_plain (canonical : Option String) (supervisor : Bool → Conversation) :
    Plain me (shutdownPrefix me canonical supervisor) := by
  refine (canonicalKey_plain canonical).bind fun key => ?_
  refine Plain.bind (leaseQuiet.harmless (Task.Framed.read Still.refl _)) fun found => ?_
  cases found with
  | none => exact Task.Harmless.fail _
  | some sid => exact shutdownSession_plain _ supervisor

/-! ## Closing -/

theorem killRemaining_framed (remaining : List String) : Task.Framed Still (killRemaining remaining) := by
  induction remaining with
  | nil => trivial
  | cons key remaining ih =>
    refine (Task.Framed.read Still.refl _).bind fun found => ?_
    cases found with
    | none => exact ih
    | some sid => exact (Task.Framed.modify fun s => { Still.refl s with }).bind fun _ => ih

theorem shutdownAll_framed (timesOut : Bool) : Task.Framed Still (shutdownAll timesOut) := by
  refine (Task.Framed.modify fun s => { Still.refl s with }).bind fun _ => ?_
  refine (Task.Framed.modify fun s => { Still.refl s with }).bind fun _ => ?_
  refine (Task.Framed.fetch fun s => { Still.refl s with }).bind fun keys => ?_
  have returns : Task.Framed Still returnErrors := Task.Framed.modify fun s => { Still.refl s with }
  split
  · exact returns
  · refine (Task.Framed.fetch fun s => { Still.refl s with }).bind fun call => ?_
    split
    · refine (Task.Framed.modify fun s => { Still.refl s with }).bind fun _ => ?_
      exact (Task.Framed.read Still.refl _).bind fun remaining => killRemaining_framed remaining
    · exact (Task.Framed.await Still.refl).bind fun _ => returns

theorem still_empty (s : Registry) (key : String) :
    Still s (if s.sessions key = none ∧ s.closing then { s with emptied := key :: s.emptied } else s) := by
  split
  · exact { Still.refl s with }
  · exact Still.refl s

theorem shutdownKeyLocked_holds (supervisor : Bool → Conversation) (holder : s.startupHolder key = some me) :
    LeaseSafe me (shutdownKeyLocked me key supervisor) (fun _ t => t.startupHolder key = some me) s := by
  refine Task.Safe.bind (leaseRely_refl me) (Task.Safe.attempt ?_)
  refine (lookup_safe holder).andThen (leaseRely_refl me) fun found t known => ?_
  have rest (r : Except Failure Unit) (u : Registry) (holder : u.startupHolder key = some me) :
      LeaseSafe me (Task.modify (fun s => if s.sessions key = none ∧ s.closing then { s with emptied := key :: s.emptied }
        else s) >>= fun _ => Task.ofExcept r) (fun _ t => t.startupHolder key = some me) u :=
    leaseQuiet.andThen (leaseRely_refl me) (Task.Framed.modify fun v => still_empty v key) held_kept holder
      (fun _ v holder => leaseQuiet.safe (Task.Framed.ofExcept r) held_kept holder) fun _ _ => id
  cases found with
  | none => exact Task.safe_ret held_kept known.1 fun u holder => rest _ u holder
  | some sid => exact (shutdownSessionLocked_holds .forced supervisor (known.2 sid rfl)).post fun r u holder => rest r u holder

theorem expireKey_plain : Plain me (expireKey key) := by
  refine Plain.bind (leaseQuiet.harmless (Task.Framed.modify fun s => { Still.refl s with })) fun _ => ?_
  refine Plain.bind (leaseQuiet.harmless (Task.Framed.read Still.refl _)) fun found => ?_
  cases found with
  | none => exact Task.Harmless.ret ()
  | some sid => exact forceKillSession_plain

theorem shutdownKey_plain (call : Nat) (answers : KeyAnswers) : Plain me (shutdownKey me call key answers) := by
  have joins : Plain me (joinKey call key) :=
    leaseQuiet.harmless (Task.Framed.modify fun s => { Still.refl s with })
  unfold shutdownKey
  split
  · exact expireKey_plain.bind fun _ => joins
  · have locked : Plain me (withStartupLock me key (shutdownKeyLocked me key answers.supervisor)) :=
      withStartupLock_plain fun t holder => shutdownKeyLocked_holds answers.supervisor holder
    intro s
    refine Task.Safe.bind (leaseRely_refl me) (Task.Safe.attempt ((locked s).post fun r t _ => ?_))
    cases r with
    | ok given => exact joins t
    | error failure =>
      cases failure with
      | error error => exact joins t
      | dropped =>
        show LeaseSafe me (if answers.aborted then .ret ()
          else expireKey key >>= fun _ => joinKey call key) (fun _ _ => True) t
        split
        · exact Task.Harmless.ret () t
        · exact (expireKey_plain.bind fun _ => joins) t

theorem runJob_plain {job : Job} {body : RegistryTask Unit} (plain : Plain me body) : Plain me (runJob job body) :=
  Plain.bind (leaseQuiet.harmless (Task.Framed.await fun s => { Still.refl s with })) fun _ => plain

theorem RegistryEntry.safe {p : RegistryTask Unit} (entry : RegistryEntry me s p) :
    LeaseSafe me p (fun _ _ => True) s := by
  have discards {β : Type} {q : RegistryTask β} (plain : Plain me q) : Plain me q.discard :=
    Task.Harmless.discard (leaseRely_refl me) plain
  cases entry with
  | beginOperation canonical request attempts =>
    exact discards ((canonicalKey_plain canonical).bind fun _ => beginLoop_plain attempts) s
  | attachClient lease => exact discards (attachClient_plain lease) s
  | releaseOperationLease lease => exact releaseOperationLease_plain lease s
  | releaseClientLease sid => exact releaseClientLease_plain sid s
  | launch lease requestId answer => exact launch_plain lease requestId answer s
  | launchAccepted sid requestId created => exact onLaunchAccepted_safe created requestId
  | controllerExited sid requestId _ => exact onControllerExited_plain sid requestId s
  | setFatal sid _ => exact setFatal_plain sid s
  | shutdownPrefix canonical supervisor => exact shutdownPrefix_plain canonical supervisor s
  | shutdownSession key sid cause supervisor _ => exact shutdownSession_plain cause supervisor s
  | shutdownAll timesOut => exact leaseQuiet.harmless (shutdownAll_framed timesOut) s
  | idleTimer key generation sid supervisor => exact runJob_plain (idleShutdownIfQuiet_plain generation supervisor) s
  | shutdownKey call key answers => exact runJob_plain (shutdownKey_plain call answers) s
  | forceKill key sid => exact runJob_plain forceKillSession_plain s

end Decision

theorem leaseInv_new : LeaseInv .new := by
  constructor
  case registered =>
    intro key sid never
    cases never
  case operations => exact fun _ => rfl
  case attached => exact fun _ => rfl
  case lent =>
    intro lease never
    cases never
  case agreed =>
    intro lease never
    cases never
  case steady =>
    intro lease never
    cases never
  case requested => exact fun _ => .inr rfl
  case clients =>
    intro sid never
    cases never
  case launched =>
    intro launch never
    cases never
  case stranded =>
    intro sid never
    cases never

theorem lease_entries (t : Nat) (s : Registry) (p : RegistryTask Unit) (_ : LeaseInv s) (entry : RegistryEntry t s p) :
    leaseDiscipline.Safe t p (fun _ _ => True) s := entry.safe

/-! ## What a run keeps -/

section Runs

variable {c c' : Pool Nat Registry Failure}

theorem kept_run (run : PoolRun RegistryEntry (Pool.idle .new) c) : leaseDiscipline.Kept c := by
  have start : leaseDiscipline.inv .new := leaseInv_new
  exact run.kept lease_entries (Discipline.kept_idle start)

theorem lawful_refl (s : Registry) : Lawful s s := lawful_of_same (fun _ => id) (fun _ => Nat.le_refl _) (fun _ => Nat.le_refl _) id

theorem lawful_of_step (run : PoolRun RegistryEntry (Pool.idle .new) c) (step : PoolStep RegistryEntry c c') :
    Lawful c.1 c'.1 ∧ LeaseInv c'.1 := by
  obtain ⟨moved, kept⟩ := PoolStep.kept (D := leaseDiscipline) lease_entries step (kept_run run)
  refine ⟨?_, kept.1⟩
  rcases moved with same | ⟨t, guar⟩
  · rw [same]
    exact lawful_refl c.1
  · exact guar.2

/-- A step of the registry stops no session that is needed, hands out no lease of either kind that does
not fit, and leaves one session for a prefix. -/
structure StopsSafely (s s' : Registry) : Prop where
  stops : ∀ sid cause, (s.session sid).state = .ready → (s'.session sid).state ≠ .ready →
    (s'.session sid).stopCause = some cause → cause ≠ .forced →
      (∀ lease, lease ∈ s.leases → lease.session ≠ sid) ∧ sid ∉ s.clients ∧
        (∀ launch, launch ∈ s.outstanding → launch.1 ≠ sid) ∧ (s.session sid).activeRequests = 0
  hands : ∀ lease, s.leases.count lease < s'.leases.count lease →
    (s'.session lease.session).state = .ready ∧ (s'.session lease.session).asked = lease.request
  /-- A client asks for what the lease was handed out for that it comes with. -/
  attaches : ∀ sid, s.clients.count sid < s'.clients.count sid → (s'.session sid).state = .ready ∧
    ∃ lease, lease ∈ s.leases ∧ lease.session = sid ∧ (s'.session sid).asked = lease.request
  one : ∀ key key' sid sid', s'.sessions key = some sid → s'.sessions key' = some sid' →
    (s'.session sid).prefixKey = (s'.session sid').prefixKey → sid = sid'

/-- Every step is such a step, as long as no launch that was given up has been accepted while the
state of its session was locked, no client was attached to a session stopped by force, and the ends
that supervisors report are those of launches they accepted. -/
theorem stops_safely (run : PoolRun RegistryEntry (Pool.idle .new) c) (step : PoolStep RegistryEntry c c')
    (inTime : c'.1.late = false) (unforced : c'.1.attachedForced = false)
    (reported : c'.1.misreported = false) : StopsSafely c.1 c'.1 := by
  have before : LeaseInv c.1 := (kept_run run).1
  obtain ⟨lawful, inv⟩ := lawful_of_step run step
  refine ⟨?_, ?_, ?_, ?_⟩
  · intro sid cause ready left given unforced
    obtain ⟨cause', same, forced | late | ⟨leases, clients, requests⟩⟩ := lawful.leaves sid ready left
    · rw [given] at same
      cases same
      exact absurd forced unforced
    · rw [inTime] at late
      cases late
    · refine ⟨fun lease there same => ?_, List.count_eq_zero.mp clients, fun launch there same => ?_, requests⟩
      · exact List.countP_eq_zero.mp leases lease there (decide_eq_true same)
      · rcases before.requested sid with held | counted
        · rw [lawful.misreported held] at reported
          cases reported
        · rw [requests] at counted
          exact List.countP_eq_zero.mp counted.symm launch there (decide_eq_true same)
  · intro lease more
    obtain ⟨ready, asked, -⟩ := lawful.hands lease more
    exact ⟨ready, asked⟩
  · intro sid more
    obtain ⟨ready | forced, lent⟩ := lawful.attaches sid more
    · exact ⟨ready, lent⟩
    · rw [unforced] at forced
      cases forced
  · intro key key' sid sid' found found' same
    obtain ⟨-, named, -⟩ := inv.registered key sid found
    obtain ⟨-, named', -⟩ := inv.registered key' sid' found'
    rw [named, named'] at same
    subst same
    rw [found] at found'
    exact Option.some.inj found'

/-! ### A launch that was given up -/

def sampleLease : OperationLease where
  session := 0
  request := sampleRequest

/-- The launch of `oneSession` was given up, and its lease dropped. -/
def leaseDropped : Registry := (releaseOperationLease sampleLease).left oneSession

def sampleTimer : RegistryTask Unit :=
  runJob (.idleTimer "/p" 1 0) (idleShutdownIfQuiet 1 "/p" 1 0 fun _ => .stopped true)

/-- The timer has the locks, and has read the counters as zero. -/
def timerDecides : RegistryTask Unit × Registry := sampleTimer.partway 16 leaseDropped

/-- The supervisor accepts the launch. -/
def acceptedLate : Registry := (onLaunchAccepted 0 "launch-1").left timerDecides.2

def stoppedLate : RegistryTask Unit × Registry := timerDecides.1.partway 1 acceptedLate

theorem left_oneSession : PoolRun RegistryEntry (Pool.idle .new) (oneSession, fun _ => none) :=
  PoolRun.left (p := (beginOperationOpt 0 (some "/p") sampleRequest [sampleAttempt]).discard) rfl
    (.beginOperation (some "/p") sampleRequest [sampleAttempt]) (by decide +kernel)

theorem left_leaseDropped : PoolRun RegistryEntry (oneSession, fun _ => none) (leaseDropped, fun _ => none) :=
  PoolRun.left (t := 0) (p := releaseOperationLease sampleLease) rfl (.releaseOperationLease sampleLease)
    (by decide +kernel)

theorem left_timerDecides : PoolRun RegistryEntry (Pool.idle .new)
    (timerDecides.2, Function.update (fun _ => none) 1 (some timerDecides.1)) := by
  have timer : PoolRun RegistryEntry (leaseDropped, fun _ => none)
      (leaseDropped, Function.update (fun _ => none) 1 (some sampleTimer)) :=
    .single (.start rfl (.idleTimer "/p" 1 0 _))
  have reads : PoolRun RegistryEntry (leaseDropped, Function.update (fun _ => none) 1 (some sampleTimer))
      (timerDecides.2, Function.update (fun _ => none) 1 (some timerDecides.1)) :=
    PoolRun.partway 16 (by decide +kernel)
  exact ((left_oneSession.trans left_leaseDropped).trans timer).trans reads

/-- In time, the timer stops the session. -/
theorem stops_safely_timer : ((timerDecides.1.partway 1 timerDecides.2).2.session 0).state = .stopping ∧
    StopsSafely timerDecides.2 (timerDecides.1.partway 1 timerDecides.2).2 :=
  ⟨by decide +kernel, stops_safely left_timerDecides (PoolStep.next (by decide +kernel)) (by decide +kernel)
    (by decide +kernel) (by decide +kernel)⟩

/-- The session of `oneSession` is stopped by force, under its lease. -/
def forcedStop : Registry := (shutdownSession 1 "/p" 0 .forced fun _ => .stopped true).left oneSession

def sampleAttach : RegistryTask Unit := (attachClient sampleLease).discard

theorem left_forcedStop : PoolRun RegistryEntry (Pool.idle .new)
    (forcedStop, Function.update (fun _ => none) 0 (some sampleAttach)) := by
  have stops : PoolRun RegistryEntry (oneSession, fun _ => none) (forcedStop, fun _ => none) :=
    PoolRun.left (t := 1) (p := shutdownSession 1 "/p" 0 .forced fun _ => .stopped true) rfl
      (.shutdownSession "/p" 0 .forced _ (by decide +kernel)) (by decide +kernel)
  have attach : PoolRun RegistryEntry (forcedStop, fun _ => none)
      (forcedStop, Function.update (fun _ => none) 0 (some sampleAttach)) :=
    .single (.start rfl (.attachClient sampleLease))
  exact (left_oneSession.trans stops).trans attach

/-- A session is stopped for idleness although it has a request; and a client gets a lease on a session
that is stopped. -/
theorem stops_too_late :
    (¬ ∀ c c', PoolRun RegistryEntry (Pool.idle .new) c → PoolStep RegistryEntry c c' →
      c'.1.attachedForced = false → c'.1.misreported = false → StopsSafely c.1 c'.1) ∧
    ¬ ∀ c c', PoolRun RegistryEntry (Pool.idle .new) c → PoolStep RegistryEntry c c' →
      c'.1.late = false → c'.1.misreported = false → StopsSafely c.1 c'.1 := by
  constructor
  · intro always
    have accepts : PoolRun RegistryEntry (timerDecides.2, Function.update (fun _ => none) 1 (some timerDecides.1))
        (acceptedLate, Function.update (fun _ => none) 1 (some timerDecides.1)) :=
      PoolRun.left (t := 2) (p := onLaunchAccepted 0 "launch-1") rfl (.launchAccepted 0 "launch-1" (by decide +kernel))
        (by decide +kernel)
    have safe := always _ _ (left_timerDecides.trans accepts) (PoolStep.next (by decide +kernel))
      (by decide +kernel) (by decide +kernel)
    have stopped : (stoppedLate.2.session 0).state ≠ .ready ∧
        (stoppedLate.2.session 0).stopCause = some (.idle 1) := by decide +kernel
    have idle := (safe.stops 0 (.idle 1) (by decide +kernel) stopped.1 stopped.2 (by decide)).2.2.1
    exact idle (0, "launch-1") (by decide +kernel) rfl
  · intro always
    have safe := always _ _ left_forcedStop (PoolStep.next (by decide +kernel)) (by decide +kernel) (by decide +kernel)
    have ready := (safe.attaches 0 (by decide +kernel)).1
    exact absurd ready (by decide +kernel)

/-- A dead supervisor does not keep its session from being quiet, and no operation begins on it. -/
structure BuriesDead (s s' : Registry) : Prop where
  quiet : ∀ sid, (s'.session sid).published = true → (s'.session sid).fatal = true →
    (∀ lease, lease ∈ s'.leases → lease.session ≠ sid) → sid ∉ s'.clients → (s'.session sid).Quiet
  hands : ∀ lease, s.leases.count lease < s'.leases.count lease → (s'.session lease.session).fatal = false

/-- So it is as long as no protocol is fatal while a request is active or accepted, nor while an
operation that fits begins. -/
theorem buries_dead (run : PoolRun RegistryEntry (Pool.idle .new) c) (step : PoolStep RegistryEntry c c')
    (none : c'.1.stranded = false) (unmet : c'.1.metFatal = false) : BuriesDead c.1 c'.1 := by
  obtain ⟨lawful, inv⟩ := lawful_of_step run step
  refine ⟨?_, ?_⟩
  · intro sid published fatal leases clients
    have noLeases : c'.1.leasesOn sid = 0 := by
      refine List.countP_eq_zero.mpr fun lease there => ?_
      rw [decide_eq_true_eq]
      exact leases lease there
    have operations := inv.operations sid
    rw [noLeases, published] at operations
    refine ⟨operations, (inv.attached sid).trans (List.count_eq_zero.mpr clients), ?_⟩
    refine (inv.stranded sid fatal).resolve_right fun stranded => ?_
    rw [none] at stranded
    cases stranded
  · intro lease more
    rw [Bool.eq_false_iff]
    intro fatal
    have met := (lawful.hands lease more).2.2 fatal
    rw [unmet] at met
    cases met

/-! ### A supervisor that died -/

/-- Its launch was accepted, and then the supervisor of `oneSession` died. -/
def deadOnce : Registry := (setFatal 0).left ((launch sampleLease "launch-1" (.ok ())).left oneSession)

def deadAlone : Registry := (releaseOperationLease sampleLease).left deadOnce

def sampleBegins : RegistryTask Unit := (beginOperationOpt 0 (some "/p") sampleRequest [sampleAttempt]).discard

/-- An operation has the locks, and has found that it fits. -/
def operationFits : RegistryTask Unit × Registry := sampleBegins.partway 7 deadAlone

theorem left_deadOnce : PoolRun RegistryEntry (Pool.idle .new) (deadOnce, fun _ => none) := by
  have launches : PoolRun RegistryEntry (oneSession, fun _ => none)
      ((launch sampleLease "launch-1" (.ok ())).left oneSession, fun _ => none) :=
    PoolRun.left (t := 0) rfl (.launch sampleLease "launch-1" (.ok ())) (by decide +kernel)
  have dies : PoolRun RegistryEntry ((launch sampleLease "launch-1" (.ok ())).left oneSession, fun _ => none)
      (deadOnce, fun _ => none) :=
    PoolRun.left (t := 1) (p := setFatal 0) rfl (.setFatal 0 (by decide +kernel)) (by decide +kernel)
  exact (left_oneSession.trans launches).trans dies

/-- The request of a dead supervisor stays counted when the last lease is dropped, and an operation
begins on its session. -/
theorem strands_the_dead : (¬ ∀ c c', PoolRun RegistryEntry (Pool.idle .new) c → PoolStep RegistryEntry c c' →
      ∀ sid, (c'.1.session sid).published = true → (c'.1.session sid).fatal = true →
        (∀ lease, lease ∈ c'.1.leases → lease.session ≠ sid) → sid ∉ c'.1.clients → (c'.1.session sid).Quiet) ∧
    ¬ ∀ c c', PoolRun RegistryEntry (Pool.idle .new) c → PoolStep RegistryEntry c c' →
      ∀ lease, c.1.leases.count lease < c'.1.leases.count lease → (c'.1.session lease.session).fatal = false := by
  refine ⟨fun always => ?_, fun always => ?_⟩
  · have start : PoolRun RegistryEntry (deadOnce, fun _ => none)
        (deadOnce, Function.update (fun _ => none) 0 (some (releaseOperationLease sampleLease))) :=
      .single (.start rfl (.releaseOperationLease sampleLease))
    have quiet := always _ _ (left_deadOnce.trans start) (PoolStep.next (by decide +kernel)) 0
      (by decide +kernel) (by decide +kernel) (by decide +kernel) (by decide +kernel)
    exact absurd quiet.2.2 (by decide +kernel)
  · have drops : PoolRun RegistryEntry (deadOnce, fun _ => none) (deadAlone, fun _ => none) :=
      PoolRun.left (t := 0) (p := releaseOperationLease sampleLease) rfl (.releaseOperationLease sampleLease)
        (by decide +kernel)
    have start : PoolRun RegistryEntry (deadAlone, fun _ => none)
        (deadAlone, Function.update (fun _ => none) 0 (some sampleBegins)) :=
      .single (.start rfl (.beginOperation (some "/p") sampleRequest [sampleAttempt]))
    have fits : PoolRun RegistryEntry (deadAlone, Function.update (fun _ => none) 0 (some sampleBegins))
        (operationFits.2, Function.update (fun _ => none) 0 (some operationFits.1)) :=
      PoolRun.partway 7 (by decide +kernel)
    have run := ((left_deadOnce.trans drops).trans start).trans fits
    have alive := always _ _ run (PoolStep.next (by decide +kernel)) sampleLease (by decide +kernel)
    exact absurd alive (by decide +kernel)

/-- A supervisor that dies without a request leaves a session that is quiet. -/
theorem buries_dead_idle : ((releaseOperationLease sampleLease).partway 1 ((setFatal 0).left oneSession)).2.session 0 =
      { (oneSession.session 0) with operationLeases := 0, fatal := true } ∧
    BuriesDead ((setFatal 0).left oneSession)
      ((releaseOperationLease sampleLease).partway 1 ((setFatal 0).left oneSession)).2 := by
  have dies : PoolRun RegistryEntry (oneSession, fun _ => none) ((setFatal 0).left oneSession, fun _ => none) :=
    PoolRun.left (t := 1) (p := setFatal 0) rfl (.setFatal 0 (by decide +kernel)) (by decide +kernel)
  have start : PoolRun RegistryEntry ((setFatal 0).left oneSession, fun _ => none)
      ((setFatal 0).left oneSession, Function.update (fun _ => none) 0 (some (releaseOperationLease sampleLease))) :=
    .single (.start rfl (.releaseOperationLease sampleLease))
  have run := (left_oneSession.trans dies).trans start
  exact ⟨by decide +kernel, buries_dead run (PoolStep.next (by decide +kernel)) (by decide +kernel) (by decide +kernel)⟩

end Runs

end RoLauncher.Runners
