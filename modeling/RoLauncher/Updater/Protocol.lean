import RoLauncher.Updater.Lease

/-!
# One operation at a time

The operation that holds the gate is alone with the session, so its sections
are followed one by one from the session it found (`inSection_safe`). At its
end the session is `Settled` again: a candidate waits in the slot exactly
when an installation may go on. What was installed is read off the history.
-/

namespace RoLauncher.Updater

open RoLauncher.Threads

/-! ## The law of the history -/

/-- What the last completed check found. -/
def lastCheck : List UpdateEvent → Option ReleaseSummary
  | [] => none
  | .checked found :: _ => found
  | _ :: rest => lastCheck rest

/-- The installer was called with the candidate. -/
def Attempted (candidate : Update) (history : List UpdateEvent) : Prop :=
  ∃ bytes, UpdateEvent.installed candidate bytes ∈ history

/-- Each installation is of the release announced by the last completed check, the first one of its
candidate, and right after its download, with no client before it nor after it. -/
def Lawful : List UpdateEvent → Prop
  | [] => True
  | .installed candidate bytes :: rest =>
    (∃ earlier, rest = .census (.ok 0) :: .downloaded candidate bytes :: .census (.ok 0) :: earlier ∧
      lastCheck earlier = some candidate.release ∧ ¬ Attempted candidate earlier) ∧ Lawful rest
  | _ :: rest => Lawful rest

section History

variable {candidate other : Update} {history : List UpdateEvent} {bytes : List UInt8}
  {found : Option ReleaseSummary} {active : Except String Nat}

@[simp] theorem lawful_checked : Lawful (.checked found :: history) ↔ Lawful history := .rfl

@[simp] theorem lawful_census : Lawful (.census active :: history) ↔ Lawful history := .rfl

@[simp] theorem lawful_downloaded :
    Lawful (.downloaded other bytes :: history) ↔ Lawful history := .rfl

@[simp] theorem attempted_nil : ¬ Attempted candidate [] := by
  rintro ⟨_, ⟨⟩⟩

@[simp] theorem attempted_checked :
    Attempted candidate (.checked found :: history) ↔ Attempted candidate history := by
  simp [Attempted]

@[simp] theorem attempted_census :
    Attempted candidate (.census active :: history) ↔ Attempted candidate history := by
  simp [Attempted]

@[simp] theorem attempted_downloaded :
    Attempted candidate (.downloaded other bytes :: history) ↔ Attempted candidate history := by
  simp [Attempted]

@[simp] theorem attempted_installed :
    Attempted candidate (.installed other bytes :: history) ↔
      candidate = other ∨ Attempted candidate history := by
  simp [Attempted, exists_or]

end History

/-! ## The invariant -/

/-- What holds of the session in every state. -/
structure SessionInv (s : Session) : Prop where
  lawful : Lawful s.history
  old : ∀ candidate, Attempted candidate s.history → candidate.serial < s.found

/-- A candidate that the last completed check announced, and that nobody has installed. -/
structure Announced (candidate : Update) (s : Session) : Prop where
  last : lastCheck s.history = some candidate.release
  fresh : ¬ Attempted candidate s.history
  old : candidate.serial < s.found

/-- What holds of the session between two operations. -/
structure Settled (s : Session) : Prop where
  paired : s.slot.isSome = s.offers
  announced : ∀ candidate, s.slot = some candidate → Announced candidate s

/-- A session that is ready to restart stays so. -/
def Forward (s s' : Session) : Prop := s.readyToRestart = true → s'.phase = s.phase

structure LeaseInv (s : UpdateLease) : Prop where
  session : SessionInv s.session
  gate : s.op = false ∧ s.running = [] ∧ Settled s.session ∨
    s.op = true ∧ ∃ caller, s.running = [caller]

/-- An operation counts on the session while it holds the gate. -/
def LeaseRely (caller : Nat) (s s' : UpdateLease) : Prop :=
  (caller ∈ s.running → caller ∈ s'.running ∧ s'.session = s.session) ∧
    Forward s.session s'.session

def LeaseGuar (caller : Nat) (s s' : UpdateLease) : Prop :=
  (∀ other, other ≠ caller → other ∈ s.running → other ∈ s'.running ∧ s'.session = s.session) ∧
    Forward s.session s'.session

theorem forward_refl (s : Session) : Forward s s := fun _ => rfl

theorem forward_trans {s s' s'' : Session} (h : Forward s s') (h' : Forward s' s'') :
    Forward s s'' := by
  intro ready
  have same := h ready
  have ready' : s'.readyToRestart = true := by rwa [Session.readyToRestart, same]
  exact (h' ready').trans same

theorem forward_of_working {s s' : Session} (working : s.readyToRestart = false) :
    Forward s s' := fun ready => by rw [working] at ready; cases ready

def leaseDiscipline : Discipline Nat UpdateLease where
  inv := LeaseInv
  rely := LeaseRely
  guar := LeaseGuar
  refl _ s := ⟨fun mine => ⟨mine, rfl⟩, forward_refl s.session⟩
  trans _ s s' s'' h h' := ⟨fun mine => by
    obtain ⟨mine, same⟩ := h.1 mine
    obtain ⟨mine, same'⟩ := h'.1 mine
    exact ⟨mine, same'.trans same⟩, forward_trans h.2 h'.2⟩
  others _ u _ _ ne h := ⟨h.1 u ne.symm, h.2⟩

/-- The caller's operation holds the gate, and has left the session so. -/
def Owns (caller : Nat) (session : Session) (s : UpdateLease) : Prop :=
  caller ∈ s.running ∧ s.session = session

abbrev SafeTask {α : Type} (caller : Nat) (p : LeaseTask α)
    (Q : Except Empty α → UpdateLease → Prop) (s : UpdateLease) : Prop :=
  leaseDiscipline.Safe caller p Q s

section Rules

variable {caller : Nat} {s : UpdateLease} {session : Session} {α : Type}

theorem owns_stable : Task.Stable (LeaseRely caller) (Owns caller session) := by
  rintro s t ⟨mine, here⟩ ⟨kept, -⟩
  obtain ⟨mine, same⟩ := kept mine
  exact ⟨mine, same.trans here⟩

/-- Nobody else has been admitted. -/
theorem LeaseInv.alone (inv : LeaseInv s) (mine : caller ∈ s.running) :
    s.op = true ∧ s.running = [caller] := by
  obtain ⟨-, none, -⟩ | ⟨held, other, only⟩ := inv.gate
  · rw [none] at mine
    cases mine
  · rw [only, List.mem_singleton] at mine
    exact ⟨held, by rw [only, mine]⟩

/-- **One section** of the operation that holds the gate. -/
theorem inSection_safe {f : Session → Session} {k : Session → LeaseTask α}
    {Q : Except Empty α → UpdateLease → Prop} (owns : Owns caller session s)
    (moved : SessionInv session → SessionInv (f session) ∧ Forward session (f session))
    (rest : SessionInv session → ∀ t, Owns caller (f session) t → SafeTask caller (k session) Q t) :
    SafeTask caller (inSection f >>= k) Q s := by
  refine Task.safe_step (P := Owns caller session) owns_stable owns fun t owns inv _ => ?_
  obtain ⟨mine, rfl⟩ := owns
  obtain ⟨held, only⟩ := inv.alone mine
  obtain ⟨inv', forward⟩ := moved inv.session
  refine ⟨⟨⟨fun other ne running => ?_, forward⟩, inv', .inr ⟨held, caller, only⟩⟩,
    rest inv.session _ ⟨mine, rfl⟩⟩
  rw [only, List.mem_singleton] at running
  exact absurd running ne

end Rules

/-! ## The sections -/

section Sections

variable {s : Session}

@[simp] theorem setPhase_slot (phase : UpdatePhase) : (s.setPhase phase).slot = s.slot := rfl
@[simp] theorem setPhase_phase (phase : UpdatePhase) : (s.setPhase phase).phase = phase := rfl
@[simp] theorem setPhase_history (phase : UpdatePhase) :
    (s.setPhase phase).history = s.history := rfl
@[simp] theorem clearPending_slot : s.clearPending.slot = none := rfl
@[simp] theorem clearPending_phase : s.clearPending.phase = s.phase := rfl
@[simp] theorem clearPending_history : s.clearPending.history = s.history := rfl
@[simp] theorem record_slot (event : UpdateEvent) : (s.record event).slot = s.slot := rfl
@[simp] theorem record_phase (event : UpdateEvent) : (s.record event).phase = s.phase := rfl
@[simp] theorem record_history (event : UpdateEvent) :
    (s.record event).history = event :: s.history := rfl

theorem working_of_phase {phase : UpdatePhase} (same : s.phase = phase)
    (working : ∀ version, phase ≠ .readyToRestart version) : s.readyToRestart = false := by
  subst same
  unfold Session.readyToRestart
  split
  next version found => exact absurd found (working version)
  next => rfl

theorem SessionInv.setPhase (h : SessionInv s) (phase : UpdatePhase) :
    SessionInv (s.setPhase phase) := ⟨h.lawful, h.old⟩

theorem SessionInv.clearPending (h : SessionInv s) : SessionInv s.clearPending := ⟨h.lawful, h.old⟩

theorem SessionInv.checked (h : SessionInv s) (found : Option ReleaseSummary) :
    SessionInv (s.record (.checked found)) :=
  ⟨h.lawful, fun candidate tried => h.old candidate (attempted_checked.mp tried)⟩

theorem SessionInv.census (h : SessionInv s) (active : Except String Nat) :
    SessionInv (s.record (.census active)) :=
  ⟨h.lawful, fun candidate tried => h.old candidate (attempted_census.mp tried)⟩

theorem SessionInv.downloaded (h : SessionInv s) (candidate : Update) (bytes : List UInt8) :
    SessionInv (s.record (.downloaded candidate bytes)) :=
  ⟨h.lawful, fun other tried => h.old other (attempted_downloaded.mp tried)⟩

/-- A session with an empty slot is settled when no installation may go on from it. -/
theorem settled_of_none (empty : s.slot = none) (closed : s.offers = false) : Settled s :=
  ⟨by rw [empty, closed]; rfl, fun candidate found => by rw [empty] at found; cases found⟩

theorem Announced.congr {candidate : Update} {s' : Session} (h : Announced candidate s)
    (history : s'.history = s.history) (found : s'.found = s.found) : Announced candidate s' :=
  ⟨history ▸ h.last, history ▸ h.fresh, found ▸ h.old⟩

end Sections

/-! ## The operations -/

section Operations

variable {caller : Nat} {s : UpdateLease} {session : Session}

/-- The operation has come to its end, and holds the gate still. -/
def Finished (caller : Nat) (r : Except Empty UpdateSnapshot) (s : UpdateLease) : Prop :=
  ∃ snapshot session, r = .ok snapshot ∧ Owns caller session s ∧ Settled session

theorem ret_safe (snapshot : UpdateSnapshot) (owns : Owns caller session s)
    (settled : Settled session) : SafeTask caller (.ret snapshot) (Finished caller) s :=
  Task.safe_ret owns_stable owns fun _ owns => ⟨_, _, rfl, owns, settled⟩

theorem publish_safe {f : Session → Session} (owns : Owns caller session s)
    (moved : SessionInv session → SessionInv (f session) ∧ Forward session (f session))
    (settled : SessionInv session → Settled (f session)) :
    SafeTask caller (publish f) (Finished caller) s :=
  inSection_safe (k := fun before => .ret (f before).snapshot) owns moved fun inv _ owns =>
    ret_safe _ owns (settled inv)

theorem fail_safe {failure : UpdateFailureClass} {message : String}
    (owns : Owns caller session s) (working : session.readyToRestart = false)
    (settled : Settled (session.setPhase (.failed failure message))) :
    SafeTask caller (fail failure message) (Finished caller) s :=
  publish_safe owns (fun inv => ⟨inv.setPhase _, forward_of_working working⟩) fun _ => settled

/-- A failure of the backend leaves nothing in the slot. -/
theorem failWith_safe {error : BackendError} (owns : Owns caller session s)
    (working : session.readyToRestart = false) (empty : session.slot = none) :
    SafeTask caller (failWith error) (Finished caller) s := by
  cases error <;> exact fail_safe owns working (settled_of_none empty rfl)

theorem beginCheck_of_working (packaging : Except UpdateUnavailableReason Unit)
    (working : session.readyToRestart = false) :
    session.beginCheck packaging = match packaging with
      | .ok () => session.clearPending.setPhase .checking
      | .error reason =>
        (session.clearPending.setPhase (.unavailable reason)).record (.checked none) :=
  if_neg (by rw [working]; nofun)

theorem concludeCheck_safe {outcome : Except BackendError CheckOutcome}
    (owns : Owns caller session s) (working : session.readyToRestart = false)
    (found : ∀ release, outcome = .ok (.available release) → ∃ candidate,
      session.slot = some candidate ∧ candidate.release = release ∧
      ¬ Attempted candidate session.history ∧ candidate.serial < session.found) :
    SafeTask caller (publish (Session.concludeCheck outcome)) (Finished caller) s := by
  refine publish_safe owns (fun inv => ⟨?_, forward_of_working working⟩) fun _ => ?_
  · match outcome with
    | .ok .current => exact (inv.clearPending.setPhase _).checked _
    | .ok (.available release) => exact (inv.setPhase _).checked _
    | .error error => exact (inv.clearPending.setPhase _).checked _
  · match outcome with
    | .ok .current => exact settled_of_none rfl rfl
    | .ok (.available release) =>
      obtain ⟨candidate, slot, rfl, fresh, old⟩ := found release rfl
      refine ⟨?_, fun other here => ?_⟩
      · rw [Session.concludeCheck, record_slot, setPhase_slot, slot]
        rfl
      · cases slot.symm.trans here
        exact ⟨rfl, fun tried => fresh (attempted_checked.mp tried), old⟩
    | .error error => cases error <;> exact settled_of_none rfl rfl

theorem checkOwned_safe (packaging : Except UpdateUnavailableReason Unit)
    (answer : Except BackendError (Option ReleaseSummary)) (owns : Owns caller session s)
    (settled : Settled session) :
    SafeTask caller (checkOwned packaging answer) (Finished caller) s := by
  cases ready : session.readyToRestart with
  | true =>
    have same : session.beginCheck packaging = session := if_pos ready
    refine inSection_safe owns (fun inv => ?_) fun _ t owns => ?_
    · rw [same]
      exact ⟨inv, forward_refl _⟩
    · rw [same] at owns
      rw [if_pos ready]
      exact ret_safe _ owns settled
  | false =>
  refine inSection_safe owns (fun inv => ⟨?_, forward_of_working ready⟩) fun inv t owns => ?_
  · rw [beginCheck_of_working packaging ready]
    match packaging with
    | .ok () => exact inv.clearPending.setPhase _
    | .error reason => exact (inv.clearPending.setPhase _).checked _
  rw [if_neg (by rw [ready]; nofun)]
  rw [beginCheck_of_working packaging ready] at owns
  match packaging with
  | .error reason => exact ret_safe _ owns (settled_of_none rfl rfl)
  | .ok () =>
  refine inSection_safe owns (fun inv => ⟨?_, forward_of_working rfl⟩) fun inv t owns => ?_
  · match answer with
    | .error _ => exact inv
    | .ok none => exact inv.clearPending
    | .ok (some release) =>
      exact ⟨inv.lawful, fun candidate tried => Nat.lt_succ_of_lt (inv.old candidate tried)⟩
  · match answer with
    | .error _ => exact concludeCheck_safe owns rfl nofun
    | .ok none => exact concludeCheck_safe owns rfl nofun
    | .ok (some release) =>
      refine concludeCheck_safe owns rfl fun _ here => ?_
      cases here
      exact ⟨_, rfl, rfl, fun tried => absurd (inv.old _ tried) (Nat.lt_irrefl _), Nat.lt_succ_self _⟩

/-- While a candidate is out of the slot, the session differs only in its progress. -/
structure Fetching (candidate : Update) (history : List UpdateEvent) (s : Session) : Prop where
  working : s.readyToRestart = false
  empty : s.slot = none
  old : candidate.serial < s.found
  history : s.history = history

theorem Fetching.setPhase {candidate : Update} {history : List UpdateEvent}
    (h : Fetching candidate history session) {phase : UpdatePhase}
    (working : ∀ version, phase ≠ .readyToRestart version) :
    Fetching candidate history (session.setPhase phase) :=
  ⟨working_of_phase rfl working, h.empty, h.old, h.history⟩

/-- The progress of a download changes the phase only. -/
theorem onChunks_safe {candidate : Update} {history : List UpdateEvent} (release : ReleaseSummary)
    (chunks : List Chunk) (downloaded lastEmit : Nat) (owns : Owns caller session s)
    (fetching : Fetching candidate history session) :
    SafeTask caller (onChunks release chunks downloaded lastEmit)
      (fun r t => r = .ok () ∧ ∃ session, Owns caller session t ∧ Fetching candidate history session)
      s := by
  induction chunks generalizing s session downloaded lastEmit with
  | nil => exact Task.safe_ret owns_stable owns fun _ owns => ⟨rfl, _, owns, fetching⟩
  | cons chunk rest ih =>
    rw [onChunks]
    dsimp only
    split
    next =>
      split
      next =>
        exact inSection_safe owns
          (fun inv => ⟨inv.setPhase _, forward_of_working fetching.working⟩)
          fun _ _ owns => ih _ _ owns (fetching.setPhase nofun)
      next => exact ih _ _ owns fetching
    next => exact ih _ _ owns fetching

/-- The candidate goes back to the slot it came from. -/
theorem returnToSlot_safe {candidate : Update} (owns : Owns caller session s)
    (working : session.readyToRestart = false) (empty : session.slot = none)
    (announced : Announced candidate session) :
    SafeTask caller (publish (Session.returnToSlot candidate)) (Finished caller) s := by
  have returned : session.returnToSlot candidate = { session with
      slot := some candidate
      phase := .failed .clientsActive "Cierra los clientes del juego antes de instalar" } := by
    rw [Session.returnToSlot, empty]
  refine publish_safe owns (fun inv => ⟨?_, forward_of_working working⟩) fun _ => ?_
  · rw [returned]
    exact ⟨inv.lawful, inv.old⟩
  · rw [returned]
    refine ⟨rfl, fun other here => ?_⟩
    cases here
    exact announced.congr rfl rfl

theorem installCandidate_safe (script : InstallScript) {candidate : Update}
    {earlier : List UpdateEvent} (owns : Owns caller session s)
    (fetching : Fetching candidate (.census (.ok 0) :: earlier) session)
    (last : lastCheck earlier = some candidate.release) (fresh : ¬ Attempted candidate earlier) :
    SafeTask caller (installCandidate script candidate) (Finished caller) s := by
  refine inSection_safe owns
    (fun inv => ⟨inv.setPhase _, forward_of_working fetching.working⟩) fun _ t owns => ?_
  refine Task.Safe.bind (leaseDiscipline.refl caller)
    ((onChunks_safe _ _ _ _ owns (fetching.setPhase nofun)).post ?_)
  rintro _ u ⟨rfl, session, owns, fetching⟩
  dsimp only
  cases script.download with
  | error error => exact failWith_safe owns fetching.working fetching.empty
  | ok bytes =>
  refine inSection_safe owns
    (fun inv => ⟨inv.downloaded _ _, forward_of_working fetching.working⟩) fun _ t owns => ?_
  refine inSection_safe owns
    (fun inv => ⟨inv.census _, forward_of_working fetching.working⟩) fun _ t owns => ?_
  cases after : script.after with
  | error message =>
    exact fail_safe owns fetching.working (settled_of_none fetching.empty rfl)
  | ok active =>
  dsimp only
  split
  next =>
    refine returnToSlot_safe owns fetching.working fetching.empty ⟨?_, ?_, fetching.old⟩
    · rw [record_history, record_history, fetching.history]
      exact last
    · rw [record_history, record_history, fetching.history]
      simpa using fresh
  next none =>
    obtain rfl : active = 0 := by omega
    refine inSection_safe owns
      (fun inv => ⟨⟨⟨?_, inv.lawful⟩, ?_⟩, forward_of_working fetching.working⟩) fun _ t owns => ?_
    · rw [record_history, record_history, fetching.history, after]
      exact ⟨earlier, rfl, last, fresh⟩
    · intro other tried
      obtain rfl | tried := attempted_installed.mp tried
      · exact fetching.old
      · exact inv.old other tried
    cases script.install with
    | error error => exact failWith_safe owns fetching.working fetching.empty
    | ok _ =>
      exact publish_safe owns (fun inv => ⟨inv.clearPending.setPhase _,
        forward_of_working fetching.working⟩) fun _ => settled_of_none rfl rfl

theorem installOwned_safe (script : InstallScript) (owns : Owns caller session s)
    (settled : Settled session) :
    SafeTask caller (installOwned script) (Finished caller) s := by
  cases ready : session.readyToRestart with
  | true =>
    have same : session.beginInstall = session := by
      rw [Session.beginInstall, ready]
      rfl
    refine inSection_safe owns (fun inv => ?_) fun _ t owns => ?_
    · rw [same]
      exact ⟨inv, forward_refl _⟩
    · rw [same] at owns
      rw [if_pos ready]
      exact ret_safe _ owns settled
  | false =>
  cases offers : session.offers with
  | false =>
    have closed : session.beginInstall = session.clearPending.setPhase
        (.failed .noPending "No hay una actualización comprobada para instalar") := by
      rw [Session.beginInstall, ready, offers]
      rfl
    refine inSection_safe owns (fun inv => ⟨?_, forward_of_working ready⟩) fun _ t owns => ?_
    · rw [closed]
      exact inv.clearPending.setPhase _
    · rw [closed] at owns
      rw [if_neg (by rw [ready]; nofun), if_pos (by rw [offers]; rfl)]
      exact ret_safe _ owns (settled_of_none rfl rfl)
  | true =>
  have same : session.beginInstall = session := by
    rw [Session.beginInstall, ready, offers]
    rfl
  refine inSection_safe owns (fun inv => ?_) fun _ t owns => ?_
  · rw [same]
    exact ⟨inv, forward_refl _⟩
  rw [same] at owns
  rw [if_neg (by rw [ready]; nofun), if_neg (by rw [offers]; nofun)]
  refine inSection_safe owns (fun inv => ⟨inv.census _, forward_of_working ready⟩) fun _ t owns => ?_
  cases before : script.before with
  | error message =>
    exact inSection_safe owns (fun inv => ⟨inv.clearPending, forward_of_working ready⟩)
      fun _ t owns => fail_safe owns ready (settled_of_none rfl rfl)
  | ok active =>
  dsimp only
  split
  next =>
    refine fail_safe owns ready ⟨settled.paired.trans offers, fun candidate here => ?_⟩
    have announced := settled.announced candidate here
    exact ⟨announced.last, fun tried => announced.fresh (attempted_census.mp tried), announced.old⟩
  next none =>
    obtain rfl : active = 0 := by omega
    refine inSection_safe owns (fun inv => ⟨inv.clearPending, forward_of_working ready⟩)
      fun _ t owns => ?_
    rw [record_slot]
    cases slot : session.slot with
    | none => exact failWith_safe owns ready rfl
    | some candidate =>
      obtain ⟨last, fresh, old⟩ := settled.announced candidate slot
      exact installCandidate_safe script owns
        ⟨ready, rfl, old, by rw [clearPending_history, record_history, before]⟩ last fresh

end Operations

/-! ## Callers -/

section Callers

variable {caller : Nat} {s : UpdateLease}

/-- A step that leaves the gate and the session alone. -/
theorem modify_safe {f : UpdateLease → UpdateLease}
    (same : ∀ s, (f s).session = s.session ∧ (f s).op = s.op ∧ (f s).running = s.running) :
    SafeTask caller (Task.modify f) (fun _ _ => True) s := by
  refine Task.safe_step (P := fun _ => True) (fun _ _ _ _ => trivial) trivial fun t _ inv _ => ?_
  obtain ⟨session, op, running⟩ := same t
  refine ⟨⟨⟨fun other _ mine => ⟨by rwa [running], session⟩, ?_⟩, ?_, ?_⟩, fun _ _ => trivial⟩
  · rw [session]
    exact forward_refl _
  · rw [session]
    exact inv.session
  · rw [op, running, session]
    exact inv.gate

theorem read_safe {α : Type} (f : UpdateLease → α) :
    SafeTask caller (Task.read f) (fun _ _ => True) s :=
  Task.safe_step (P := fun _ => True) (fun _ _ _ _ => trivial) trivial fun _ _ inv _ =>
    ⟨⟨⟨fun _ _ mine => ⟨mine, rfl⟩, forward_refl _⟩, inv⟩, fun _ _ => trivial⟩

theorem answer_safe (snapshot : UpdateSnapshot) :
    SafeTask caller (Task.modify (UpdateLease.answer caller snapshot)) (fun _ _ => True) s := by
  refine modify_safe fun t => ?_
  unfold UpdateLease.answer
  split <;> exact ⟨rfl, rfl, rfl⟩

/-- What `try_lock_owned` found: the caller that took the gate finds the session settled. -/
def Admitted (caller : Nat) (held : Bool) (s : UpdateLease) : Prop :=
  held = false → ∃ session, Owns caller session s ∧ Settled session

theorem tryLock_safe :
    SafeTask caller (Task.fetch (fun s => s.op) (UpdateLease.tryLock caller))
      (fun r t => ∃ held, r = .ok held ∧ Admitted caller held t) s := by
  refine Task.safe_fetch (P := fun _ => True) (fun _ _ _ _ => trivial) (fun held t u h moved free => ?_)
    trivial fun t _ inv _ => ?_
  · obtain ⟨session, owns, settled⟩ := h free
    exact ⟨session, owns_stable _ _ owns moved, settled⟩
  cases held : t.op with
  | true =>
    have locked : t.tryLock caller = { t with
        waiters := Function.update t.waiters caller (some .waiting) } := if_pos held
    rw [locked]
    exact ⟨⟨⟨fun other _ mine => ⟨mine, rfl⟩, forward_refl _⟩, inv.session, inv.gate⟩, nofun⟩
  | false =>
    have free : t.running = [] ∧ Settled t.session := by
      obtain ⟨-, free⟩ | ⟨busy, -⟩ := inv.gate
      · exact free
      · rw [held] at busy
        cases busy
    have locked : t.tryLock caller = { t with
        op := true
        running := [caller]
        waiters := Function.update t.waiters caller (some .waiting) } := by
      rw [UpdateLease.tryLock, held, free.1]
      rfl
    rw [locked]
    refine ⟨⟨⟨fun other _ mine => ?_, forward_refl _⟩, inv.session, .inr ⟨rfl, caller, rfl⟩⟩,
      fun _ => ⟨t.session, ⟨List.mem_singleton_self _, rfl⟩, free.2⟩⟩
    rw [free.1] at mine
    cases mine

/-- The guard is dropped where the session is settled. -/
theorem release_safe {session : Session} (owns : Owns caller session s) (settled : Settled session) :
    SafeTask caller (Task.modify (UpdateLease.release caller)) (fun _ _ => True) s := by
  refine Task.safe_step (P := Owns caller session) owns_stable owns fun t owns inv _ => ?_
  obtain ⟨mine, rfl⟩ := owns
  obtain ⟨-, only⟩ := inv.alone mine
  refine ⟨⟨⟨fun other ne mine => ?_, forward_refl _⟩, inv.session, .inl ⟨rfl, ?_, settled⟩⟩,
    fun _ _ => trivial⟩
  · rw [only, List.mem_singleton] at mine
    exact absurd mine ne
  · rw [UpdateLease.release, only, List.erase_cons_head]

/-- An operation finds the session settled, and has to leave it so. -/
theorem runOwned_safe {body : LeaseTask UpdateSnapshot}
    (safe : ∀ session t, Owns caller session t → Settled session →
      SafeTask caller body (Finished caller) t) :
    SafeTask caller (runOwned caller body) (fun _ _ => True) s := by
  have refl := leaseDiscipline.refl caller
  refine Task.Safe.andThen refl tryLock_safe fun held t admitted => ?_
  cases held with
  | true =>
    refine Task.Safe.bind refl ((read_safe _).post ?_)
    rintro (⟨⟨⟩⟩ | snapshot) u -
    exact answer_safe snapshot
  | false =>
    obtain ⟨session, owns, settled⟩ := admitted rfl
    refine Task.Safe.bind refl ((safe session t owns settled).post ?_)
    rintro _ u ⟨snapshot, session, rfl, owns, settled⟩
    refine Task.Safe.bind refl ((release_safe owns settled).post ?_)
    rintro (⟨⟨⟩⟩ | _) v -
    exact answer_safe snapshot

theorem UpdaterEntry.safe {p : LeaseTask Unit} (entry : UpdaterEntry caller s p) :
    SafeTask caller p (fun _ _ => True) s := by
  obtain ⟨call, rfl⟩ := entry
  cases call with
  | check packaging answer =>
    exact runOwned_safe fun _ _ owns settled => checkOwned_safe packaging answer owns settled
  | install script =>
    exact runOwned_safe fun _ _ owns settled => installOwned_safe script owns settled
  | snapshot =>
    exact (read_safe _).discard (leaseDiscipline.refl caller)
  | dropWaiter other => exact modify_safe fun _ => ⟨rfl, rfl, rfl⟩

end Callers

theorem new_inv (currentVersion : String) : LeaseInv (UpdateLease.new currentVersion) :=
  ⟨⟨trivial, fun _ tried => absurd tried attempted_nil⟩,
    .inl ⟨rfl, rfl, settled_of_none rfl rfl⟩⟩

/-- **The protocol.** In every state of every run at most one operation runs; while none does, a
candidate waits in the slot exactly when the phase offers it; everything installed was installed by
the law; and a session that is ready to restart stays so. -/
theorem updater_session_protocol (currentVersion : String) (c : Pool Nat UpdateLease Empty)
    (run : PoolRun UpdaterEntry (Pool.idle (UpdateLease.new currentVersion)) c) :
    c.1.running.length ≤ 1 ∧
      (c.1.running = [] → (c.1.session.slot.isSome ↔
        (∃ release, c.1.session.phase = .available release) ∨
          ∃ message, c.1.session.phase = .failed .clientsActive message)) ∧
      Lawful c.1.session.history ∧
      ∀ version, c.1.session.phase = .readyToRestart version → ∀ c', PoolRun UpdaterEntry c c' →
        c'.1.session.phase = .readyToRestart version := by
  have entries : ∀ t s p, LeaseInv s → UpdaterEntry t s p →
      leaseDiscipline.Safe t p (fun _ _ => True) s := fun _ _ _ _ entry => entry.safe
  have start : leaseDiscipline.Kept
      (Pool.idle (UpdateLease.new currentVersion) : Pool Nat UpdateLease Empty) :=
    Discipline.kept_idle (new_inv currentVersion)
  have kept := run.kept entries start
  have inv : LeaseInv c.1 := kept.1
  refine ⟨?_, fun idle => ?_, inv.session.lawful, fun version ready c' later => ?_⟩
  · obtain ⟨-, none, -⟩ | ⟨-, caller, only⟩ := inv.gate
    · rw [none]
      exact Nat.zero_le _
    · rw [only]
      exact Nat.le_refl _
  · obtain ⟨-, -, settled⟩ | ⟨-, caller, only⟩ := inv.gate
    · rw [settled.paired, Session.offers]
      split <;> simp_all
    · rw [idle] at only
      cases only
  · induction later with
    | refl => exact ready
    | tail before step ih =>
      obtain same | ⟨t, guar⟩ := PoolRun.steps entries before kept step
      · rw [same]
        exact ih
      · exact (guar.2 (by rw [Session.readyToRestart, ih])).trans ih

def sampleCheck : UpdaterCall := .check (.ok ()) (.ok (some ⟨"0.2.0", none, none⟩))

def sampleInstall : UpdaterCall :=
  .install ⟨.ok 0, [⟨8, some 8, true⟩], .ok [127, 69], .ok 0, .ok ()⟩

/-- A check finds a release, and the release is installed. -/
theorem updater_session_protocol_sample :
    ∃ c : Pool Nat UpdateLease Empty,
      PoolRun UpdaterEntry (Pool.idle (UpdateLease.new "0.1.0")) c ∧
      c.1.session.phase = .readyToRestart "0.2.0" ∧ c.1.session.slot = none ∧
      Attempted ⟨0, "0.2.0", none, none⟩ c.1.session.history ∧ Lawful c.1.session.history := by
  have checked : PoolRun UpdaterEntry (Pool.idle (UpdateLease.new "0.1.0")) _ :=
    PoolRun.alone (t := 1) rfl ⟨sampleCheck, rfl⟩ (r := .ok ()) rfl
  have installed := checked.trans (PoolRun.alone (t := 2) rfl ⟨sampleInstall, rfl⟩ (r := .ok ()) rfl)
  refine ⟨_, installed, rfl, rfl, ?_, (updater_session_protocol "0.1.0" _ installed).2.2.1⟩
  exact ⟨[127, 69], List.mem_cons_self⟩

end RoLauncher.Updater
