import RoLauncher.Updater.Lease
import RoLauncher.Game.Consistency
import RoLauncher.Installations.Admission

/-!
# The admission of a relaunch (`reserve_relaunch`)

A relaunch closes the admission of clients and then that of installations, each
only while it is idle, and keeps both closed until it exits or is given up.
Each of the two flags has one owner as long as it is set.
-/

namespace RoLauncher.Updater

open RoLauncher.Game (GameProcessHandle Operation)
open RoLauncher.Installations (Act)
open Relation (ReflTransGen)

/-- Where a call of `reserve_relaunch` stands, to the drop of its admission. With each closure
comes the flag that it found. -/
inductive Reservation where
  /-- It is about to look at the updater's phase. -/
  | starting
  /-- The phase was `ReadyToRestart`: the game's admission is next. -/
  | ready
  | gameClosed (game : Bool)
  /-- The installations refused: the game's admission is dropped. -/
  | refused (game : Bool)
  /-- The caller holds the `RelaunchAdmission`. -/
  | held (game installations : Bool)
  /-- Its fields are dropped in their order: the installations' is next. -/
  | reopening (installations : Bool)
  deriving DecidableEq, Repr

def Reservation.closesGame : Reservation → Bool
  | .gameClosed _ | .refused _ | .held .. => true
  | _ => false

def Reservation.closesInstallations : Reservation → Bool
  | .held .. | .reopening _ => true
  | _ => false

/-- The flags that its closures found. -/
def Reservation.found : Reservation → List Bool
  | .starting | .ready => []
  | .gameClosed game | .refused game => [game]
  | .held game installations => [game, installations]
  | .reopening installations => [installations]

structure Launcher where
  phase : UpdatePhase
  game : GameProcessHandle
  installations : Installations.System
  reservations : Nat → Option Reservation

namespace Launcher

def new : Launcher := ⟨.idle, .new, .new, fun _ => none⟩

def readyToRestart (s : Launcher) : Bool :=
  match s.phase with
  | .readyToRestart _ => true
  | _ => false

def setReservation (s : Launcher) (caller : Nat) (reservation : Option Reservation) : Launcher :=
  { s with reservations := Function.update s.reservations caller reservation }

def setInstallations (s : Launcher) (state : Installations.State) : Launcher :=
  { s with installations := { s.installations with state } }

/-- The next section of a reservation. -/
def proceed (caller : Nat) (s : Launcher) : Launcher :=
  match s.reservations caller with
  | none => s
  | some .starting => s.setReservation caller (if s.readyToRestart then some .ready else none)
  | some .ready =>
    match s.game.closeAdmissionIfIdle with
    | (.error _, game) => { s.setReservation caller none with game }
    | (.ok _, game) =>
      { s.setReservation caller (some (.gameClosed s.game.relaunchAdmissionClosed)) with game }
  | some (.gameClosed game) =>
    match s.installations.state.closeAdmissionIfIdle with
    | (.error _, state) => (s.setReservation caller (some (.refused game))).setInstallations state
    | (.ok _, state) =>
      (s.setReservation caller (some
        (.held game s.installations.state.relaunchAdmissionClosed))).setInstallations state
  | some (.refused _) => { s.setReservation caller none with game := s.game.reopenAdmission }
  | some (.held _ installations) =>
    { s.setReservation caller (some (.reopening installations)) with game := s.game.reopenAdmission }
  | some (.reopening _) =>
    (s.setReservation caller none).setInstallations s.installations.state.reopenAdmission

/-- One step of anybody. -/
inductive Step (isUuid : String → Bool) (s : Launcher) : Launcher → Prop
  /-- The updater works. -/
  | updater (phase : UpdatePhase) : Step isUuid s { s with phase }
  | game {operation : Operation} : operation.ofClients = true →
      Step isUuid s { s with game := operation.next s.game }
  | installations {act : Act} : act.ofInstallations = true →
      Step isUuid s { s with installations := s.installations.perform isUuid act }
  | reserveRelaunch {caller : Nat} : s.reservations caller = none →
      Step isUuid s (s.setReservation caller (some .starting))
  /-- The caller goes away while it waits for the updater's phase. -/
  | abandon {caller : Nat} : s.reservations caller = some .starting →
      Step isUuid s (s.setReservation caller none)
  | proceed (caller : Nat) : Step isUuid s (s.proceed caller)

abbrev Run (isUuid : String → Bool) : Launcher → Launcher → Prop := ReflTransGen (Step isUuid)

end Launcher

/-! ## A flag and its owner -/

/-- The flag is set as long as one reservation has closed it. -/
structure Owned (flag : Bool) (closes : Reservation → Bool)
    (reservations : Nat → Option Reservation) : Prop where
  set : flag = true ↔ ∃ caller, (reservations caller).any closes = true
  sole : ∀ caller other, (reservations caller).any closes = true →
    (reservations other).any closes = true → caller = other

section Owned

variable {flag : Bool} {closes : Reservation → Bool} {reservations : Nat → Option Reservation}
  {caller : Nat} {next : Option Reservation}

theorem any_update (other : Nat) :
    (Function.update reservations caller next other).any closes = true ↔
      (other = caller ∧ next.any closes = true) ∨
        (other ≠ caller ∧ (reservations other).any closes = true) := by
  by_cases here : other = caller
  · subst here
    simp
  · simp [here]

/-- The reservation goes on, and closes what it closed. -/
theorem Owned.keep (h : Owned flag closes reservations)
    (same : next.any closes = (reservations caller).any closes) :
    Owned flag closes (Function.update reservations caller next) := by
  have kept (other : Nat) : (Function.update reservations caller next other).any closes =
      (reservations other).any closes := by
    by_cases here : other = caller
    · subst here
      rwa [Function.update_self]
    · rw [Function.update_of_ne here]
  refine ⟨h.set.trans (exists_congr fun other => by rw [kept]), fun mine other => ?_⟩
  rw [kept, kept]
  exact h.sole mine other

/-- A flag that is not set is set. -/
theorem Owned.take (h : Owned false closes reservations) (takes : next.any closes = true) :
    Owned true closes (Function.update reservations caller next) := by
  have free (other : Nat) : ¬ (reservations other).any closes = true := fun owns =>
    Bool.false_ne_true (h.set.mpr ⟨other, owns⟩)
  have mine {other : Nat} (owns : (Function.update reservations caller next other).any closes = true) :
      other = caller := by
    obtain ⟨rfl, -⟩ | ⟨-, theirs⟩ := (any_update other).mp owns
    · rfl
    · exact absurd theirs (free other)
  exact ⟨iff_of_true rfl ⟨caller, (any_update caller).mpr (.inl ⟨rfl, takes⟩)⟩,
    fun _ _ owns owns' => (mine owns).trans (mine owns').symm⟩

/-- Its owner clears it. -/
theorem Owned.release (h : Owned flag closes reservations)
    (owns : (reservations caller).any closes = true) (gone : next.any closes = false) :
    Owned false closes (Function.update reservations caller next) := by
  have free (other : Nat) : ¬ (Function.update reservations caller next other).any closes = true := by
    intro theirs
    obtain ⟨-, mine⟩ | ⟨ne, theirs⟩ := (any_update other).mp theirs
    · rw [gone] at mine
      cases mine
    · exact ne (h.sole other caller theirs owns)
  exact ⟨iff_of_false Bool.false_ne_true fun ⟨other, theirs⟩ => free other theirs,
    fun other _ theirs => absurd theirs (free other)⟩

end Owned

/-! ## The invariant -/

structure Launcher.Inv (s : Launcher) : Prop where
  consistent : s.game.Consistent
  /-- While a relaunch closes the admission of installations, none is active. -/
  quiet : s.installations.state.relaunchAdmissionClosed = true →
    ∀ id, s.installations.state.active.lookup id = none
  game : Owned s.game.relaunchAdmissionClosed Reservation.closesGame s.reservations
  installations : Owned s.installations.state.relaunchAdmissionClosed
    Reservation.closesInstallations s.reservations
  found : ∀ caller reservation, s.reservations caller = some reservation →
    ∀ flag ∈ reservation.found, flag = false

section Runs

variable {isUuid : String → Bool} {s t : Launcher} {caller : Nat}

theorem Launcher.Inv.new : Launcher.new.Inv := by
  have free (closes : Reservation → Bool) : Owned false closes Launcher.new.reservations :=
    ⟨by simp [Launcher.new], fun _ _ owns => by cases owns⟩
  refine ⟨GameProcessHandle.new_consistent, fun _ _ => rfl, free _, free _, fun caller r here => ?_⟩
  cases here

/-- What the next reservation of a caller has found, when the others are as they were. -/
theorem Launcher.Inv.found_update (inv : s.Inv) {next : Option Reservation}
    (found : ∀ reservation, next = some reservation → ∀ flag ∈ reservation.found, flag = false)
    (other : Nat) (reservation : Reservation)
    (here : Function.update s.reservations caller next other = some reservation) :
    ∀ flag ∈ reservation.found, flag = false := by
  by_cases same : other = caller
  · subst same
    rw [Function.update_self] at here
    exact found reservation here
  · rw [Function.update_of_ne same] at here
    exact inv.found other reservation here

/-- A reservation goes on without closing or reopening anything. -/
theorem Launcher.Inv.setReservation (inv : s.Inv) {next : Option Reservation}
    (game : next.any Reservation.closesGame = (s.reservations caller).any Reservation.closesGame)
    (installations : next.any Reservation.closesInstallations =
      (s.reservations caller).any Reservation.closesInstallations)
    (found : ∀ reservation, next = some reservation → ∀ flag ∈ reservation.found, flag = false) :
    (s.setReservation caller next).Inv :=
  ⟨inv.consistent, inv.quiet, inv.game.keep game, inv.installations.keep installations,
    inv.found_update found⟩

theorem closed_consistent {game : GameProcessHandle} (h : game.Consistent) :
    game.closeAdmissionIfIdle.2.Consistent :=
  (GameProcessHandle.next_change .closeAdmissionIfIdle game).consistent h

theorem reopened_consistent {game : GameProcessHandle} (h : game.Consistent) :
    game.reopenAdmission.Consistent :=
  (GameProcessHandle.next_change .reopenAdmission game).consistent h

/-- **One section of a reservation.** -/
theorem Launcher.Inv.proceed (inv : s.Inv) (caller : Nat) : (s.proceed caller).Inv := by
  unfold Launcher.proceed
  split
  next => exact inv
  next here =>
    split
    next => exact inv.setReservation (by rw [here]; rfl) (by rw [here]; rfl) (by simp [Reservation.found])
    next => exact inv.setReservation (by rw [here]; rfl) (by rw [here]; rfl) (by simp)
  next here =>
    have consistent := closed_consistent inv.consistent
    obtain ⟨e, failed⟩ | ⟨opened, idle, done⟩ := s.game.closeAdmissionIfIdle_cases
    · simp only [failed]
      exact inv.setReservation (by rw [here]; rfl) (by rw [here]; rfl) (by simp)
    · rw [done] at consistent
      simp only [done, opened]
      have free := inv.game
      rw [opened] at free
      exact ⟨consistent, inv.quiet, free.take rfl, inv.installations.keep (by rw [here]; rfl),
        inv.found_update (by simp [Reservation.found])⟩
  next game here =>
    have before := inv.found caller _ here
    obtain ⟨e, failed⟩ | ⟨admits, idle, done⟩ :=
      Installations.closeAdmissionIfIdle_cases s.installations.state
    · simp only [failed]
      refine inv.setReservation (by rw [here]; rfl) (by rw [here]; rfl) fun _ next => ?_
      cases next
      exact before
    · have opened : s.installations.state.relaunchAdmissionClosed = false := by
        rw [Installations.State.admits, Bool.not_eq_eq_eq_not, Bool.not_true, Bool.or_eq_false_iff]
          at admits
        exact admits.2
      have free := inv.installations
      rw [opened] at free
      simp only [done, opened]
      refine ⟨inv.consistent, fun _ => idle, inv.game.keep (by rw [here]; rfl), free.take rfl,
        inv.found_update fun _ next => ?_⟩
      cases next
      exact List.forall_mem_cons.mpr ⟨before game List.mem_cons_self, by simp⟩
  next game here =>
    exact ⟨reopened_consistent inv.consistent, inv.quiet, inv.game.release (by rw [here]; rfl) rfl,
      inv.installations.keep (by rw [here]; rfl), inv.found_update (by simp)⟩
  next game installations here =>
    refine ⟨reopened_consistent inv.consistent, inv.quiet, inv.game.release (by rw [here]; rfl) rfl,
      inv.installations.keep (by rw [here]; rfl), inv.found_update fun _ next => ?_⟩
    cases next
    exact (List.forall_mem_cons.mp (inv.found caller _ here)).2
  next installations here =>
    exact ⟨inv.consistent, (fun closed => by cases closed), inv.game.keep (by rw [here]; rfl),
      inv.installations.release (by rw [here]; rfl) rfl, inv.found_update (by simp)⟩

/-- **One step of anybody.** -/
theorem Launcher.Inv.step (inv : s.Inv) (step : Launcher.Step isUuid s t) : t.Inv := by
  cases step with
  | updater phase => exact ⟨inv.consistent, inv.quiet, inv.game, inv.installations, inv.found⟩
  | @game operation own =>
    refine ⟨(GameProcessHandle.next_change operation s.game).consistent inv.consistent, inv.quiet, ?_,
      inv.installations, inv.found⟩
    rw [GameProcessHandle.next_relaunchAdmissionClosed own]
    exact inv.game
  | @installations act own =>
    have admits := @Installations.perform_admits isUuid _ own s.installations
    refine ⟨inv.consistent, fun closed id => ?_, inv.game, ?_, inv.found⟩
    · rw [admits.relaunch] at closed
      by_contra active
      obtain before | opened := admits.active id (Option.isSome_iff_ne_none.mpr active)
      · rw [inv.quiet closed id] at before
        cases before
      · simp [Installations.State.admits, closed] at opened
    · rw [admits.relaunch]
      exact inv.installations
  | reserveRelaunch free =>
    exact inv.setReservation (by rw [free]; rfl) (by rw [free]; rfl) (by simp [Reservation.found])
  | abandon here => exact inv.setReservation (by rw [here]; rfl) (by rw [here]; rfl) (by simp)
  | proceed caller => exact inv.proceed caller

theorem Launcher.Inv.run (inv : s.Inv) (run : Launcher.Run isUuid s t) : t.Inv := by
  induction run with
  | refl => exact inv
  | tail _ step ih => exact ih.step step

/-! ## A shutdown is for good -/

theorem Launcher.Step.closing (step : Launcher.Step isUuid s t)
    (closed : s.installations.state.closing = true) : t.installations.state.closing = true := by
  cases step with
  | installations own => exact (Installations.perform_admits own s.installations).closing closed
  | proceed caller =>
    unfold Launcher.proceed
    split
    next => exact closed
    next => exact closed
    next => split <;> exact closed
    next =>
      obtain ⟨e, failed⟩ | ⟨-, -, done⟩ :=
        Installations.closeAdmissionIfIdle_cases s.installations.state
      · simp only [failed]
        exact closed
      · simp only [done]
        exact closed
    all_goals exact closed
  | _ => exact closed

theorem Launcher.Run.closing (run : Launcher.Run isUuid s t)
    (closed : s.installations.state.closing = true) : t.installations.state.closing = true := by
  induction run with
  | refl => exact closed
  | tail _ step ih => exact step.closing ih

/-! ## The reservation -/

/-- No launch is admitted. -/
def Launcher.RefusesClients (s : Launcher) : Prop :=
  ∀ clientId serverId serverName,
    Operation.refused (.beginLaunch clientId serverId serverName) s.game = true

/-- No installation is created, and no execution admitted. -/
def Launcher.RefusesInstallations (isUuid : String → Bool) (s : Launcher) : Prop :=
  (∀ io id, ∃ e, (s.installations.state.reserve isUuid io id).1 = .error e) ∧
    ∀ io id input runnerKnown installerExists,
      ∃ e, (s.installations.state.create isUuid io id input runnerKnown installerExists).1 = .error e

theorem refusesInstallations (closed : s.installations.state.admits = false) :
    s.RefusesInstallations isUuid :=
  ⟨fun _ id => Installations.reserve_refused closed id,
    fun _ id input runnerKnown installerExists =>
      Installations.create_refused closed id input runnerKnown installerExists⟩

/-- A reservation that ends before its first closure has closed nothing. -/
theorem proceed_refused (early : s.reservations caller = some .starting ∨
    s.reservations caller = some .ready) (gone : (s.proceed caller).reservations caller = none) :
    (s.proceed caller).game = s.game ∧ (s.proceed caller).installations = s.installations := by
  unfold Launcher.proceed at gone ⊢
  obtain here | here := early
  · simp only [here]
    exact ⟨rfl, rfl⟩
  · simp only [here] at gone ⊢
    obtain ⟨e, failed⟩ | ⟨-, -, done⟩ := s.game.closeAdmissionIfIdle_cases
    · simp only [failed, true_and]
      rfl
    · simp only [done, Launcher.setReservation, Function.update_self] at gone
      cases gone

/-- A reservation that the installations refuse has still to reopen the game, and nothing else. -/
theorem proceed_gameClosed {game : Bool} (here : s.reservations caller = some (.gameClosed game))
    (refused : (s.proceed caller).reservations caller = some (.refused game)) :
    (s.proceed caller).game = s.game ∧ (s.proceed caller).installations = s.installations := by
  unfold Launcher.proceed at refused ⊢
  simp only [here] at refused ⊢
  obtain ⟨e, failed⟩ | ⟨-, -, done⟩ :=
    Installations.closeAdmissionIfIdle_cases s.installations.state
  · simp only [failed]
    exact ⟨rfl, rfl⟩
  · simp only [done, Launcher.setReservation, Launcher.setInstallations, Function.update_self]
      at refused
    cases refused

theorem proceed_undo (inv : s.Inv) :
    (∀ game, s.reservations caller = some (.refused game) →
      (s.proceed caller).game = { s.game with relaunchAdmissionClosed := game } ∧
        (s.proceed caller).installations = s.installations) ∧
    (∀ game installations, s.reservations caller = some (.held game installations) →
      (s.proceed caller).game = { s.game with relaunchAdmissionClosed := game } ∧
        (s.proceed caller).installations = s.installations ∧
        (s.proceed caller).reservations caller = some (.reopening installations)) ∧
    (∀ installations, s.reservations caller = some (.reopening installations) →
      (s.proceed caller).game = s.game ∧ (s.proceed caller).installations.state =
        { s.installations.state with relaunchAdmissionClosed := installations }) := by
  refine ⟨fun game here => ?_, fun game installations here => ?_, fun installations here => ?_⟩
  all_goals
    have found := inv.found caller _ here
    unfold Launcher.proceed
    simp only [here]
  · obtain rfl : game = false := found game List.mem_cons_self
    exact ⟨rfl, rfl⟩
  · obtain rfl : game = false := found game List.mem_cons_self
    exact ⟨rfl, rfl, Function.update_self ..⟩
  · obtain rfl : installations = false := found installations List.mem_cons_self
    exact ⟨rfl, rfl⟩

/-- **The admission of a relaunch** is exclusive, and undone as it was found; that of a shutdown is
for good. -/
theorem relaunch_admission (run : Launcher.Run isUuid .new s) :
    (∀ caller game installations, s.reservations caller = some (.held game installations) →
      ((∀ g, s.game.clients.lookup g = none) ∧ s.RefusesClients) ∧
      ((∀ id, s.installations.state.active.lookup id = none) ∧ s.RefusesInstallations isUuid) ∧
      ∀ other reservation, s.reservations other = some reservation → other ≠ caller →
        reservation.closesGame = false ∧ reservation.closesInstallations = false) ∧
    (∀ caller, (s.reservations caller = some .starting ∨ s.reservations caller = some .ready) →
      (s.proceed caller).reservations caller = none →
        (s.proceed caller).game = s.game ∧ (s.proceed caller).installations = s.installations) ∧
    (∀ caller game, s.reservations caller = some (.gameClosed game) →
      (s.proceed caller).reservations caller = some (.refused game) →
        (s.proceed caller).game = s.game ∧ (s.proceed caller).installations = s.installations) ∧
    (∀ caller,
      (∀ game, s.reservations caller = some (.refused game) →
        (s.proceed caller).game = { s.game with relaunchAdmissionClosed := game } ∧
          (s.proceed caller).installations = s.installations) ∧
      (∀ game installations, s.reservations caller = some (.held game installations) →
        (s.proceed caller).game = { s.game with relaunchAdmissionClosed := game } ∧
          (s.proceed caller).installations = s.installations ∧
          (s.proceed caller).reservations caller = some (.reopening installations)) ∧
      (∀ installations, s.reservations caller = some (.reopening installations) →
        (s.proceed caller).game = s.game ∧ (s.proceed caller).installations.state =
          { s.installations.state with relaunchAdmissionClosed := installations })) ∧
    (s.installations.state.closing = true → ∀ t, Launcher.Run isUuid s t →
      t.installations.state.closing = true ∧ t.RefusesInstallations isUuid ∧
        ∃ e, t.installations.state.closeAdmissionIfIdle.1 = .error e) := by
  have inv : s.Inv := Launcher.Inv.new.run run
  refine ⟨fun caller game installations here => ?_, fun _ => proceed_refused,
    fun _ _ => proceed_gameClosed, fun _ => proceed_undo inv, fun closed t later => ?_⟩
  · have gameClosed := inv.game.set.mpr ⟨caller, by rw [here]; rfl⟩
    have closed := inv.installations.set.mpr ⟨caller, by rw [here]; rfl⟩
    refine ⟨⟨inv.consistent.admission gameClosed, fun _ _ _ => ?_⟩, ⟨inv.quiet closed,
      refusesInstallations ?_⟩, fun other reservation theirs ne => ⟨?_, ?_⟩⟩
    · rw [Operation.refused, GameProcessHandle.beginLaunch, if_pos gameClosed]
      rfl
    · rw [Installations.State.admits, closed, Bool.or_true, Bool.not_true]
    · by_contra closes
      exact ne (inv.game.sole other caller (by rw [theirs]; simpa using closes) (by rw [here]; rfl))
    · by_contra closes
      exact ne (inv.installations.sole other caller (by rw [theirs]; simpa using closes)
        (by rw [here]; rfl))
  · have closed := later.closing closed
    refine ⟨closed, refusesInstallations ?_, ?_⟩
    · rw [Installations.State.admits, closed, Bool.true_or, Bool.not_true]
    · obtain ⟨e, failed⟩ | ⟨admits, -, -⟩ :=
        Installations.closeAdmissionIfIdle_cases t.installations.state
      · exact ⟨e, by rw [failed]⟩
      · rw [Installations.State.admits, closed, Bool.true_or, Bool.not_true] at admits
        cases admits

/-- An update is installed, and a relaunch is reserved. -/
def sampleRelaunch : Launcher :=
  (({ Launcher.new with phase := .readyToRestart "2.0.0" }.setReservation 0 (some .starting)).proceed
    0).proceed 0 |>.proceed 0

theorem relaunch_admission_sample :
    sampleRelaunch.reservations 0 = some (.held false false) ∧ sampleRelaunch.RefusesClients ∧
      sampleRelaunch.RefusesInstallations fun _ => true := by
  have run : Launcher.Run (fun _ => true) .new sampleRelaunch := by
    refine .tail (.tail (.tail (.tail (.single (.updater _)) (.reserveRelaunch rfl)) (.proceed 0))
      (.proceed 0)) (.proceed 0)
  have here : sampleRelaunch.reservations 0 = some (.held false false) := rfl
  obtain ⟨⟨-, clients⟩, ⟨-, installations⟩, -⟩ := (relaunch_admission run).1 0 _ _ here
  exact ⟨here, clients, installations⟩

end Runs

end RoLauncher.Updater
