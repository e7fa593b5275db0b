import RoLauncher.Autopot.Scanner

/-!
# Every scan settles, or misses its session

What becomes of the scanner's state is a list of events: a reservation where no
scan is under way, a publication right after its own reservation, or a cancel.
A scan that was cancelled has its reservation behind other events, and publishes
nothing. A refinement whose session is gone when it looks for it again returns
without an event, and leaves its reservation at the end.
-/

namespace RoLauncher.Autopot

open Presence (normalizeMapName)
open RoLauncher.Threads

/-! ## The events -/

/-- The state after the events, the last of them first. -/
def stateAfter : List ScanEvent → ScanState
  | [] => .idle
  | .reserved generation :: _ => .scanning generation
  | .published _ next :: _ => next
  | .cancelled :: _ => .idle

/-- The event may come after the others. -/
def ScanEvent.Follows (older : List ScanEvent) : ScanEvent → Prop
  | .reserved generation =>
    (∀ g, stateAfter older ≠ .scanning g) ∧ .reserved generation ∉ older
  | .published generation next =>
    stateAfter older = .scanning generation ∧ ∀ g, next ≠ .scanning g
  | .cancelled => True

def Legal : List ScanEvent → Prop
  | [] => True
  | e :: older => e.Follows older ∧ Legal older

section Events

variable {e : ScanEvent} {newer older history : List ScanEvent} {generation : Nat} {next : ScanState}

theorem Legal.of_append (h : Legal (newer ++ older)) : Legal older := by
  induction newer with
  | nil => exact h
  | cons e newer ih => exact ih h.2

/-- Only a reservation leaves its scan under way. -/
theorem Legal.head (legal : Legal history) (h : stateAfter history = .scanning generation) :
    ∃ older, history = .reserved generation :: older := by
  cases history with
  | nil => cases h
  | cons e older =>
    cases e with
    | reserved g =>
      cases h
      exact ⟨older, rfl⟩
    | published g next => exact absurd h (legal.1.2 generation)
    | cancelled => cases h

theorem Legal.published (legal : Legal (newer ++ .published generation next :: older)) :
    older.head? = some (.reserved generation) := by
  obtain ⟨rest, rfl⟩ := legal.of_append.2.head legal.of_append.1.1
  rfl

/-- Once another event has followed its reservation, a scan publishes nothing. -/
theorem Legal.not_published (legal : Legal (newer ++ e :: .reserved generation :: older))
    (other : ∀ next, e ≠ .published generation next) : .published generation next ∉ newer := by
  intro mem
  obtain ⟨before, after, rfl⟩ := List.append_of_mem mem
  rw [List.append_assoc, List.cons_append] at legal
  have first := legal.published
  have follows := legal.of_append.2
  cases after with
  | nil =>
    obtain rfl := Option.some.inj first
    exact follows.1.2 List.mem_cons_self
  | cons d after =>
    obtain rfl := Option.some.inj first
    exact follows.1.2 (List.mem_append_right _ (List.mem_cons_of_mem _ List.mem_cons_self))

/-- After a reservation comes its publication or a cancel. -/
theorem Legal.after_reserved (legal : Legal (newer ++ e :: .reserved generation :: older)) :
    (∃ next, e = .published generation next) ∨ e = .cancelled := by
  have follows := legal.of_append.1
  cases e with
  | reserved g => exact absurd rfl (follows.1 generation)
  | published g next =>
    cases follows.1
    exact .inl ⟨next, rfl⟩
  | cancelled => exact .inr rfl

end Events

/-! ## The invariant -/

structure Scanner.Inv (s : Scanner) : Prop where
  state : s.state = stateAfter s.history
  legal : Legal s.history
  owned : ∀ g, .reserved g ∈ s.history ∨ g ∈ s.returned ∨ g ∈ s.missed → (s.owner g).isSome
  fresh : ∀ g, s.nextGeneration ≤ g → s.owner g = none
  settled : ∀ g ∈ s.returned, s.history.head? = some (.reserved g) → g ∈ s.missed
  missed : ∀ g ∈ s.missed, .reserved g ∈ s.history ∧ ∀ next, .published g next ∉ s.history

/-- Nothing that happens to the generation. -/
structure Apart (g : Nat) (s t : Scanner) : Prop where
  owner : t.owner g = s.owner g
  history : ∃ newer, t.history = newer ++ s.history ∧ .reserved g ∉ newer ∧
    ∀ next, .published g next ∉ newer
  returned : g ∈ t.returned ↔ g ∈ s.returned
  missed : g ∈ t.missed ↔ g ∈ s.missed

theorem Apart.same {g : Nat} {s t : Scanner} (owner : t.owner g = s.owner g)
    (history : t.history = s.history) (returned : g ∈ t.returned ↔ g ∈ s.returned)
    (missed : g ∈ t.missed ↔ g ∈ s.missed) : Apart g s t :=
  ⟨owner, ⟨[], history, List.not_mem_nil, fun _ => List.not_mem_nil⟩, returned, missed⟩

theorem Apart.trans {g : Nat} {s t u : Scanner} (h : Apart g s t) (h' : Apart g t u) : Apart g s u := by
  obtain ⟨newer, history, reserved, published⟩ := h.history
  obtain ⟨newer', history', reserved', published'⟩ := h'.history
  refine ⟨h'.owner.trans h.owner, ⟨newer' ++ newer, ?_, ?_, fun next => ?_⟩,
    h'.returned.trans h.returned, h'.missed.trans h.missed⟩
  · rw [history', history, List.append_assoc]
  · exact fun mem => (List.mem_append.mp mem).elim reserved' reserved
  · exact fun mem => (List.mem_append.mp mem).elim (published' next) (published next)

/-- A thread leaves the generations of the others alone. -/
structure Guarantee (thread : Nat) (s t : Scanner) : Prop where
  history : ∃ newer, t.history = newer ++ s.history
  others : ∀ g u, s.owner g = some u → u ≠ thread → Apart g s t

def scanDiscipline : Discipline Nat Scanner where
  inv := Scanner.Inv
  rely thread s t := ∀ g, s.owner g = some thread → Apart g s t
  guar := Guarantee
  refl _ _ _ _ := .same rfl rfl .rfl .rfl
  trans _ _ _ _ h h' g own := (h g own).trans (h' g ((h g own).owner.trans own))
  others _ u _ _ ne h g own := h.others g u own ne.symm

abbrev ScanSafe {α : Type} (thread : Nat) (p : ScanTask α)
    (Q : Except String α → Scanner → Prop) (s : Scanner) : Prop :=
  scanDiscipline.Safe thread p Q s

/-! ## How far a scan is -/

/-- The generation is the thread's, and the scan has not been marked, settled or returned. -/
structure Fresh (thread g : Nat) (s : Scanner) : Prop where
  owner : s.owner g = some thread
  reserved : .reserved g ∉ s.history
  published : ∀ next, .published g next ∉ s.history
  missed : g ∉ s.missed
  returned : g ∉ s.returned

/-- The scan has marked the scanner. -/
structure Working (thread g : Nat) (s : Scanner) : Prop where
  owner : s.owner g = some thread
  reserved : .reserved g ∈ s.history
  published : ∀ next, .published g next ∉ s.history
  missed : g ∉ s.missed

/-- The scanner is not marked any more, or the scan has missed its session. -/
structure Done (thread g : Nat) (s : Scanner) : Prop where
  owner : s.owner g = some thread
  settled : s.history.head? = some (.reserved g) → g ∈ s.missed

section Stable

variable {thread g : Nat} {s t : Scanner}

abbrev Stable (thread : Nat) (P : Scanner → Prop) : Prop := Task.Stable (scanDiscipline.rely thread) P

theorem fresh_stable : Stable thread (Fresh thread g) := by
  intro s t fresh moved
  have apart := moved g fresh.owner
  obtain ⟨newer, history, reserved, published⟩ := apart.history
  refine ⟨apart.owner.trans fresh.owner, ?_, fun next => ?_, fun mem => fresh.missed (apart.missed.mp mem),
    fun mem => fresh.returned (apart.returned.mp mem)⟩
  all_goals rw [history]
  · exact fun mem => (List.mem_append.mp mem).elim reserved fresh.reserved
  · exact fun mem => (List.mem_append.mp mem).elim (published next) (fresh.published next)

theorem working_stable : Stable thread (Working thread g) := by
  intro s t working moved
  have apart := moved g working.owner
  obtain ⟨newer, history, -, published⟩ := apart.history
  refine ⟨apart.owner.trans working.owner, ?_, fun next => ?_,
    fun mem => working.missed (apart.missed.mp mem)⟩
  all_goals rw [history]
  · exact List.mem_append_right _ working.reserved
  · exact fun mem => (List.mem_append.mp mem).elim (published next) (working.published next)

theorem done_stable : Stable thread (Done thread g) := by
  intro s t done moved
  have apart := moved g done.owner
  obtain ⟨newer, history, reserved, -⟩ := apart.history
  refine ⟨apart.owner.trans done.owner, fun head => ?_⟩
  rw [history] at head
  cases newer with
  | nil => exact apart.missed.mpr (done.settled head)
  | cons e newer =>
    obtain rfl := Option.some.inj head
    exact absurd List.mem_cons_self reserved

theorem Fresh.done (fresh : Fresh thread g s) : Done thread g s where
  owner := fresh.owner
  settled head := absurd (List.mem_of_mem_head? head) fresh.reserved

theorem Fresh.own (fresh : Fresh thread g s) {h u : Nat} (own : s.owner h = some u) (ne : u ≠ thread) :
    h ≠ g := by
  rintro rfl
  exact ne (Option.some.inj (own.symm.trans fresh.owner))

end Stable

/-! ## What only concerns the world -/

/-- Every step of the task looks at the scanner, or changes the world. -/
def Quiet {α : Type} : ScanTask α → Prop
  | .ret _ => True
  | .fail _ => True
  | .step _ update k => (∀ s, ∃ world, update s = s.setWorld world) ∧ ∀ s, Quiet (k s)

section Quiet

variable {α β : Type} {p : ScanTask α} {f : α → ScanTask β} {session : MemorySession}

theorem Quiet.bind (quiet : Quiet p) (rest : ∀ a, Quiet (f a)) : Quiet (p >>= f) := by
  induction p with
  | ret a => exact rest a
  | fail e => trivial
  | step enabled update k ih => exact ⟨quiet.1, fun s => ih s (quiet.2 s)⟩

theorem Quiet.attempt (quiet : Quiet p) : Quiet (p.attempt : ScanTask (Except String α)) := by
  induction p with
  | ret a => trivial
  | fail e => trivial
  | step enabled update k ih => exact ⟨quiet.1, fun s => ih s (quiet.2 s)⟩

theorem quiet_read (f : Scanner → α) : Quiet (Task.read f) :=
  ⟨fun s => ⟨s.world, rfl⟩, fun _ => trivial⟩

theorem quiet_ofExcept (r : Except String α) : Quiet (Task.ofExcept r : ScanTask α) := by
  cases r <;> trivial

theorem requireSession_quiet (identity : ProcessIdentity) : Quiet (requireSession identity) := by
  refine (quiet_read _).bind fun number => ?_
  split
  next => trivial
  next => exact (quiet_read _).bind fun access => by split <;> trivial

theorem ensureIdentity_quiet : Quiet (ensureIdentity session) := by
  refine (quiet_read _).bind fun alive => ?_
  split
  next => trivial
  next => exact ⟨fun s => ⟨_, rfl⟩, fun _ => trivial⟩

theorem reading_quiet (f : ProcMemoryReader → Except String α) : Quiet (reading session f) := by
  refine ensureIdentity_quiet.bind fun _ => (quiet_read _).bind fun answer => ?_
  refine (quiet_ofExcept answer).bind fun value => ensureIdentity_quiet.bind fun _ => ?_
  trivial

theorem readOk_quiet (quiet : Quiet p) : Quiet (readOk p) := by
  refine quiet.attempt.bind fun answer => ?_
  trivial

theorem collect_quiet {f : α → ScanTask (Option β)} (quiet : ∀ a, Quiet (f a)) (as : List α) :
    Quiet (collect f as) := by
  induction as with
  | nil => trivial
  | cons a as ih => exact (quiet a).bind fun _ => ih.bind fun _ => trivial

theorem findNeedles_quiet (needles : List (List UInt8)) : Quiet (findNeedles session needles) := by
  induction needles with
  | nil => trivial
  | cons needle needles ih => exact (reading_quiet _).bind fun _ => ih.bind fun _ => trivial

theorem refineU32Candidates_quiet (candidates : List UInt32) (value : UInt32) :
    Quiet (session.refineU32Candidates candidates value) := by
  refine collect_quiet (fun address => ?_) candidates
  exact (readOk_quiet (reading_quiet _)).bind fun _ => trivial

theorem detectLayout_quiet (session : MemorySession) (hpBase expectedHp : UInt32) :
    Quiet (detectLayout session hpBase expectedHp) := by
  unfold detectLayout
  split
  next => trivial
  next =>
    refine (readOk_quiet (reading_quiet _)).bind fun stats => ?_
    split
    next => trivial
    next => split <;> trivial

theorem detectLevelAddress_quiet (levelAddress currentLevel : UInt32) :
    Quiet (detectLevelAddress session levelAddress currentLevel) := by
  refine (readOk_quiet (reading_quiet _)).bind fun level => ?_
  split
  next =>
    refine Quiet.bind ?_ fun _ => trivial
    unfold detectJobLevel
    split
    next => trivial
    next => exact (readOk_quiet (reading_quiet _)).bind fun _ => trivial
  next => trivial

end Quiet

/-! ## The steps -/

section Steps

variable {α : Type} {thread g : Nat} {s t : Scanner} {next : ScanState} {P : Scanner → Prop}

/-- The world is all that changes. -/
theorem Scanner.Inv.setWorld (inv : s.Inv) (world : World) : (s.setWorld world).Inv :=
  ⟨inv.state, inv.legal, inv.owned, inv.fresh, inv.settled, inv.missed⟩

theorem apart_setWorld (world : World) : Apart g s (s.setWorld world) := .same rfl rfl .rfl .rfl

theorem setWorld_guarantee (world : World) : Guarantee thread s (s.setWorld world) :=
  ⟨⟨[], rfl⟩, fun _ _ _ _ => apart_setWorld world⟩

theorem guarantee_refl (thread : Nat) (s : Scanner) : Guarantee thread s s :=
  ⟨⟨[], rfl⟩, fun _ _ _ _ => .same rfl rfl .rfl .rfl⟩

theorem quiet_safe {p : ScanTask α} (quiet : Quiet p) (stable : Stable thread P) (holds : P s) :
    ScanSafe thread p (fun _ => P) s := by
  induction p generalizing s with
  | ret a => exact fun t moved => stable s t holds moved
  | fail e => exact fun t moved => stable s t holds moved
  | step enabled update k ih =>
    intro t moved inv on
    obtain ⟨world, same⟩ := quiet.1 t
    rw [same]
    exact ⟨⟨setWorld_guarantee world, inv.setWorld world⟩, ih t (quiet.2 t)
      (stable t _ (stable s t holds moved) fun _ _ => apart_setWorld world)⟩

theorem take_kept (inv : s.Inv) : (Guarantee thread s (s.take thread) ∧ (s.take thread).Inv) ∧
    Fresh thread s.nextGeneration (s.take thread) := by
  have free : s.owner s.nextGeneration = none := inv.fresh _ (Nat.le_refl _)
  have unused : ∀ g, .reserved g ∈ s.history ∨ g ∈ s.returned ∨ g ∈ s.missed → g ≠ s.nextGeneration := by
    rintro g used rfl
    have owned := inv.owned _ used
    rw [free] at owned
    cases owned
  have others : ∀ g, g ≠ s.nextGeneration → (s.take thread).owner g = s.owner g := fun g ne =>
    Function.update_of_ne ne _ _
  refine ⟨⟨⟨⟨[], rfl⟩, fun g u own _ => .same (others g ?_) rfl .rfl .rfl⟩, inv.state, inv.legal,
    fun g used => ?_, fun g above => ?_, inv.settled, inv.missed⟩, Function.update_self _ _ _,
    fun mem => unused _ (.inl mem) rfl, fun next mem => ?_, fun mem => unused _ (.inr (.inr mem)) rfl,
    fun mem => unused _ (.inr (.inl mem)) rfl⟩
  · rintro rfl
    rw [free] at own
    cases own
  · rw [others g (unused g used)]
    exact inv.owned g used
  · rw [others g (Nat.ne_of_gt above)]
    exact inv.fresh g (Nat.le_of_succ_le above)
  · obtain ⟨newer, older, here⟩ := List.append_of_mem mem
    have legal := inv.legal
    have history : (s.take thread).history = s.history := rfl
    rw [← history, here] at legal
    refine unused _ (.inl ?_) rfl
    rw [← history, here]
    exact List.mem_append_right _ (List.mem_cons_of_mem _ (List.mem_of_mem_head? legal.published))

theorem reserve_kept (inv : s.Inv) (fresh : Fresh thread g s) (free : ∀ g, s.state ≠ .scanning g) :
    (Guarantee thread s (s.reserve g) ∧ (s.reserve g).Inv) ∧ Working thread g (s.reserve g) := by
  rw [inv.state] at free
  refine ⟨⟨⟨⟨[.reserved g], rfl⟩, fun h u own ne => ⟨rfl, ⟨[.reserved g], rfl, ?_, by simp⟩, .rfl, .rfl⟩⟩,
    rfl, ⟨⟨free, fresh.reserved⟩, inv.legal⟩, fun h used => ?_, inv.fresh, fun h mem head => ?_,
    fun h mem => ?_⟩, fresh.owner, List.mem_cons_self, fun next => ?_, fresh.missed⟩
  · simp [fresh.own own ne]
  · obtain mem | used := used
    · obtain same | mem := List.mem_cons.mp mem
      · cases same
        exact Option.isSome_of_mem fresh.owner
      · exact inv.owned h (.inl mem)
    · exact inv.owned h (.inr used)
  · cases head
    exact absurd mem fresh.returned
  · obtain ⟨reserved, published⟩ := inv.missed h mem
    exact ⟨List.mem_cons_of_mem _ reserved, fun next => by simpa [Scanner.reserve] using published next⟩
  · simpa [Scanner.reserve] using fresh.published next

theorem publish_kept (inv : s.Inv) (working : Working thread g s) (current : s.current g = true)
    (still : ∀ g, next ≠ .scanning g) :
    (Guarantee thread s (s.publish g next) ∧ (s.publish g next).Inv) ∧
      Done thread g (s.publish g next) := by
  have own (h u : Nat) (own : s.owner h = some u) (ne : u ≠ thread) : h ≠ g := by
    rintro rfl
    exact ne (Option.some.inj (own.symm.trans working.owner))
  have here : stateAfter s.history = .scanning g := inv.state ▸ of_decide_eq_true current
  refine ⟨⟨⟨⟨[.published g next], rfl⟩, fun h u own' ne =>
    ⟨rfl, ⟨[.published g next], rfl, by simp, ?_⟩, .rfl, .rfl⟩⟩, rfl, ⟨⟨here, still⟩, inv.legal⟩,
    fun h used => inv.owned h (used.imp_left fun mem => by simpa [Scanner.publish] using mem), inv.fresh,
    fun h _ head => (by cases head), fun h mem => ?_⟩, working.owner, fun head => by cases head⟩
  · simp [own h u own' ne]
  · obtain ⟨reserved, published⟩ := inv.missed h mem
    have ne : h ≠ g := by
      rintro rfl
      exact working.missed mem
    exact ⟨List.mem_cons_of_mem _ reserved, fun next => by
      simpa [Scanner.publish, ne] using published next⟩

theorem cancel_kept (inv : s.Inv) : Guarantee thread s s.cancel ∧ s.cancel.Inv := by
  refine ⟨⟨⟨[.cancelled], rfl⟩, fun h u _ _ => ⟨rfl, ⟨[.cancelled], rfl, by simp, by simp⟩, .rfl, .rfl⟩⟩,
    rfl, ⟨trivial, inv.legal⟩,
    fun h used => inv.owned h (used.imp_left fun mem => by simpa [Scanner.cancel] using mem), inv.fresh,
    fun h _ head => (by cases head), fun h mem => ?_⟩
  obtain ⟨reserved, published⟩ := inv.missed h mem
  exact ⟨List.mem_cons_of_mem _ reserved, fun next => by simpa [Scanner.cancel] using published next⟩

theorem setReturned_kept (inv : s.Inv) (done : Done thread g s) :
    Guarantee thread s (s.setReturned g) ∧ (s.setReturned g).Inv := by
  refine ⟨⟨⟨[], rfl⟩, fun h u own ne => .same rfl rfl ?_ .rfl⟩, inv.state, inv.legal, fun h used => ?_,
    inv.fresh, fun h mem head => ?_, inv.missed⟩
  · have other : h ≠ g := by
      rintro rfl
      exact ne (Option.some.inj (own.symm.trans done.owner))
    simp [Scanner.setReturned, other]
  · obtain mem | mem | mem := used
    · exact inv.owned h (.inl mem)
    · obtain rfl | mem := List.mem_cons.mp mem
      · exact Option.isSome_of_mem done.owner
      · exact inv.owned h (.inr (.inl mem))
    · exact inv.owned h (.inr (.inr mem))
  · obtain rfl | mem := List.mem_cons.mp mem
    · exact done.settled head
    · exact inv.settled h mem head

theorem setMissed_kept (inv : s.Inv) (working : Working thread g s) :
    (Guarantee thread s (s.setMissed g) ∧ (s.setMissed g).Inv) ∧ Done thread g (s.setMissed g) := by
  refine ⟨⟨⟨⟨[], rfl⟩, fun h u own ne => .same rfl rfl .rfl ?_⟩, inv.state, inv.legal, fun h used => ?_,
    inv.fresh, fun h mem head => List.mem_cons_of_mem _ (inv.settled h mem head), fun h mem => ?_⟩,
    working.owner, fun _ => List.mem_cons_self⟩
  · have other : h ≠ g := by
      rintro rfl
      exact ne (Option.some.inj (own.symm.trans working.owner))
    simp [Scanner.setMissed, other]
  · obtain mem | mem | mem := used
    · exact inv.owned h (.inl mem)
    · exact inv.owned h (.inr (.inl mem))
    · obtain rfl | mem := List.mem_cons.mp mem
      · exact Option.isSome_of_mem working.owner
      · exact inv.owned h (.inr (.inr mem))
  · obtain rfl | mem := List.mem_cons.mp mem
    · exact ⟨working.reserved, working.published⟩
    · exact inv.missed h mem

end Steps

/-! ## The scans -/

section Scans

variable {α β : Type} {thread g : Nat} {s : Scanner}

/-- What a part of a scan leaves for the next part, when it does not end the scan. -/
def Goes (thread g : Nat) (r : Except String α) (s : Scanner) : Prop :=
  match r with
  | .ok _ => Working thread g s
  | .error _ => Done thread g s

theorem done_fail {error : String} (done : Done thread g s) :
    ScanSafe thread (.fail error : ScanTask α) (fun _ => Done thread g) s :=
  Task.safe_fail done_stable done fun _ h => h

theorem finishIfCurrent_safe {next : ScanState} (still : ∀ g, next ≠ .scanning g)
    (working : Working thread g s) :
    ScanSafe thread (finishIfCurrent g next) (fun _ => Done thread g) s := by
  refine Task.safe_step working_stable working fun t here inv _ => ?_
  cases current : t.current g with
  | true =>
    obtain ⟨kept, done⟩ := publish_kept inv here current still
    simp only [if_true]
    exact ⟨kept, Task.safe_ret done_stable done fun _ h => h⟩
  | false =>
    simp only [Bool.false_eq_true, if_false]
    refine ⟨⟨guarantee_refl thread t, inv⟩, done_fail ⟨here.owner, fun head => ?_⟩⟩
    have marked : t.state = .scanning g := by
      obtain ⟨older, history⟩ := List.head?_eq_some_iff.mp head
      rw [inv.state, history]
      rfl
    simp [Scanner.current, marked] at current

theorem giveUp_safe {error : String} (working : Working thread g s) :
    ScanSafe thread (giveUp g error : ScanTask α) (fun _ => Done thread g) s :=
  Task.Safe.seq (scanDiscipline.refl thread) (finishIfCurrent_safe (fun _ => by simp) working)
    (fun _ _ done => done_fail done) fun _ _ done => done

theorem reserveScan_safe (fresh : Fresh thread g s) :
    ScanSafe thread (reserveScan g true) (Goes thread g) s := by
  refine Task.safe_step fresh_stable fresh fun t here inv _ => ?_
  by_cases idle : t.state = .idle
  · simp only [idle, ne_eq, not_true, and_false, if_false]
    obtain ⟨kept, working⟩ := reserve_kept inv here fun h => by simp [idle]
    exact ⟨kept, Task.safe_ret working_stable working fun _ h => h⟩
  · simp only [idle, ne_eq, not_false_eq_true, and_self, if_true]
    exact ⟨⟨guarantee_refl thread t, inv⟩, Task.safe_fail done_stable here.done fun _ h => h⟩

theorem takeSession_safe {refines : ScanKind → Refines} {unchanged absent : String}
    (fresh : Fresh thread g s) :
    ScanSafe thread (takeSession g refines unchanged absent) (Goes thread g) s := by
  have refused (error : String) {t : Scanner} (here : Fresh thread g t) (inv : t.Inv) :
      (Guarantee thread t t ∧ t.Inv) ∧
        ScanSafe thread (.fail error : ScanTask ScanSession) (Goes thread g) t :=
    ⟨⟨guarantee_refl thread t, inv⟩, Task.safe_fail done_stable here.done fun _ h => h⟩
  refine Task.safe_step fresh_stable fresh fun t here inv _ => ?_
  cases state : t.state with
  | idle => exact refused _ here inv
  | scanning g => exact refused _ here inv
  | ready session =>
    cases kind : refines session.kind with
    | changed =>
      simp only [kind, if_true]
      obtain ⟨kept, working⟩ := reserve_kept inv here fun h => by simp [state]
      exact ⟨kept, Task.safe_ret working_stable working fun _ h => h⟩
    | unchanged =>
      simp only [kind, reduceCtorEq, if_false]
      exact refused _ here inv
    | other =>
      simp only [kind, reduceCtorEq, if_false]
      exact refused _ here inv

/-- A scan goes on after one of its parts. -/
theorem Goes.andThen {p : ScanTask α} {f : α → ScanTask β}
    (first : ScanSafe thread p (Goes thread g) s)
    (rest : ∀ a t, Working thread g t → ScanSafe thread (f a) (fun _ => Done thread g) t) :
    ScanSafe thread (p >>= f) (fun _ => Done thread g) s :=
  Task.Safe.seq (scanDiscipline.refl thread) first rest fun _ _ done => done

theorem done_ret {a : α} (done : Done thread g s) :
    ScanSafe thread (.ret a) (fun _ => Done thread g) s :=
  Task.safe_ret done_stable done fun _ h => h

theorem Done.andRet {p : ScanTask α} {f : α → β} (h : ScanSafe thread p (fun _ => Done thread g) s) :
    ScanSafe thread (p >>= fun a => .ret (f a)) (fun _ => Done thread g) s :=
  Task.Safe.seq (scanDiscipline.refl thread) h (fun _ _ done => done_ret done) fun _ _ done => done

/-- A blocking task answers in any case. -/
theorem spawnBlocking_safe {work : ScanTask α} (quiet : Quiet work) (working : Working thread g s) :
    ScanSafe thread (spawnBlocking work) (Goes thread g) s := by
  have ended : ScanSafe thread (work.attempt : ScanTask (Except String α))
      (fun r t => ∃ a, r = .ok a ∧ Working thread g t) s :=
    Task.Safe.attempt ((quiet_safe quiet working_stable working).post fun r t here => ⟨r, rfl, here⟩)
  refine Task.Safe.andThen (scanDiscipline.refl thread) ended fun result t here => ?_
  refine Task.Safe.andThen (scanDiscipline.refl thread) (Q := fun _ => Working thread g)
    (Task.safe_fetch working_stable (fun _ => working_stable) here
      fun u here inv _ => ⟨⟨guarantee_refl thread u, inv⟩, here⟩) fun joined u here => ?_
  split <;> exact Task.safe_ret working_stable here fun _ h => h

theorem foundState_ne_scanning (session : List UInt32 → ScanSession)
    (found : Except String (List UInt32)) (h : Nat) : foundState session found ≠ .scanning h := by
  unfold foundState
  split <;> simp

theorem beginScan_safe {work : ScanTask (List UInt32)} {session : List UInt32 → ScanSession}
    {scanner absent : String} (quiet : Quiet work) (working : Working thread g s) :
    ScanSafe thread (beginScan g work session scanner absent) (fun _ => Done thread g) s := by
  refine Goes.andThen (spawnBlocking_safe quiet working) fun result t here => ?_
  split
  next => exact giveUp_safe here
  next found =>
    refine Task.Safe.seq (scanDiscipline.refl thread)
      (finishIfCurrent_safe (foundState_ne_scanning session found) here) (fun _ u done => ?_)
      fun _ _ done => done
    split
    next => exact done_fail done
    next => exact done_ret done
    next => exact done_fail done

theorem requireOwnSession_safe {identity : ProcessIdentity} (working : Working thread g s) :
    ScanSafe thread (requireOwnSession g identity) (Goes thread g) s := by
  have looked : ScanSafe thread ((requireSession identity).attempt : ScanTask (Except String MemorySession))
      (fun r t => ∃ a, r = .ok a ∧ Working thread g t) s :=
    Task.Safe.attempt ((quiet_safe (requireSession_quiet identity) working_stable working).post
      fun r t here => ⟨r, rfl, here⟩)
  refine Task.Safe.andThen (scanDiscipline.refl thread) looked fun result t here => ?_
  split
  next => exact Task.safe_ret working_stable here fun _ h => h
  next =>
    refine Task.safe_step working_stable here fun u here inv _ => ?_
    obtain ⟨kept, done⟩ := setMissed_kept inv here
    exact ⟨kept, Task.safe_fail done_stable done fun _ h => h⟩

theorem refineScan_safe {session : ScanSession} {work : MemorySession → ScanTask α} {scanner : String}
    {publish : α → ScanTask β} (quiet : ∀ memorySession, Quiet (work memorySession))
    (published : ∀ found t, Working thread g t →
      ScanSafe thread (publish found) (fun _ => Done thread g) t)
    (working : Working thread g s) :
    ScanSafe thread (refineScan g session work scanner publish) (fun _ => Done thread g) s := by
  refine Task.Safe.andThen (scanDiscipline.refl thread) (Q := fun _ => Working thread g)
    (Task.safe_fetch working_stable (fun _ => working_stable) working
      fun t here inv _ => ⟨⟨guarantee_refl thread t, inv⟩, here⟩) fun alive t here => ?_
  split
  next =>
    refine Goes.andThen (requireOwnSession_safe here) fun memorySession t here => ?_
    refine Goes.andThen (spawnBlocking_safe (quiet memorySession) here) fun result t here => ?_
    split
    next => exact giveUp_safe here
    next => exact giveUp_safe here
    next found => exact published found t here
  next => exact giveUp_safe here

/-- From the generation to the return. -/
theorem takeGeneration_returning {scan : Nat → ScanTask α}
    (body : ∀ g t, Fresh thread g t → ScanSafe thread (scan g) (fun _ => Done thread g) t) :
    ScanSafe thread (takeGeneration thread >>= fun g => returning g (scan g)) (fun _ _ => True) s := by
  have anything : Stable thread fun _ => True := fun _ _ _ _ => trivial
  refine Task.Safe.andThen (scanDiscipline.refl thread) (Q := Fresh thread) (Task.safe_fetch anything
    (fun _ => fresh_stable) trivial fun t _ inv _ => take_kept inv) fun g t fresh => ?_
  have ended : ScanSafe thread ((scan g).attempt : ScanTask (Except String α))
      (fun r t => ∃ a, r = .ok a ∧ Done thread g t) t :=
    Task.Safe.attempt ((body g t fresh).post fun r t here => ⟨r, rfl, here⟩)
  refine Task.Safe.andThen (scanDiscipline.refl thread) ended fun result t done => ?_
  refine Task.safe_step done_stable done fun u here inv _ => ⟨setReturned_kept inv here, ?_⟩
  cases result with
  | ok a => exact fun _ _ => trivial
  | error e => exact fun _ _ => trivial

/-- What comes before a scan. -/
theorem Quiet.before {p : ScanTask α} {f : α → ScanTask β} (quiet : Quiet p)
    (rest : ∀ a t, ScanSafe thread (f a) (fun _ _ => True) t) :
    ScanSafe thread (p >>= f) (fun _ _ => True) s :=
  Task.Safe.seq (scanDiscipline.refl thread) (quiet_safe (P := fun _ => True) quiet (fun _ _ _ _ => trivial) trivial)
    (fun a t _ => rest a t) fun _ _ _ => trivial

theorem begin_safe (identity : ProcessIdentity) (currentHp : UInt32) :
    ScanSafe thread (begin thread identity currentHp) (fun _ _ => True) s := by
  refine (quiet_ofExcept _).before fun _ t => (requireSession_quiet identity).before fun session t => ?_
  refine takeGeneration_returning fun g t fresh => ?_
  refine Goes.andThen (reserveScan_safe fresh) fun _ t here => ?_
  exact Done.andRet (beginScan_safe (reading_quiet _) here)

theorem beginLevel_safe (identity : ProcessIdentity) (currentLevel : UInt32)
    (nameAddress hpBase : Option UInt32) :
    ScanSafe thread (beginLevel thread identity currentLevel nameAddress hpBase) (fun _ _ => True) s := by
  refine (quiet_ofExcept _).before fun _ t => (requireSession_quiet identity).before fun session t => ?_
  refine takeGeneration_returning fun g t fresh => ?_
  refine Goes.andThen (reserveScan_safe fresh) fun _ t here => ?_
  refine Done.andRet (beginScan_safe ?_ here)
  exact (reading_quiet _).bind fun _ => trivial

/-- The map's name is normalized, so it has its needles. -/
theorem beginMap_safe (identity : ProcessIdentity) (mapName : String)
    (nameAddress hpBase levelAddress : Option UInt32) :
    ScanSafe thread (beginMap thread identity mapName nameAddress hpBase levelAddress)
      (fun _ _ => True) s := by
  unfold beginMap normalizeScanMap
  cases normalized : normalizeMapName mapName with
  | none => exact fun _ _ => trivial
  | some name =>
    refine (requireSession_quiet identity).before fun session t => ?_
    refine takeGeneration_returning fun g t fresh => ?_
    refine Goes.andThen (reserveScan_safe fresh) fun _ t here => ?_
    obtain ⟨needles, found⟩ := mapScanNeedles_isSome normalized
    rw [found]
    refine Done.andRet (beginScan_safe ?_ here)
    exact (findNeedles_quiet needles).bind fun _ => trivial

theorem refine_safe (currentHp : UInt32) :
    ScanSafe thread (refine thread currentHp) (fun _ _ => True) s := by
  refine (quiet_ofExcept _).before fun _ t => takeGeneration_returning fun g t fresh => ?_
  refine Goes.andThen (takeSession_safe fresh) fun session t here => ?_
  refine refineScan_safe (fun memorySession => ?_) (fun found t here => ?_) here
  · refine (refineU32Candidates_quiet _ _).bind fun candidates => ?_
    have layouts : Quiet (collect (fun address => detectLayout memorySession address currentHp)
        candidates) := collect_quiet (fun address => detectLayout_quiet memorySession address currentHp) _
    refine layouts.bind fun _ => ?_
    trivial
  · split
    next => exact giveUp_safe here
    next => exact giveUp_safe here
    next => exact Done.andRet (finishIfCurrent_safe (fun _ => by simp) here)
    next => exact Done.andRet (finishIfCurrent_safe (fun _ => by simp) here)

theorem publishRefined_safe {δ : Type} {next : ScanSession} {absent : String}
    {found : List UInt32 × Option δ} (working : Working thread g s) :
    ScanSafe thread (publishRefined g next absent found) (fun _ => Done thread g) s := by
  unfold publishRefined
  split
  next => exact giveUp_safe working
  next => exact Done.andRet (finishIfCurrent_safe (fun _ => by simp) working)
  next => exact Done.andRet (finishIfCurrent_safe (fun _ => by simp) working)

theorem refineLevel_safe (currentLevel : UInt32) :
    ScanSafe thread (refineLevel thread currentLevel) (fun _ _ => True) s := by
  refine (quiet_ofExcept _).before fun _ t => takeGeneration_returning fun g t fresh => ?_
  refine Goes.andThen (takeSession_safe fresh) fun session t here => ?_
  refine refineScan_safe (fun memorySession => ?_) (fun _ _ => publishRefined_safe) here
  refine (refineU32Candidates_quiet _ _).bind fun candidates => ?_
  dsimp only
  split
  next => trivial
  next => exact (detectLevelAddress_quiet _ _).bind fun _ => trivial

theorem refineMap_safe (mapName : String) :
    ScanSafe thread (refineMap thread mapName) (fun _ _ => True) s := by
  refine (quiet_ofExcept _).before fun name t => takeGeneration_returning fun g t fresh => ?_
  refine Goes.andThen (takeSession_safe fresh) fun session t here => ?_
  refine refineScan_safe (fun memorySession => ?_) (fun _ _ => publishRefined_safe) here
  refine Quiet.bind (collect_quiet (fun address => ?_) _) fun _ => trivial
  exact (readOk_quiet (reading_quiet _)).bind fun _ => trivial

theorem cancel_safe : ScanSafe thread cancel (fun _ _ => True) s := by
  have anything : Stable thread fun _ => True := fun _ _ _ _ => trivial
  refine Task.safe_step anything trivial fun t _ inv _ => ⟨⟨⟨⟨[], rfl⟩, fun _ _ _ _ => .same rfl rfl .rfl .rfl⟩,
    inv.state, inv.legal, inv.owned, fun g above => inv.fresh g (Nat.le_of_succ_le above), inv.settled,
    inv.missed⟩, ?_⟩
  refine Task.safe_step anything trivial fun u _ inv _ => ⟨cancel_kept inv, fun _ _ => trivial⟩

theorem ScanEntry.safe {p : ScanTask Unit} (entry : ScanEntry thread s p) :
    ScanSafe thread p (fun _ _ => True) s := by
  have refl := scanDiscipline.refl thread
  cases entry with
  | begin identity currentHp => exact (begin_safe identity currentHp).discard refl
  | refine currentHp => exact (refine_safe currentHp).discard refl
  | beginLevel identity currentLevel nameAddress hpBase =>
    exact (beginLevel_safe identity currentLevel nameAddress hpBase).discard refl
  | refineLevel currentLevel => exact (refineLevel_safe currentLevel).discard refl
  | beginMap identity mapName nameAddress hpBase levelAddress =>
    exact (beginMap_safe identity mapName nameAddress hpBase levelAddress).discard refl
  | refineMap mapName => exact (refineMap_safe mapName).discard refl
  | cancel => exact cancel_safe
  | world world =>
    exact quiet_safe (P := fun _ => True) ⟨fun _ => ⟨world, rfl⟩, fun _ => trivial⟩
      (fun _ _ _ _ => trivial) trivial

end Scans

/-! ## The runs -/

section Runs

variable {world : World} {c d : Pool Nat Scanner String}

theorem new_inv (world : World) : (Scanner.new world).Inv where
  state := rfl
  legal := trivial
  owned _ used := by simp [Scanner.new] at used
  fresh _ _ := rfl
  settled _ mem := absurd mem List.not_mem_nil
  missed _ mem := absurd mem List.not_mem_nil

theorem ScanRun.kept (run : ScanRun (Pool.idle (.new world)) c) : scanDiscipline.Kept c :=
  PoolRun.kept (D := scanDiscipline) (fun _ _ _ _ entry => entry.safe) run
    (Discipline.kept_idle (new_inv world))

/-- The events stay. -/
theorem ScanRun.history (run : ScanRun (Pool.idle (.new world)) c) (further : ScanRun c d) :
    ∃ newer, d.1.history = newer ++ c.1.history := by
  induction further with
  | refl => exact ⟨[], rfl⟩
  | tail before step ih =>
    obtain ⟨newer, history⟩ := ih
    obtain same | ⟨thread, guar⟩ := PoolRun.steps (D := scanDiscipline)
      (fun _ _ _ _ entry => entry.safe) before run.kept step
    · exact ⟨newer, by rw [same, history]⟩
    · obtain ⟨last, history'⟩ := guar.history
      exact ⟨last ++ newer, by rw [history', history, List.append_assoc]⟩

/-- **Every scan settles**, unless it is a refinement that missed its session; and a scan that was
cancelled publishes nothing. -/
theorem scans_settle (run : ScanRun (Pool.idle (.new world)) c) :
    (∀ g ∈ c.1.returned, c.1.state = .scanning g ↔
      g ∈ c.1.missed ∧ c.1.history.head? = some (.reserved g)) ∧
    (∀ g ∈ c.1.missed, ∃ newer older, c.1.history = newer ++ .reserved g :: older ∧
      (newer = [] ∨ newer.getLast? = some .cancelled)) ∧
    c.1.state = stateAfter c.1.history ∧
    (∀ d, ScanRun c d → ∃ newer, d.1.history = newer ++ c.1.history) ∧
    (∀ newer g next older, c.1.history = newer ++ .published g next :: older →
      older.head? = some (.reserved g)) ∧
    (∀ newer e g older, c.1.history = newer ++ e :: .reserved g :: older →
      (∃ next, e = .published g next) ∨ ∀ next, .published g next ∉ newer) := by
  have inv : c.1.Inv := run.kept.1
  refine ⟨fun g returned => ⟨fun scanning => ?_, fun ⟨_, head⟩ => ?_⟩, fun g missed => ?_, inv.state,
    fun d further => run.history further, fun newer g next older history => ?_,
    fun newer e g older history => ?_⟩
  · obtain ⟨older, history⟩ := inv.legal.head (inv.state.symm.trans scanning)
    have head : c.1.history.head? = some (.reserved g) := by rw [history]; rfl
    exact ⟨inv.settled g returned head, head⟩
  · obtain ⟨older, history⟩ := List.head?_eq_some_iff.mp head
    rw [inv.state, history]
    rfl
  · obtain ⟨reserved, published⟩ := inv.missed g missed
    obtain ⟨newer, older, history⟩ := List.append_of_mem reserved
    refine ⟨newer, older, history, ?_⟩
    obtain rfl | ⟨before, e, rfl⟩ := List.eq_nil_or_concat' newer
    · exact .inl rfl
    · rw [List.append_assoc, List.singleton_append] at history
      obtain ⟨next, rfl⟩ | rfl := Legal.after_reserved (history ▸ inv.legal)
      · refine absurd ?_ (published next)
        rw [history]
        exact List.mem_append_right _ List.mem_cons_self
      · exact .inr (by simp)
  · exact Legal.published (history ▸ inv.legal)
  · have legal : Legal (newer ++ e :: .reserved g :: older) := history ▸ inv.legal
    obtain published | rfl := legal.after_reserved
    · exact .inl published
    · exact .inr fun next => legal.not_published fun _ => by simp

/-! ## A refinement whose session is gone -/

def sampleIdentity : ProcessIdentity := ⟨4242, 7⟩

/-- A client whose memory holds the value at two addresses. -/
def sampleWorld : World where
  sessions identity := if identity = sampleIdentity then some 0 else none
  access _ := .processVmReadv
  alive identity := identity = sampleIdentity
  reader _ :=
    { scanWritableU32 := fun _ => .ok [0x1000, 0x2000]
      findAllWritableBytes := fun _ => .ok []
      readU32 := fun _ => .ok 90
      readString := fun _ _ => .ok ""
      probeStats := fun _ => .ok (90, 100, 5, 10) }
  joinError := none

/-- The lease of its session was dropped. -/
def droppedWorld : World := { sampleWorld with sessions := fun _ => none }

def sampleBegun : Scanner := (begin 0 sampleIdentity 100).discard.left (.new sampleWorld)

def sampleDropped : Scanner := sampleBegun.setWorld droppedWorld

def sampleRefined : Scanner := (refine 0 90).discard.left sampleDropped

theorem sample_run : ScanRun (Pool.idle (.new sampleWorld)) (Pool.idle sampleRefined) := by
  have begun : ScanRun (Pool.idle (.new sampleWorld)) (Pool.idle sampleBegun) :=
    PoolRun.left (c := Pool.idle (Scanner.new sampleWorld)) (t := 0) rfl (ScanEntry.begin sampleIdentity 100)
      (by decide)
  have dropped : ScanRun (Pool.idle sampleBegun) (Pool.idle sampleDropped) :=
    PoolRun.left (c := Pool.idle sampleBegun) (t := 0) rfl (ScanEntry.world droppedWorld) rfl
  have refined : ScanRun (Pool.idle sampleDropped) (Pool.idle sampleRefined) :=
    PoolRun.left (c := Pool.idle sampleDropped) (t := 0) rfl (ScanEntry.refine 90) (by decide)
  exact Relation.ReflTransGen.trans begun (Relation.ReflTransGen.trans dropped refined)

/-- The refinement has returned, and the scanner is still its own. -/
theorem refinement_stays_scanning : ¬ ∀ (world : World) (c : Pool Nat Scanner String),
    ScanRun (Pool.idle (.new world)) c → ∀ g ∈ c.1.returned, c.1.state ≠ .scanning g := by
  intro settled
  have returned : 2 ∈ sampleRefined.returned := by decide
  have scanning : sampleRefined.state = .scanning 2 := by decide
  exact settled sampleWorld (Pool.idle sampleRefined) sample_run 2 returned scanning

theorem scans_settle_sample :
    2 ∈ sampleRefined.missed ∧ sampleRefined.history.head? = some (.reserved 2) := by
  have returned : 2 ∈ sampleRefined.returned := by decide
  have scanning : sampleRefined.state = .scanning 2 := by decide
  exact ((scans_settle sample_run).1 2 returned).mp scanning

end Runs

end RoLauncher.Autopot
