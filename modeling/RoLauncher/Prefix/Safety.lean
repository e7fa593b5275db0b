import Mathlib.Logic.Equiv.Basic
import RoLauncher.Prefix.Forward

/-!
# What no crash can break

Runs of the whole system: recoveries and transactions of one location follow
each other, under its exclusive guard, with any requested fingerprint, any
engine, any failure, and a kill between or inside any two calls. A crash of a
recovery from a crash is just a longer run.

Each result is an invariant of `Move`: the old payload stays whole at `R` or
at `B` until another root is committed; a backup with a tombstone is never
moved back; `P` and `M` never meet in one tree. The programs enter only
through `entry_meets`.
-/

namespace RoLauncher.Prefix

open RoLauncher.Files RoLauncher.Crash

/-! ## The system -/

/-- The programs that run at a location. -/
inductive Entry (host : Host) (location : PrefixLocation) : FsProg Unit → Prop
  | recover {pfx : ManagedPrefix} {desired : Option String} (active : Nat) :
      ManagedPrefix.at host location desired = .ok pfx →
      Entry host location (recover host pfx active).discard
  | transaction {pfx : ManagedPrefix} {desired : Option String} (process : Process)
      (fingerprint : String) (work : Work) (kind : TransactionKind) :
      ManagedPrefix.at host location desired = .ok pfx →
      Entry host location (runManagedTransaction host pfx process fingerprint work kind).discard

/-- Recoveries only. -/
inductive RecoverEntry (host : Host) (location : PrefixLocation) : FsProg Unit → Prop
  | recover {pfx : ManagedPrefix} {desired : Option String} (active : Nat) :
      ManagedPrefix.at host location desired = .ok pfx →
      RecoverEntry host location (recover host pfx active).discard

section System

variable {host : Host} {location : PrefixLocation}

theorem entry_meets (disk : Disk) (p : FsProg Unit) (h : Entry host location p) :
    p.Meets device (Move host location) (fun _ _ => True) disk := by
  cases h with
  | recover active hat =>
    rw [← ManagedPrefix.at_location hat]
    exact .discard (recover_meets_move active)
  | transaction process fingerprint work kind hat =>
    rw [← ManagedPrefix.at_location hat]
    exact .discard (transaction_meets host _ process fingerprint work kind disk)

theorem recoverEntry_meets (disk : Disk) (p : FsProg Unit) (h : RecoverEntry host location p) :
    p.Meets device (RecoverMove host location) (fun _ _ => True) disk := by
  cases h with
  | recover active hat =>
    rw [← ManagedPrefix.at_location hat]
    exact .discard (recover_meets host _ active disk)

end System

/-! ## Payload -/

/-- The tree with this identity is here, and holds all of the old payload. -/
def HoldsPayload (node : Option Node) (ino : Nat) (old : Entries) : Prop :=
  ∃ dev es, node = some (.dir ino dev es) ∧ payload es = payload old

/-- Another tree than the old one is at `R` and is committed. -/
def NewRootCommitted (host : Host) (location : PrefixLocation) (ino : Nat) (disk : Disk) : Prop :=
  ∃ ino' dev es, disk.root = some (.dir ino' dev es) ∧ ino' ≠ ino ∧ HoldsCommit host location es

/-- The records that make a tree a prefix are payload. -/
theorem Owned.of_payload {es es' : Entries} (h : Owned es) (same : payload es' = payload es) :
    Owned es' := by
  obtain ⟨name, data, hname, found⟩ := h
  have unmarked : name ∉ rootEvidence := by rcases hname with rfl | rfl <;> decide
  refine ⟨name, data, hname, ?_⟩
  rw [← find_payload unmarked, same, find_payload unmarked, found]

section OldPayload

variable {host : Host} {location : PrefixLocation} {ino : Nat} {old : Entries}

/-- The old prefix is at `R`, or it is at `B` and something else is at `R`. -/
def OldKept (ino : Nat) (old : Entries) (disk : Disk) : Prop :=
  ino < disk.nextIno ∧
    (HoldsPayload disk.root ino old ∨
      HoldsPayload disk.backup ino old ∧ ∀ dev es, disk.root ≠ some (.dir ino dev es))

/-- **One move.** While no other root is committed, the old prefix stays whole. -/
theorem OldKept.move (owned : Owned old) {disk disk' : Disk} (kept : OldKept ino old disk)
    (before : ¬ NewRootCommitted host location ino disk) (move : Move host location disk disk') :
    OldKept ino old disk' := by
  obtain ⟨fresh, ⟨dev, es, hroot, same⟩ | ⟨⟨dev, es, hbackup, same⟩, elsewhere⟩⟩ := kept
  · have here : Owned es := owned.of_payload same
    -- The old prefix is at `R`: it is owned, so no move of an unfinished root applies to it.
    cases move with
    | recovery move =>
      cases move with
      | stay => exact ⟨fresh, .inl ⟨dev, es, hroot, same⟩⟩
      | dropEmptyBackup => exact ⟨fresh, .inl ⟨dev, es, hroot, same⟩⟩
      | dropEmptyRoot found =>
        rw [hroot] at found
        cases found
        exact absurd rfl here.ne_nil
      | discard found unclaimed =>
        rw [hroot] at found
        cases found
        exact absurd unclaimed here.not_unclaimed
      | restoreBackup vacant => rw [hroot] at vacant; cases vacant
      | restoreLegacy vacant => rw [hroot] at vacant; cases vacant
      | dropStale found _ evidence =>
        rw [hroot] at found
        cases found
        exact ⟨fresh, .inl ⟨dev, _, rfl, (payload_erase evidence).trans same⟩⟩
      | invalidate => exact ⟨fresh, .inl ⟨dev, es, hroot, same⟩⟩
      | deleteBackup => exact ⟨fresh, .inl ⟨dev, es, hroot, same⟩⟩
    | preserve found =>
      rw [hroot] at found
      cases found
      exact ⟨fresh, .inr ⟨⟨dev, es, rfl, same⟩, fun _ _ h => by cases h⟩⟩
    | createRoot vacant => rw [hroot] at vacant; cases vacant
    | build found unclaimed =>
      rw [hroot] at found
      cases found
      exact absurd unclaimed here.not_unclaimed
    | commit found unclaimed =>
      rw [hroot] at found
      cases found
      exact absurd unclaimed here.not_unclaimed
  · have here : Owned es := owned.of_payload same
    -- It is at `B`: only a committed root lets a backup be touched, and that root is another one.
    have untouched : ∀ {ino' dev' : Nat} {es' : Entries},
        disk.root = some (.dir ino' dev' es') → ¬ HoldsCommit host location es' := by
      intro ino' dev' es' found commit
      refine before ⟨ino', dev', es', found, ?_, commit⟩
      rintro rfl
      exact elsewhere dev' es' found
    have inRoot : ∀ {ino' dev' : Nat} {es₁ es₂ : Entries}, disk.root = some (.dir ino' dev' es₁) →
        OldKept ino old { disk with root := some (.dir ino' dev' es₂) } := by
      intro ino' dev' es₁ es₂ found
      refine ⟨fresh, .inr ⟨⟨dev, es, hbackup, same⟩, fun _ _ h => ?_⟩⟩
      cases h
      exact elsewhere _ _ found
    cases move with
    | recovery move =>
      cases move with
      | stay => exact ⟨fresh, .inr ⟨⟨dev, es, hbackup, same⟩, elsewhere⟩⟩
      | dropEmptyBackup found =>
        rw [hbackup] at found
        cases found
        exact absurd rfl here.ne_nil
      | dropEmptyRoot => exact ⟨fresh, .inr ⟨⟨dev, es, hbackup, same⟩, fun _ _ h => by cases h⟩⟩
      | discard found => exact inRoot found
      | restoreBackup _ found =>
        rw [hbackup] at found
        cases found
        exact ⟨fresh, .inl ⟨dev, es, rfl, same⟩⟩
      | restoreLegacy _ none => rw [hbackup] at none; cases none
      | dropStale found => exact inRoot found
      | invalidate found commit => exact absurd commit (untouched found)
      | deleteBackup found commit => exact absurd commit (untouched found)
    | preserve _ _ none => rw [hbackup] at none; cases none
    | createRoot =>
      refine ⟨Nat.lt_succ_of_lt fresh, .inr ⟨⟨dev, es, hbackup, same⟩, fun _ _ h => ?_⟩⟩
      cases h
      exact absurd fresh (Nat.lt_irrefl _)
    | build found => exact inRoot found
    | commit found => exact inRoot found

end OldPayload

/-- The root of this disk is a committed or legacy-valid prefix, for some requested fingerprint. -/
def HoldsPrefix (host : Host) (location : PrefixLocation) (disk : Disk) : Prop :=
  ∃ desired pfx, ManagedPrefix.at host location desired = .ok pfx ∧
    ((∃ stale, pfx.rootClass host disk = .committed stale) ∨
      pfx.rootClass host disk = .legacyValid)

theorem HoldsPrefix.owned {host : Host} {location : PrefixLocation} {disk : Disk} {ino dev : Nat}
    {es : Entries} (h : HoldsPrefix host location disk)
    (root : disk.root = some (.dir ino dev es)) : Owned es := by
  obtain ⟨_, pfx, _, class'⟩ := h
  unfold ManagedPrefix.rootClass at class'
  rw [root, classifyRoot_dir] at class'
  rcases class' with ⟨stale, h⟩ | h
  · exact HoldsCommit.owned (validatedManifest_own (classifyEntries_committed.mp h).1)
  · obtain ⟨_, _, _, ⟨data, hd⟩, _⟩ := classifyEntries_legacyValid.mp h
    exact ⟨_, data, .inr rfl, hd⟩

/-- **No payload is lost across crashes.** Whatever runs and whatever is killed, from a disk whose
root is a committed or legacy-valid prefix: the old payload is whole, at `R` or at `B`, in every
state up to the one where another root holds a valid manifest. -/
theorem old_payload_survives {host : Host} {location : PrefixLocation} {disk : Disk}
    {ino dev : Nat} {es : Entries} {c : Config FsOp Disk IoError String}
    (valid : HoldsPrefix host location disk) (root : disk.root = some (.dir ino dev es))
    (fresh : ino < disk.nextIno)
    (run : Run device (fun _ => Entry host location) (fun d => ¬ NewRootCommitted host location ino d)
      (disk, none) c) :
    HoldsPayload c.1.root ino es ∨ HoldsPayload c.1.backup ino es := by
  have owned : Owned es := valid.owned root
  have kept : OldKept ino es c.1 := Run.invariant entry_meets
    (fun s t before move kept => OldKept.move owned kept before move) (bounded_idle disk) run
    ⟨fresh, .inl ⟨dev, es, root, rfl⟩⟩
  exact kept.2.imp id And.left

/-- A reset killed right after it moved the old prefix away. -/
theorem old_payload_survives_killed_reset :
    HoldsPayload none 1 sampleCommitted ∨
      HoldsPayload (some (.dir 1 0 sampleCommitted)) 1 sampleCommitted := by
  let committed : Node := .dir 1 0 sampleCommitted
  have before : ¬ NewRootCommitted sampleHost sampleLocation 1 (sampleDisk (some committed) none) :=
    fun ⟨_, _, _, found, other, _⟩ => other (Node.dir.inj (Option.some.inj found)).1.symm
  have after : ¬ NewRootCommitted sampleHost sampleLocation 1 (sampleDisk none (some committed)) :=
    fun ⟨_, _, _, found, _⟩ => by cases found
  have run : Run device (fun _ => Entry sampleHost sampleLocation)
      (fun d => ¬ NewRootCommitted sampleHost sampleLocation 1 d)
      (sampleDisk (some committed) none, none) (sampleDisk none (some committed), none) :=
    .tail (.tail (.tail (.tail .refl
      ⟨before, .start (.transaction sampleProcess "" sampleWork .reset sample_at)⟩)
      ⟨before, .look⟩) ⟨before, .done⟩) ⟨after, .stop⟩
  exact old_payload_survives ⟨_, _, sample_at, .inl ⟨false, by decide⟩⟩ rfl (by decide) run

/-! ## Identities -/

/-- The directory with this identity is at this entry of the parent. -/
def Disk.At (disk : Disk) (ino : Nat) (slot : Slot) : Prop :=
  ∃ dev es, disk.get slot = some (.dir ino dev es)

/-- A directory has one place, and the next identity is still free. -/
structure WellNumbered (disk : Disk) : Prop where
  place : ∀ ino slot slot', disk.At ino slot → disk.At ino slot' → slot = slot'
  free : ∀ ino slot, disk.At ino slot → ino < disk.nextIno

/-- What is there afterwards was there before, at one place each. -/
theorem WellNumbered.relocated {disk disk' : Disk} (h : WellNumbered disk)
    (same : disk'.nextIno = disk.nextIno) (origin : Slot → Slot)
    (injective : Function.Injective origin)
    (from' : ∀ ino slot, disk'.At ino slot → disk.At ino (origin slot)) : WellNumbered disk' where
  place ino slot slot' ha ha' :=
    injective (h.place ino _ _ (from' ino slot ha) (from' ino slot' ha'))
  free ino slot ha := by
    rw [same]
    exact h.free ino _ (from' ino slot ha)

/-- Rewriting what a directory holds leaves every identity in its place. -/
theorem WellNumbered.rewritten {disk : Disk} (h : WellNumbered disk) (slot : Slot)
    {ino dev : Nat} {es : Entries} (found : disk.get slot = some (.dir ino dev es))
    (fixed : slot = .root ∨ slot = .backup) (node : Option Node)
    (kept : node = none ∨ ∃ es', node = some (.dir ino dev es')) :
    WellNumbered (disk.set slot node) := by
  refine h.relocated (by rcases fixed with rfl | rfl <;> rfl) id Function.injective_id ?_
  rintro ino' slot' ⟨dev', es', h'⟩
  by_cases hs : slot' = slot
  · subst hs
    rw [Disk.get_set] at h'
    rcases kept with rfl | ⟨es₁, rfl⟩
    · cases h'
    · cases h'
      exact ⟨dev, es, found⟩
  · refine ⟨dev', es', ?_⟩
    rw [← h']
    rcases fixed with rfl | rfl <;> rcases slot' with _ | _ | name <;>
      first | rfl | exact absurd rfl hs

/-- **One move** keeps the numbering. -/
theorem WellNumbered.move {host : Host} {location : PrefixLocation} {disk disk' : Disk}
    (h : WellNumbered disk) (move : Move host location disk disk') : WellNumbered disk' := by
  cases move with
  | recovery move =>
    cases move with
    | stay => exact h
    | dropEmptyBackup found => exact h.rewritten .backup found (.inr rfl) _ (.inl rfl)
    | dropEmptyRoot found => exact h.rewritten .root found (.inl rfl) _ (.inl rfl)
    | discard found =>
      exact h.rewritten .root found (.inl rfl) _ (.inr ⟨_, rfl⟩)
    | @restoreBackup _ _ _ vacant found =>
      refine h.relocated rfl (Equiv.swap .root .backup) (Equiv.injective _) ?_
      rintro ino' slot ⟨dev', es', h'⟩
      rcases slot with _ | _ | name
      · cases h'
        rw [Equiv.swap_apply_left]
        exact ⟨_, _, found⟩
      · cases h'
      · rw [Equiv.swap_apply_of_ne_of_ne (by simp) (by simp)]
        exact ⟨dev', es', h'⟩
    | @restoreLegacy name _ _ _ vacant _ found =>
      refine h.relocated rfl (Equiv.swap .root (.sibling name)) (Equiv.injective _) ?_
      rintro ino' slot ⟨dev', es', h'⟩
      rcases slot with _ | _ | other
      · cases h'
        rw [Equiv.swap_apply_left]
        exact ⟨_, _, found⟩
      · rw [Equiv.swap_apply_of_ne_of_ne (by simp) (by simp)]
        exact ⟨dev', es', h'⟩
      · have hne : other ≠ name := by
          rintro rfl
          rw [Disk.get, Entries.find_erase_self] at h'
          cases h'
        rw [Equiv.swap_apply_of_ne_of_ne (by simp) (by simpa using hne)]
        rw [Disk.get, Entries.find_erase_of_ne hne] at h'
        exact ⟨dev', es', h'⟩
    | dropStale found =>
      exact h.rewritten .root found (.inl rfl) _ (.inr ⟨_, rfl⟩)
    | invalidate _ _ found =>
      exact h.rewritten .backup found (.inr rfl) _ (.inr ⟨_, rfl⟩)
    | deleteBackup _ _ found =>
      exact h.rewritten .backup found (.inr rfl) _ (.inr ⟨_, rfl⟩)
  | preserve found _ none =>
    refine h.relocated rfl (Equiv.swap .root .backup) (Equiv.injective _) ?_
    rintro ino' slot ⟨dev', es', h'⟩
    rcases slot with _ | _ | name
    · cases h'
    · cases h'
      rw [Equiv.swap_apply_right]
      exact ⟨_, _, found⟩
    · rw [Equiv.swap_apply_of_ne_of_ne (by simp) (by simp)]
      exact ⟨dev', es', h'⟩
  | createRoot vacant =>
    have old : ∀ ino slot, Disk.At { disk with
        root := some (.dir disk.nextIno disk.parentDev []), nextIno := disk.nextIno + 1 } ino slot →
        slot ≠ .root → disk.At ino slot := by
      rintro ino slot ⟨dev', es', h'⟩ hs
      rcases slot with _ | _ | name
      · exact absurd rfl hs
      · exact ⟨dev', es', h'⟩
      · exact ⟨dev', es', h'⟩
    have new : ∀ ino, Disk.At { disk with
        root := some (.dir disk.nextIno disk.parentDev []), nextIno := disk.nextIno + 1 } ino .root →
        ino = disk.nextIno := by
      rintro ino ⟨dev', es', h'⟩
      cases h'
      rfl
    refine ⟨fun ino slot slot' ha ha' => ?_, fun ino slot ha => ?_⟩
    · by_cases hs : slot = .root <;> by_cases hs' : slot' = .root
      · rw [hs, hs']
      · subst hs
        exact absurd (h.free _ _ (old _ _ ha' hs')) (by rw [new _ ha]; exact Nat.lt_irrefl _)
      · subst hs'
        exact absurd (h.free _ _ (old _ _ ha hs)) (by rw [new _ ha']; exact Nat.lt_irrefl _)
      · exact h.place _ _ _ (old _ _ ha hs) (old _ _ ha' hs')
    · by_cases hs : slot = .root
      · subst hs
        rw [new _ ha]
        exact Nat.lt_succ_self _
      · exact Nat.lt_succ_of_lt (h.free _ _ (old _ _ ha hs))
  | build found => exact h.rewritten .root found (.inl rfl) _ (.inr ⟨_, rfl⟩)
  | commit found => exact h.rewritten .root found (.inl rfl) _ (.inr ⟨_, rfl⟩)

/-! ## Backups in removal -/

section Tombstone

variable {host : Host} {location : PrefixLocation} {ino : Nat} {doomed : Entries}

/-- The tree is nowhere but at `B`, and what is left of it there carries a tombstone, or is nothing
at all. Nothing was ever added to it. -/
def Doomed (ino : Nat) (doomed : Entries) (disk : Disk) : Prop :=
  ino < disk.nextIno ∧
    (∀ slot, disk.At ino slot → slot = .backup) ∧
    ∀ dev es, disk.backup = some (.dir ino dev es) →
      (Removing es ∨ es = []) ∧ ∀ name, doomed.find name = none → Entries.find es name = none

/-- A tree with a tombstone, or with nothing in it, is no prefix to go back to. -/
theorem not_whole_of_doomed {es : Entries} (h : Removing es ∨ es = []) : ¬ Whole es := by
  rintro ⟨owned, noTombstone⟩
  rcases h with removing | empty
  · exact Whole.not_removing ⟨owned, noTombstone⟩ removing
  · exact owned.ne_nil empty

/-- **One move.** Only deletion goes on. -/
theorem Doomed.move {disk disk' : Disk} (h : Doomed ino doomed disk)
    (move : Move host location disk disk') : Doomed ino doomed disk' := by
  obtain ⟨fresh, only, left⟩ := h
  have notRoot : ∀ {dev es}, disk.root ≠ some (.dir ino dev es) := fun hr => by
    cases only .root ⟨_, _, hr⟩
  have inRoot : ∀ {ino' dev' : Nat} {es₁ : Entries} (node : Option Node),
      disk.root = some (.dir ino' dev' es₁) →
      (node = none ∨ ∃ es₂, node = some (.dir ino' dev' es₂)) →
      Doomed ino doomed { disk with root := node } := by
    intro ino' dev' es₁ node found kept
    refine ⟨fresh, fun slot => ?_, left⟩
    rintro ⟨dev, es, h⟩
    rcases slot with _ | _ | name
    · rcases kept with rfl | ⟨es₂, rfl⟩
      · cases h
      · cases h
        exact absurd found notRoot
    · rfl
    · exact only _ ⟨dev, es, h⟩
  cases move with
  | recovery move =>
    cases move with
    | stay => exact ⟨fresh, only, left⟩
    | dropEmptyBackup =>
      refine ⟨fresh, fun slot => ?_, fun _ _ h => by cases h⟩
      rintro ⟨dev, es, h⟩
      rcases slot with _ | _ | name
      · exact only _ ⟨dev, es, h⟩
      · rfl
      · exact only _ ⟨dev, es, h⟩
    | dropEmptyRoot found => exact inRoot _ found (.inl rfl)
    | discard found => exact inRoot _ found (.inr ⟨_, rfl⟩)
    | @restoreBackup ino' dev' es' _ found whole =>
      have other : ino' ≠ ino := by
        rintro rfl
        exact not_whole_of_doomed (left _ _ found).1 whole
      refine ⟨fresh, fun slot => ?_, fun _ _ h => by cases h⟩
      rintro ⟨dev, es, h⟩
      rcases slot with _ | _ | name
      · cases h
        exact absurd rfl other
      · rfl
      · exact only _ ⟨dev, es, h⟩
    | @restoreLegacy name ino' dev' es' _ _ found _ =>
      have other : ino' ≠ ino := by
        rintro rfl
        cases only (.sibling name) ⟨_, _, found⟩
      refine ⟨fresh, fun slot => ?_, left⟩
      rintro ⟨dev, es, h⟩
      rcases slot with _ | _ | name'
      · cases h
        exact absurd rfl other
      · rfl
      · by_cases hn : name' = name
        · subst hn
          rw [Disk.get, Entries.find_erase_self] at h
          cases h
        · rw [Disk.get, Entries.find_erase_of_ne hn] at h
          exact only _ ⟨dev, es, h⟩
    | dropStale found => exact inRoot _ found (.inr ⟨_, rfl⟩)
    | @invalidate ino' dev' _ _ es' _ _ _ _ _ found whole _ =>
      have other : ino' ≠ ino := by
        rintro rfl
        exact not_whole_of_doomed (left _ _ found).1 whole
      refine ⟨fresh, fun slot => ?_, fun _ _ h => ?_⟩
      · rintro ⟨dev, es, h⟩
        rcases slot with _ | _ | name
        · exact only _ ⟨dev, es, h⟩
        · rfl
        · exact only _ ⟨dev, es, h⟩
      · cases h
        exact absurd rfl other
    | deleteBackup _ _ found _ part still =>
      refine ⟨fresh, fun slot => ?_, fun _ _ h => ?_⟩
      · rintro ⟨dev, es, h⟩
        rcases slot with _ | _ | name
        · exact only _ ⟨dev, es, h⟩
        · rfl
        · exact only _ ⟨dev, es, h⟩
      · cases h
        exact ⟨still, fun name absent => part.find_eq_none ((left _ _ found).2 name absent)⟩
  | @preserve ino' _ _ found =>
    have other : ino' ≠ ino := by
      rintro rfl
      exact notRoot found
    refine ⟨fresh, fun slot => ?_, fun _ _ h => ?_⟩
    · rintro ⟨dev, es, h⟩
      rcases slot with _ | _ | name
      · cases h
      · rfl
      · exact only _ ⟨dev, es, h⟩
    · cases h
      exact absurd rfl other
  | createRoot =>
    refine ⟨Nat.lt_succ_of_lt fresh, fun slot => ?_, left⟩
    rintro ⟨dev, es, h⟩
    rcases slot with _ | _ | name
    · cases h
      exact absurd fresh (Nat.lt_irrefl _)
    · rfl
    · exact only _ ⟨dev, es, h⟩
  | build found => exact inRoot _ found (.inr ⟨_, rfl⟩)
  | commit found => exact inRoot _ found (.inr ⟨_, rfl⟩)

end Tombstone

section CommitPoint

variable {host : Host} {location : PrefixLocation}

/-- No tree here carries both `P` and `M`. -/
def Exclusive (disk : Disk) : Prop :=
  ∀ slot ino dev es, disk.get slot = some (.dir ino dev es) →
    Entries.find es provisioningMarker = none ∨ Entries.find es prefixMarker = none

theorem Exclusive.rewritten {disk : Disk} (h : Exclusive disk) (slot : Slot)
    (fixed : slot = .root ∨ slot = .backup) (node : Option Node)
    (kept : ∀ ino dev es, node = some (.dir ino dev es) →
      Entries.find es provisioningMarker = none ∨ Entries.find es prefixMarker = none) :
    Exclusive (disk.set slot node) := by
  intro slot' ino dev es found
  by_cases hs : slot' = slot
  · subst hs
    rw [Disk.get_set] at found
    exact kept ino dev es found
  · refine h slot' ino dev es ?_
    rw [← found]
    rcases fixed with rfl | rfl <;> rcases slot' with _ | _ | name <;>
      first | rfl | exact absurd rfl hs

theorem Exclusive.part {es es' : Entries} (part : PartOf es' es)
    (h : es.find provisioningMarker = none ∨ es.find prefixMarker = none) :
    es'.find provisioningMarker = none ∨ es'.find prefixMarker = none :=
  h.imp part.find_eq_none part.find_eq_none

/-- **One move** never brings `P` and `M` together. -/
theorem Exclusive.move {disk disk' : Disk} (h : Exclusive disk)
    (move : Move host location disk disk') : Exclusive disk' := by
  have gone : ∀ ino dev es, (none : Option Node) = some (.dir ino dev es) →
      Entries.find es provisioningMarker = none ∨ Entries.find es prefixMarker = none :=
    fun _ _ _ h => by cases h
  cases move with
  | recovery move =>
    cases move with
    | stay => exact h
    | dropEmptyBackup => exact h.rewritten .backup (.inr rfl) none gone
    | dropEmptyRoot => exact h.rewritten .root (.inl rfl) none gone
    | discard found _ _ part =>
      refine h.rewritten .root (.inl rfl) _ fun _ _ _ he => ?_
      cases he
      exact Exclusive.part part (h .root _ _ _ found)
    | restoreBackup _ found =>
      refine (h.rewritten .backup (.inr rfl) none gone).rewritten .root (.inl rfl) _
        fun _ _ _ he => ?_
      cases he
      exact h .backup _ _ _ found
    | @restoreLegacy name _ _ _ _ _ found =>
      intro slot ino dev es he
      rcases slot with _ | _ | other
      · cases he
        exact h (.sibling name) _ _ _ found
      · exact h .backup _ _ _ he
      · by_cases hn : other = name
        · subst hn
          rw [Disk.get, Entries.find_erase_self] at he
          cases he
        · rw [Disk.get, Entries.find_erase_of_ne hn] at he
          exact h (.sibling other) _ _ _ he
    | dropStale found =>
      refine h.rewritten .root (.inl rfl) _ fun _ _ _ he => ?_
      cases he
      exact Exclusive.part (.erase _ _) (h .root _ _ _ found)
    | @invalidate _ _ _ _ es _ source tombstone _ _ found _ names =>
      refine h.rewritten .backup (.inr rfl) _ fun _ _ _ he => ?_
      cases he
      have moved : ∀ name, name ≠ source → name ≠ tombstone →
          (es.move source tombstone).find name = es.find name := fun name hs ht =>
        Entries.find_move_of_ne hs ht
      refine (h .backup _ _ _ found).imp (fun hp => ?_) fun hm => ?_
      · rcases names with ⟨rfl, rfl⟩ | ⟨rfl, rfl⟩ <;>
          exact (moved _ (by decide) (by decide)).trans hp
      · rcases names with ⟨rfl, rfl⟩ | ⟨rfl, rfl⟩
        · unfold Entries.move
          rw [hm]
          exact hm
        · exact (moved _ (by decide) (by decide)).trans hm
    | deleteBackup _ _ found _ part =>
      refine h.rewritten .backup (.inr rfl) _ fun _ _ _ he => ?_
      cases he
      exact Exclusive.part part (h .backup _ _ _ found)
  | preserve found =>
    refine (h.rewritten .root (.inl rfl) none gone).rewritten .backup (.inr rfl) _
      fun _ _ _ he => ?_
    cases he
    exact h .root _ _ _ found
  | createRoot =>
    intro slot ino dev es he
    rcases slot with _ | _ | name
    · cases he
      exact .inl rfl
    · exact h .backup _ _ _ he
    · exact h (.sibling name) _ _ _ he
  | build _ _ after =>
    refine h.rewritten .root (.inl rfl) _ fun _ _ _ he => ?_
    cases he
    exact .inr after.1
  | commit _ _ noAuthority =>
    refine h.rewritten .root (.inl rfl) _ fun _ _ _ he => ?_
    cases he
    exact .inl noAuthority

/-! ### A pending confirmation -/

/-- `R` carries `C`, and no valid manifest: a commit that may or may not have happened. -/
def CommitInDoubt (host : Host) (location : PrefixLocation) (disk : Disk) : Prop :=
  ∃ (ino dev : Nat) (es : Entries), disk.root = some (.dir ino dev es) ∧
    es.find commitPendingMarker ≠ none ∧ ¬ HoldsCommit host location es

variable {pfx : ManagedPrefix} {disk : Disk}

theorem CommitInDoubt.rootClass (h : CommitInDoubt host pfx.location disk) :
    pfx.rootClass host disk = .commitPending ∨ ∃ reason, pfx.rootClass host disk = .foreign reason := by
  obtain ⟨ino, dev, es, found, hC, invalid⟩ := h
  have noAuthority : ∀ name, transactionMarker es ≠ .ok (some (name, true)) := fun name hm =>
    hC (transactionMarker_authority.mp hm).2.2
  have marked : transactionMarker es ≠ .ok none := fun hm => hC (transactionMarker_none.mp hm).2
  unfold ManagedPrefix.rootClass
  rw [found, classifyRoot_dir]
  generalize hstate : classifyEntries host pfx.location (pfx.identity host _) es _ = state
  cases state with
  | commitPending => exact .inl rfl
  | foreign reason => exact .inr ⟨reason, rfl⟩
  | absent => exact absurd hstate classifyEntries_ne_absent
  | empty =>
    rw [classifyEntries_empty] at hstate
    subst hstate
    exact absurd rfl hC
  | pendingMarker =>
    rw [classifyEntries_pendingMarker] at hstate
    exact absurd (find_of_holdsOnlyPendingTmp hstate (by decide)) hC
  | provisioning =>
    rw [classifyEntries_provisioning] at hstate
    exact absurd hstate.2.1 (noAuthority _)
  | committed stale =>
    rw [classifyEntries_committed] at hstate
    exact absurd (validatedManifest_own hstate.1) invalid
  | legacyValid =>
    rw [classifyEntries_legacyValid] at hstate
    exact absurd hstate.2.1 marked

theorem CommitInDoubt.evidence (h : CommitInDoubt host location disk) :
    rootHoldsTransactionEvidence disk.root = true := by
  obtain ⟨ino, dev, es, found, hC, _⟩ := h
  rw [found]
  refine List.any_eq_true.mpr ⟨commitPendingMarker, by decide, ?_⟩
  rw [child_dir]
  exact Option.isSome_iff_ne_none.mpr hC

/-- Recovery refuses a commit in doubt, whatever else is on the disk. -/
theorem CommitInDoubt.assess_error (h : CommitInDoubt host pfx.location disk) :
    ∃ message, assess host pfx disk = .error message := by
  cases ha : assess host pfx disk with
  | error message => exact ⟨message, rfl⟩
  | ok a =>
    obtain ⟨root, _, _, _, planned, reported⟩ := assess_ok ha
    rcases h.rootClass with hc | ⟨reason, hc⟩
    · rw [show a.rootState = .commitPending from root.trans hc] at planned
      obtain ⟨message, refused⟩ := plan_commitPending a.backupState
        (legacyRestorable host pfx disk (pfx.identity host disk.root) .commitPending a.backupState)
      rw [refused] at planned
      cases planned
    · rw [show a.rootState = .foreign reason from root.trans hc] at planned
      have none := (plan_foreign planned).1
      have := reported none
      rw [h.evidence] at this
      cases this

/-- The relation of programs that leave this disk as it is. -/
abbrev Unchanged (disk : Disk) : Disk → Disk → Prop := fun _ t => t = disk

theorem CommitInDoubt.recover_unchanged (h : CommitInDoubt host pfx.location disk) (active : Nat) :
    (recover host pfx active).Meets device (Unchanged disk)
      (fun r t => t = disk ∧ ∃ message, r = .error message) disk := by
  obtain ⟨message, refused⟩ := h.assess_error
  change Prog.Meets device _ (do let a ← Prog.ofExcept (assess host pfx disk); pfx.carryOut active a)
    _ disk
  rw [refused]
  exact ⟨rfl, message, rfl⟩

theorem CommitInDoubt.reconcile_unchanged {α : Type} (h : CommitInDoubt host pfx.location disk)
    (process : Process) (primary : String) :
    (reconcile host pfx process primary : FsProg α).Meets device (Unchanged disk)
      (fun _ _ => True) disk := by
  refine Prog.Meets.bind (Prog.Meets.attempt ((h.recover_unchanged process.active).post ?_))
  rintro r t ⟨_, message, rfl⟩
  trivial

/-- A transaction begun over a commit in doubt is refused, and its rollback does nothing. -/
theorem CommitInDoubt.transaction_unchanged (h : CommitInDoubt host pfx.location disk)
    (process : Process) (fingerprint : String) (work : Work) (kind : TransactionKind) :
    (runManagedTransaction host pfx process fingerprint work kind).Meets device (Unchanged disk)
      (fun _ _ => True) disk := by
  have refusedOpen : (pfx.openRoot host).Meets device (Unchanged disk)
      (fun r t => t = disk ∧ ∃ message, r = .error message) disk := by
    refine Prog.meets_look ?_
    rcases h.rootClass with hc | ⟨reason, hc⟩ <;> rw [hc] <;> exact ⟨rfl, _, rfl⟩
  have refusedBegin : (pfx.beginProvisioning host process fingerprint).Meets device
      (Unchanged disk) (fun r t => t = disk ∧ ∃ message, r = .error message) disk := by
    refine Prog.Meets.bind (Prog.meets_ofExcept ?_)
    cases pfx.transactionIdentity host fingerprint with
    | error e => exact ⟨rfl, e, rfl⟩
    | ok identity =>
      refine Prog.Meets.bind (meets_idle rfl rfl rfl fun r => ?_)
      cases r with
      | error e => exact ⟨rfl, _, rfl⟩
      | ok u =>
        refine Prog.Meets.bind (refusedOpen.post ?_)
        rintro r t ⟨rfl, message, rfl⟩
        exact ⟨rfl, message, rfl⟩
  have transacted : (transact host pfx process fingerprint work).Meets device (Unchanged disk)
      (fun _ _ => True) disk := by
    refine Prog.Meets.bind (Prog.Meets.attempt (Prog.Meets.bind (Prog.Meets.mapError
      (refusedBegin.post ?_))))
    rintro r t ⟨rfl, message, rfl⟩
    change (rollback host pfx process work .held message :
      FsProg (Except String RecoveryOutcome)).Meets _ _ _ _
    unfold rollback
    dsimp only
    cases work.quiesceAgain with
    | error e => trivial
    | ok u => exact h.reconcile_unchanged process _
  cases kind with
  | initialSetup => exact transacted
  | reset =>
    have refusedReset : (pfx.preserveForReset host).Meets device (Unchanged disk)
        (fun r t => t = disk ∧ ∃ message, r = .error message) disk := by
      refine Prog.meets_look ?_
      rcases h.rootClass with hc | ⟨reason, hc⟩ <;> rw [hc] <;> exact ⟨rfl, _, rfl⟩
    refine Prog.Meets.bind (Prog.Meets.attempt (refusedReset.post ?_))
    rintro r t ⟨rfl, message, rfl⟩
    change Prog.Meets device _ (if _ then _ else _) _ _
    have present : pfx.rootClass host t ≠ .absent := by
      rcases h.rootClass with hc | ⟨reason, hc⟩ <;> rw [hc] <;> exact fun he => by cases he
    rw [if_neg (by simp [present])]
    trivial

/-! ### After the commit point -/

/-- The new root is where it is, with its manifest and all of its payload. -/
def NewRootKept (ino : Nat) (new : Entries) (disk : Disk) : Prop :=
  ∃ dev es, disk.root = some (.dir ino dev es) ∧ payload es = payload new

/-- **One move** of a recovery keeps a root that has a manifest. -/
theorem NewRootKept.move {ino : Nat} {new : Entries} (owned : Owned new) {disk disk' : Disk}
    (h : NewRootKept ino new disk) (move : RecoverMove host location disk disk') :
    NewRootKept ino new disk' := by
  obtain ⟨dev, es, found, same⟩ := h
  have here : Owned es := owned.of_payload same
  cases move with
  | stay => exact ⟨dev, es, found, same⟩
  | dropEmptyBackup => exact ⟨dev, es, found, same⟩
  | dropEmptyRoot found' =>
    rw [found] at found'
    cases found'
    exact absurd rfl here.ne_nil
  | discard found' unclaimed =>
    rw [found] at found'
    cases found'
    exact absurd unclaimed here.not_unclaimed
  | restoreBackup vacant => rw [found] at vacant; cases vacant
  | restoreLegacy vacant => rw [found] at vacant; cases vacant
  | dropStale found' _ evidence =>
    rw [found] at found'
    cases found'
    exact ⟨dev, _, rfl, (payload_erase evidence).trans same⟩
  | invalidate => exact ⟨dev, es, found, same⟩
  | deleteBackup => exact ⟨dev, es, found, same⟩

/-- With the authority gone, what is left of a process is at most one recovery. -/
theorem rollback_revoked_meets {α : Type} (process : Process) (work : Work) (message : String) :
    (rollback host pfx process work .revoked message : FsProg α).Meets device
      (RecoverMove host pfx.location) (fun _ _ => True) disk := by
  unfold rollback
  dsimp only
  cases work.quiesceAgain with
  | error e => trivial
  | ok u =>
    refine Prog.Meets.bind (Prog.Meets.attempt
      ((recover_meets host pfx process.active disk).post ?_))
    intro r t _
    cases r with
    | error e => trivial
    | ok outcome =>
      dsimp only
      split <;> trivial

/-- A failure after the rename leaves a root with its manifest. -/
theorem forward_revoked {process : Process} {fingerprint message : String} {work : Work} {t : Disk}
    (ends : Prog.Ends device (forward host pfx process fingerprint work) disk
      (.error (.revoked, message)) t) :
    ∃ ino dev es, t.root = some (.dir ino dev es) ∧ Renamed es := by
  have bound : (forward host pfx process fingerprint work).Meets device (Move host pfx.location)
      (fun r t => ∀ m, r = .error (.revoked, m) →
        ∃ ino dev es, t.root = some (.dir ino dev es) ∧ Renamed es) disk := by
    refine Prog.Meets.bind (Prog.Meets.mapError
      ((beginProvisioning_meets process fingerprint).post fun r t hr => ?_))
    cases r with
    | error e => exact fun m he => by cases he
    | ok u =>
      obtain ⟨identity, _, begun⟩ := hr rfl
      obtain ⟨ino, dev, n, _, rfl⟩ := begun rfl
      have bound : (provisionAndCommit pfx process work).Meets device (Move host pfx.location)
          (Stopped { disk with nextIno := n } ino dev (pfx.recordBlob host process identity))
          (({ disk with nextIno := n } : Disk).withRoot ino dev
            [(provisioningMarker, .file (pfx.recordBlob host process identity))]) :=
        provisionAndCommit_meets (.single _ _) work
      refine bound.post fun r t hr m hm => ?_
      subst hm
      obtain ⟨es, rfl, renamed⟩ := hr
      exact ⟨ino, dev, es, rfl, renamed⟩
  exact bound.ends ends message rfl

end CommitPoint

/-- **The commit point is exclusive.** (1) In no state of any run does a tree carry both `P` and
`M`. (2) A root that carries `C` without a valid manifest is left exactly as it is: every recovery
refuses it, and so does every other program that finds it, in every run. (3) After a commit that
failed past the rename, the new root keeps its identity and its payload through the rest of that
process, wherever it fails or is killed, and through every later recovery. -/
theorem commit_point_exclusive (host : Host) (location : PrefixLocation) :
    (∀ start c, Exclusive start →
        Run device (fun _ => Entry host location) (fun _ => True) (start, none) c → Exclusive c.1) ∧
      (∀ disk, CommitInDoubt host location disk →
        (∀ desired pfx active, ManagedPrefix.at host location desired = .ok pfx →
          ∃ message, (recover host pfx active).exec device disk = (.error message, disk)) ∧
        ∀ c, Run device (fun _ => Entry host location) (fun _ => True) (disk, none) c → c.1 = disk) ∧
      ∀ desired pfx process fingerprint work disk message failed c,
        ManagedPrefix.at host location desired = .ok pfx →
        Prog.Ends device (forward host pfx process fingerprint work) disk
          (.error (.revoked, message)) failed →
        Run device (fun _ => RecoverEntry host location) (fun _ => True)
          (failed, some (rollback host pfx process work .revoked message : FsProg Unit)) c →
        ∃ ino dev es, failed.root = some (.dir ino dev es) ∧ Renamed es ∧ NewRootKept ino es c.1 := by
  refine ⟨fun start c exclusive run => ?_, fun disk doubt => ⟨?_, fun c run => ?_⟩, ?_⟩
  · exact Run.invariant entry_meets (fun s t _ move h => h.move move) (bounded_idle start) run
      exclusive
  · intro desired pfx active hat
    rw [← ManagedPrefix.at_location hat] at doubt
    obtain ⟨same, message, failed⟩ := (doubt.recover_unchanged active).exec
    exact ⟨message, Prod.ext failed same⟩
  · refine Run.frozen (fun p hp => ?_) run
    cases hp with
    | recover active hat =>
      rw [← ManagedPrefix.at_location hat] at doubt
      exact .discard ((doubt.recover_unchanged active).post fun _ _ _ => trivial)
    | transaction process fingerprint work kind hat =>
      rw [← ManagedPrefix.at_location hat] at doubt
      exact .discard (doubt.transaction_unchanged process fingerprint work kind)
  · intro desired pfx process fingerprint work disk message failed c hat ends run
    obtain ⟨ino, dev, es, found, renamed⟩ := forward_revoked ends
    have owned : Owned es := by
      obtain ⟨⟨json, hjson⟩, _⟩ := renamed
      exact ⟨_, _, .inl rfl, hjson⟩
    have bounded : Bounded device (RecoverMove host location)
        (failed, some (rollback host pfx process work .revoked message : FsProg Unit)) := by
      intro p hp
      cases hp
      rw [← ManagedPrefix.at_location hat]
      exact rollback_revoked_meets process work message
    exact ⟨ino, dev, es, found, renamed, Run.invariant recoverEntry_meets
      (fun s t _ move h => h.move owned move) bounded run ⟨dev, es, found, rfl⟩⟩

/-- All three, of a reset killed anywhere, of a root left by a kill between the revocation and the
rename of the manifest, and of a first setup whose last sync failed and whose process was killed
before it could do anything about it. -/
theorem commit_point_exclusive_pending :
    let reset := (runManagedTransaction sampleHost samplePrefix sampleProcess "" sampleWork
      .reset).discard
    let pending := sampleDisk (some (.dir 1 0 [(commitPendingMarker, .file (.text "P"))])) none
    (∀ n, Exclusive (reset.killedAfter device n
      (sampleDisk (some (.dir 1 0 sampleCommitted)) none))) ∧
    (∃ message, (recover sampleHost samplePrefix 0).exec device pending =
      (.error message, pending)) ∧
    ∃ message failed ino es, Prog.Ends device
        (forward sampleHost samplePrefix sampleProcess "" sampleWork) (sampleDisk none none)
        (.error (.revoked, message)) failed ∧ Renamed es ∧
      ∀ n, NewRootKept ino es ((recover sampleHost samplePrefix 0).discard.killedAfter device n
        failed) := by
  intro reset pending
  obtain ⟨exclusive, doubtful, renamed⟩ := commit_point_exclusive sampleHost sampleLocation
  refine ⟨fun n => ?_, ?_, ?_⟩
  · have start : Exclusive (sampleDisk (some (.dir 1 0 sampleCommitted)) none) := by
      rintro slot ino dev es found
      rcases slot with _ | _ | name <;> cases found
      exact .inl rfl
    have resettable : Entry sampleHost sampleLocation reset :=
      .transaction sampleProcess "" sampleWork .reset sample_at
    have run : Run device (fun _ => Entry sampleHost sampleLocation) (fun _ => True)
        (sampleDisk (some (.dir 1 0 sampleCommitted)) none, none)
        (reset.killedAfter device n (sampleDisk (some (.dir 1 0 sampleCommitted)) none), none) :=
      Run.killedAfter resettable n
    exact exclusive _ _ start run
  · exact (doubtful _ ⟨1, 0, _, rfl, by decide, fun h => by cases h⟩).1 none samplePrefix 0 sample_at
  · let unsynced : IoError := ⟨false, "Input/output error (os error 5)"⟩
    have ends : ∃ message failed, Prog.Ends device
        (forward sampleHost samplePrefix sampleProcess "" sampleWork) (sampleDisk none none)
        (.error (.revoked, message)) failed :=
      ⟨_, _, .done (.look (.done (.done (.done (.done (.done (.done (.done (.done (.done (.done
        (.done (.look (.done (.done (.done (.fault (e := unsynced) (.inl rfl)
          (.fail _ _))))))))))))))))))⟩
    obtain ⟨message, failed, ends⟩ := ends
    have kept (n : Nat) := renamed none samplePrefix sampleProcess "" sampleWork _ message failed
      _ sample_at ends (.head ⟨trivial, .stop⟩
        (Run.killedAfter (.recover 0 sample_at) n))
    obtain ⟨ino, _, es, root, new, _⟩ := kept 0
    refine ⟨message, failed, ino, es, ends, new, fun n => ?_⟩
    obtain ⟨ino', _, es', root', _, still⟩ := kept n
    rw [root] at root'
    cases root'
    exact still

end RoLauncher.Prefix
