import RoLauncher.Prefix.Transaction

/-!
# What recovery and a transaction may do to the disk

The abstract protocol. `RecoverMove` and `Move` say what one durable change
may be, in terms of the evidence the disk holds at that moment: a tree is
thinned out only under `P` or under a tombstone next to a committed root, it
is moved back only while it is whole, and a manifest enters only a root
without `P`. No move mentions a program, a process or its memory.

`recover_meets` and `transaction_meets` connect the programs to it: from
every disk, however their calls are disturbed, each change they make is such
a move. What holds along every run is then argued on moves alone.
-/

namespace RoLauncher.Prefix

open RoLauncher.Files RoLauncher.Crash

/-! ## Evidence -/

/-- The identity rule without another claim to compare with. -/
def ownIdentity (host : Host) (location : PrefixLocation) : Option V3Identity :=
  (v3PathSuffix host location).map fun suffix => { suffix, anchor := none }

/-- `M` commits a prefix for this location. -/
def HoldsCommit (host : Host) (location : PrefixLocation) (es : Entries) : Prop :=
  validatedManifest host location (ownIdentity host location) es prefixMarker = .ok ()

/-- The tree carries a record that makes it a prefix of the launcher. -/
def Owned (es : Entries) : Prop :=
  ∃ name data, (name = prefixMarker ∨ name = legacyPrefixMarker) ∧ es.find name = some (.file data)

/-- The tree is a prefix and nobody has begun to remove it. -/
def Whole (es : Entries) : Prop := Owned es ∧ backupTombstone es = .ok none

/-- Neither a manifest nor a legacy marker: the tree was never a prefix. -/
def Unclaimed (es : Entries) : Prop :=
  es.find prefixMarker = none ∧ es.find legacyPrefixMarker = none

/-- `P`, or only the temporary it is written through. -/
def Authorized (es : Entries) : Prop :=
  (∃ data, es.find provisioningMarker = some (.file data)) ∨
    ∀ name ∈ es.names, name = provisioningMarkerTmp

/-- A tombstone is present. -/
def Removing (es : Entries) : Prop :=
  es.find backupRemovingManifest ≠ none ∨ es.find backupRemovingLegacy ≠ none

theorem validatedManifest_own {host : Host} {pfx : ManagedPrefix} {root : Option Node}
    {es : Entries} {name : String}
    (h : validatedManifest host pfx.location (pfx.identity host root) es name = .ok ()) :
    validatedManifest host pfx.location (ownIdentity host pfx.location) es name = .ok () := by
  unfold validatedManifest at h ⊢
  cases hr : readManifest host.serde (es.find name) with
  | error reason => rw [hr] at h; cases h
  | ok manifest =>
    rw [hr] at h
    have weaker := committedManifest_weaken h
    rw [ManagedPrefix.identity, Option.map_map] at weaker
    exact weaker

theorem HoldsCommit.owned {host : Host} {location : PrefixLocation} {es : Entries}
    (h : HoldsCommit host location es) : Owned es := by
  obtain ⟨data, hd⟩ := validatedManifest_file h
  exact ⟨_, data, .inl rfl, hd⟩

theorem HoldsCommit.congr {host : Host} {location : PrefixLocation} {es es' : Entries}
    (h : HoldsCommit host location es) (same : es'.find prefixMarker = es.find prefixMarker) :
    HoldsCommit host location es' := by
  unfold HoldsCommit validatedManifest
  rw [same]
  exact h

theorem Owned.not_unclaimed {es : Entries} (h : Owned es) : ¬ Unclaimed es := by
  obtain ⟨name, data, rfl | rfl, hd⟩ := h
  · exact fun hu => by rw [hu.1] at hd; cases hd
  · exact fun hu => by rw [hu.2] at hd; cases hd

theorem Owned.ne_nil {es : Entries} (h : Owned es) : es ≠ [] := by
  rintro rfl
  exact h.not_unclaimed ⟨rfl, rfl⟩

theorem Whole.not_removing {es : Entries} (h : Whole es) : ¬ Removing es := by
  obtain ⟨hm, hl⟩ := backupTombstone_none.mp h.2
  rintro (hr | hr)
  · exact hr hm
  · exact hr hl

/-! ## Moves -/

/-- One durable change that recovery may make. -/
inductive RecoverMove (host : Host) (location : PrefixLocation) : Disk → Disk → Prop
  | stay (disk : Disk) : RecoverMove host location disk disk
  | dropEmptyBackup {disk : Disk} {ino dev : Nat} :
      disk.backup = some (.dir ino dev []) →
      RecoverMove host location disk { disk with backup := none }
  | dropEmptyRoot {disk : Disk} {ino dev : Nat} :
      disk.root = some (.dir ino dev []) →
      RecoverMove host location disk { disk with root := none }
  | discard {disk : Disk} {ino dev : Nat} {es es' : Entries} :
      disk.root = some (.dir ino dev es) → Unclaimed es → Authorized es → PartOf es' es →
      RecoverMove host location disk { disk with root := some (.dir ino dev es') }
  | restoreBackup {disk : Disk} {ino dev : Nat} {es : Entries} :
      disk.root = none → disk.backup = some (.dir ino dev es) → Whole es →
      RecoverMove host location disk
        { disk with root := some (.dir ino dev es), backup := none }
  | restoreLegacy {disk : Disk} {name : String} {ino dev : Nat} {es : Entries} :
      disk.root = none → disk.backup = none → disk.siblings.find name = some (.dir ino dev es) →
      Whole es →
      RecoverMove host location disk
        { disk with root := some (.dir ino dev es), siblings := disk.siblings.erase name }
  | dropStale {disk : Disk} {ino dev : Nat} {es : Entries} {name : String} :
      disk.root = some (.dir ino dev es) → HoldsCommit host location es → name ∈ rootEvidence →
      RecoverMove host location disk { disk with root := some (.dir ino dev (es.erase name)) }
  | invalidate {disk : Disk} {ino dev ino' dev' : Nat} {es es' : Entries}
      {source tombstone : String} :
      disk.root = some (.dir ino' dev' es') → HoldsCommit host location es' →
      disk.backup = some (.dir ino dev es) → Whole es →
      source = prefixMarker ∧ tombstone = backupRemovingManifest ∨
        source = legacyPrefixMarker ∧ tombstone = backupRemovingLegacy →
      RecoverMove host location disk
        { disk with backup := some (.dir ino dev (es.move source tombstone)) }
  | deleteBackup {disk : Disk} {ino dev ino' dev' : Nat} {es es' left : Entries} :
      disk.root = some (.dir ino' dev' es') → HoldsCommit host location es' →
      disk.backup = some (.dir ino dev es) → Removing es → PartOf left es →
      (Removing left ∨ left = []) →
      RecoverMove host location disk { disk with backup := some (.dir ino dev left) }

/-- One durable change that a transaction, or a recovery, may make. -/
inductive Move (host : Host) (location : PrefixLocation) : Disk → Disk → Prop
  | recovery {disk disk' : Disk} : RecoverMove host location disk disk' →
      Move host location disk disk'
  | preserve {disk : Disk} {ino dev : Nat} {es : Entries} :
      disk.root = some (.dir ino dev es) → Owned es → disk.backup = none →
      Move host location disk { disk with root := none, backup := some (.dir ino dev es) }
  | createRoot {disk : Disk} : disk.root = none →
      Move host location disk
        { disk with
          root := some (.dir disk.nextIno disk.parentDev [])
          nextIno := disk.nextIno + 1 }
  | build {disk : Disk} {ino dev : Nat} {es es' : Entries} :
      disk.root = some (.dir ino dev es) → Unclaimed es → Unclaimed es' →
      Move host location disk { disk with root := some (.dir ino dev es') }
  | commit {disk : Disk} {ino dev : Nat} {es es' : Entries} :
      disk.root = some (.dir ino dev es) → Unclaimed es →
      es'.find provisioningMarker = none → es'.find legacyPrefixMarker = none →
      Move host location disk { disk with root := some (.dir ino dev es') }

theorem Move.stay {host : Host} {location : PrefixLocation} (disk : Disk) :
    Move host location disk disk := .recovery (.stay disk)

/-! ## The deletion loop -/

section Deletion

variable {R : Disk → Disk → Prop} {disk : Disk} {slot : Slot} {last : String}
  {io : IoError → String} {ino dev : Nat}

theorem removeFileIfPresent_meets {slot : Slot} {name : String} {disk : Disk}
    {Q : Except String Unit → Disk → Prop} (stay : R disk disk) (any : ∀ r, Q r disk)
    (done : (execOp (.removeFile slot name) disk).1 = .ok () →
      R disk (execOp (.removeFile slot name) disk).2 ∧
        Q (.ok ()) (execOp (.removeFile slot name) disk).2) :
    (removeFileIfPresent slot name io).Meets device R Q disk := by
  refine meets_act rfl stay (fun e => ?_) done
  dsimp only
  split
  · exact any _
  · exact any _

/-- The directory at `slot` reduced to these entries. -/
private abbrev reduced (disk : Disk) (slot : Slot) (ino dev : Nat) (es : Entries) : Disk :=
  disk.set slot (some (.dir ino dev es))

/-- **One round.** An entry other than the authorizing one goes, whole or in part. -/
private theorem deleteEntry_meets {es : Entries} {name : String} (other : name ≠ last)
    {Q : Except String Unit → Disk → Prop}
    (thin : ∀ es' : Entries, PartOf es' es → es'.find last = es.find last →
      R (reduced disk slot ino dev es) (reduced disk slot ino dev es') ∧
        ∀ e, Q (.error e) (reduced disk slot ino dev es'))
    (done : Q (.ok ()) (reduced disk slot ino dev (es.erase name))) :
    (deleteEntry slot io name).Meets device R Q (reduced disk slot ino dev es) := by
  have found : (reduced disk slot ino dev es).get slot = some (.dir ino dev es) :=
    Disk.get_set _ _ _
  have erased := thin (es.erase name) (.erase es name) (Entries.find_erase_of_ne other.symm)
  have same := thin es (.refl es) rfl
  refine Prog.meets_look ?_
  rw [found, child_dir]
  split
  next ino' dev' es' hname =>
    have hexec : execOp (.removeDirAll slot name) (reduced disk slot ino dev es) =
        (.ok (), (reduced disk slot ino dev es).set slot (some (.dir ino dev (es.erase name)))) :=
      inside_ok found (by simp only [hname])
    rw [Disk.set_set] at hexec
    refine Prog.meets_perform ?_ ?_ ?_ ?_
    · rintro t (rfl | ⟨ino₁, dev₁, es₁, left, hfound, torn, rfl⟩)
      · exact ⟨same.1, fun e => same.2 _⟩
      · change (reduced disk slot ino dev es).get slot = _ at hfound
        rw [found] at hfound
        cases hfound
        change R _ ((reduced disk slot ino dev es).set slot _) ∧
          ∀ e, Q (.error (io e)) ((reduced disk slot ino dev es).set slot _)
        rw [Disk.set_set]
        have cut : ∀ left : Entries, PartOf left es → left.find last = es.find last →
            R (reduced disk slot ino dev es) (reduced disk slot ino dev left) ∧
              ∀ e, Q (.error (io e)) (reduced disk slot ino dev left) := fun left part same =>
          ⟨(thin left part same).1, fun e => (thin left part same).2 _⟩
        rcases torn with rfl | ⟨node, node', hnode, part, rfl⟩
        · exact cut _ (.erase es name) (Entries.find_erase_of_ne other.symm)
        · exact cut _ (.thin hnode part) (Entries.find_thin_of_ne other.symm)
    · change R _ (execOp _ _).2
      rw [hexec]
      exact erased.1
    · intro _
      change Q _ (execOp _ _).2
      rw [hexec]
      exact done
    · intro e he
      change (execOp _ _).1 = _ at he
      rw [hexec] at he
      cases he
  next =>
    refine meets_atomic rfl same.1 (fun e => same.2 _) fun ok => ?_
    obtain ⟨ino₁, dev₁, es₁, hfound, _, moved⟩ := removeFile_success ok
    rw [found] at hfound
    cases hfound
    rw [moved, Disk.set_set]
    exact ⟨erased.1, done⟩

/-- What deleting the directory at `slot` ends with, when it reports success. -/
def Deleted (disk : Disk) (slot : Slot) (r : Except String Unit) (t : Disk) : Prop :=
  r = .ok () → t = disk.set slot none

/-- **The whole deletion**, under a guard `G` that lasts as long as the
authorizing entry does. The loop keeps: what is listed is the authorizing
entry or still to come. So when that entry goes, nothing else is left. -/
theorem deleteTreeLast_meets {G : Entries → Prop}
    (refl : ∀ t, R t t)
    (thin : ∀ es es' : Entries, G es → PartOf es' es → es'.find last = es.find last →
      R (reduced disk slot ino dev es) (reduced disk slot ino dev es') ∧ G es')
    (final : ∀ es : Entries, G es → es.erase last = [] →
      R (reduced disk slot ino dev es) (reduced disk slot ino dev []))
    (gone : R (reduced disk slot ino dev []) (disk.set slot none))
    {es : Entries} (guard : G es) :
    (deleteTreeLast slot last io).Meets device R (Deleted disk slot)
      (reduced disk slot ino dev es) := by
  have found : ∀ es, (reduced disk slot ino dev es).get slot = some (.dir ino dev es) :=
    fun es => Disk.get_set _ _ _
  -- What the rest of the program finds once the loop is over.
  have ending : ∀ left,
      (do .perform (.syncDir slot) io
          .perform (.removeDir slot) io : FsProg Unit).Meets device R (Deleted disk slot)
        (reduced disk slot ino dev left) := by
    intro left
    refine Prog.Meets.bind (meets_idle rfl (syncDir_idle slot) (refl _) fun r => ?_)
    cases r with
    | error e => exact fun h => by cases h
    | ok u =>
      refine meets_atomic rfl (refl _) (fun e h => by cases h) fun ok => ?_
      obtain ⟨ino₁, hfound, moved⟩ := removeDir_success ok
      rw [found] at hfound
      injection Option.some.inj hfound with _ _ empty
      rw [moved, Disk.set_set, empty]
      exact ⟨gone, fun _ => rfl⟩
  refine Prog.meets_look ?_
  rw [found]
  refine Prog.Meets.bind (Prog.Meets.forM
    (I := fun items t => (∀ x ∈ items, x ≠ last) ∧ ∃ left, t = reduced disk slot ino dev left ∧
      G left ∧ ∀ name ∈ left.names, name = last ∨ name ∈ items) ?_ ?_ ?_)
  · refine ⟨fun x hx => by simpa using (List.mem_filter.mp hx).2, es, rfl, guard, ?_⟩
    intro name hname
    by_cases hl : name = last
    · exact .inl hl
    · exact .inr (List.mem_filter.mpr ⟨hname, by simpa using hl⟩)
  · rintro x rest t ⟨others, left, rfl, hguard, listed⟩
    refine deleteEntry_meets (others x List.mem_cons_self)
      (fun left' part same => ⟨(thin left left' hguard part same).1, fun e h => by cases h⟩) ?_
    have kept := thin left (left.erase x) hguard (.erase left x)
      (Entries.find_erase_of_ne (others x List.mem_cons_self).symm)
    refine ⟨fun y hy => others y (List.mem_cons_of_mem _ hy), _, rfl, kept.2, ?_⟩
    intro name hname
    obtain ⟨hmem, hne⟩ := Entries.mem_names_erase hname
    rcases listed name hmem with hl | hl
    · exact .inl hl
    · rcases List.mem_cons.mp hl with rfl | hl
      · exact absurd rfl hne
      · exact .inr hl
  · rintro t ⟨_, left, rfl, hguard, listed⟩
    have onlyLast : left.erase last = [] :=
      Entries.erase_eq_nil fun name hname => (listed name hname).resolve_right List.not_mem_nil
    refine Prog.Meets.bind (meets_idle rfl (syncDir_idle slot) (refl _) fun r => ?_)
    cases r with
    | error e => exact fun h => by cases h
    | ok u =>
      refine Prog.Meets.bind (removeFileIfPresent_meets (refl _) (fun r => ?_) fun ok => ?_)
      · cases r with
        | error e => exact fun h => by cases h
        | ok u => exact ending left
      · obtain ⟨ino₁, dev₁, es₁, hfound, _, moved⟩ := removeFile_success ok
        rw [found] at hfound
        cases hfound
        rw [moved, Disk.set_set, onlyLast]
        exact ⟨final left hguard onlyLast, ending []⟩

end Deletion

/-! ## Recovery -/

section Recovery

variable {host : Host} {pfx : ManagedPrefix} {disk : Disk}

theorem Restorable.whole {location : PrefixLocation} {identity : Option V3Identity} {es : Entries}
    {structureOk : Bool} (h : Restorable host location identity es structureOk) : Whole es :=
  ⟨h.owned, h.2.1⟩

theorem syncParent_meets {R : Disk → Disk → Prop} {Q : Except String Unit → Disk → Prop}
    (stay : R disk disk) (any : ∀ r, Q r disk) : pfx.syncParent.Meets device R Q disk :=
  meets_idle rfl rfl stay fun _ => any _

/-- A call followed by a flush of the parent is as good as the call. -/
theorem thenSyncParent_meets {p : FsProg Unit} {t : Disk}
    (h : p.Meets device (RecoverMove host pfx.location) (fun r u => r = .ok () → u = t) disk) :
    (do p; pfx.syncParent : FsProg Unit).Meets device (RecoverMove host pfx.location)
      (fun r u => r = .ok () → u = t) disk := by
  refine Prog.Meets.bind (h.post fun r u hr => ?_)
  cases r with
  | error e => exact fun he => by cases he
  | ok _ => exact syncParent_meets (.stay _) fun r _ => hr rfl

/-- Removing the root directory succeeds only on an empty one. -/
theorem removeRoot_meets {io : IoError → String} :
    (Prog.perform (.removeDir .root) io : FsProg Unit).Meets device (RecoverMove host pfx.location)
      (fun r u => r = .ok () → u = { disk with root := none }) disk := by
  refine meets_atomic rfl (.stay _) (fun e he => by cases he) fun ok => ?_
  obtain ⟨ino, found, moved⟩ := removeDir_success ok
  rw [moved]
  exact ⟨.dropEmptyRoot found, fun _ => rfl⟩

theorem clearNonDataRoot_meets {identity : Option V3Identity} {rootState : RootState}
    (seen : rootState = classifyRoot host pfx.location identity disk.root) :
    (pfx.clearNonDataRoot rootState).Meets device (RecoverMove host pfx.location)
      (fun r u => r = .ok () → u = { disk with root := none }) disk := by
  cases rootState with
  | absent =>
    intro _
    have hn : disk.root = none := classifyRoot_absent.mp seen.symm
    exact (Disk.set_root_self hn).symm
  | empty => exact thenSyncParent_meets removeRoot_meets
  | pendingMarker =>
    obtain ⟨h, _⟩ | ⟨reason, h⟩ | ⟨ino, dev, es, found, h⟩ := classifyRoot_cases seen.symm
    · cases h
    · cases h
    have only := classifyEntries_pendingMarker.mp h
    refine Prog.Meets.bind (removeFileIfPresent_meets (.stay _) (fun r => ?_) fun ok => ?_)
    · cases r with
      | error e => exact fun he => by cases he
      | ok u => exact thenSyncParent_meets removeRoot_meets
    · obtain ⟨ino', dev', es', found', _, moved⟩ := removeFile_success ok
      rw [Disk.get_root, found] at found'
      cases found'
      rw [moved]
      refine ⟨.discard found ⟨find_of_holdsOnlyPendingTmp only (by decide),
        find_of_holdsOnlyPendingTmp only (by decide)⟩ (.inr ?_) (.erase es _), ?_⟩
      · intro name hname
        rw [(holdsOnlyPendingTmp_iff.mp only).1] at hname
        exact List.mem_singleton.mp hname
      · exact thenSyncParent_meets removeRoot_meets
  | provisioning | commitPending | committed | legacyValid | foreign => exact fun he => by cases he

/-- `P` lasts until nothing else is left, and until then it authorizes the deletion. -/
theorem discardPartialRoot_meets {identity : Option V3Identity}
    (seen : classifyRoot host pfx.location identity disk.root = .provisioning) :
    pfx.discardPartialRoot.Meets device (RecoverMove host pfx.location)
      (fun r u => r = .ok () → u = { disk with root := none }) disk := by
  obtain ⟨h, _⟩ | ⟨reason, h⟩ | ⟨ino, dev, es, found, h⟩ := classifyRoot_cases seen
  · cases h
  · cases h
  obtain ⟨noManifest, marker, _, _, noLegacy⟩ := classifyEntries_provisioning.mp h
  obtain ⟨_, hP, _⟩ := transactionMarker_authority.mp marker
  refine thenSyncParent_meets ?_
  rw [← Disk.set_root_self found]
  refine deleteTreeLast_meets
    (G := fun es => Unclaimed es ∧ ∃ data, es.find provisioningMarker = some (.file data))
    .stay ?_ ?_ ?_ ⟨⟨noManifest, noLegacy⟩, hP⟩
  · rintro left left' ⟨⟨hm, hl⟩, hauth⟩ part same
    refine ⟨.discard rfl ⟨hm, hl⟩ (.inl hauth) part,
      ⟨part.find_eq_none hm, part.find_eq_none hl⟩, ?_⟩
    rw [same]
    exact hauth
  · rintro left ⟨hu, hauth⟩ empty
    have part := PartOf.erase left provisioningMarker
    rw [empty] at part
    exact .discard rfl hu (.inl hauth) part
  · exact .dropEmptyRoot rfl

/-- Moving a whole backup back. -/
theorem restoreFrom_meets {source : Slot} {ino dev : Nat} {es : Entries}
    (found : disk.get source = some (.dir ino dev es)) (whole : Whole es)
    (fromHere : source = .backup ∨ ∃ name, source = .sibling name ∧ disk.backup = none) :
    (pfx.restoreFrom source).Meets device (RecoverMove host pfx.location) (fun _ _ => True) disk := by
  refine Prog.Meets.bind (meets_atomic rfl (.stay _) (fun e => trivial) fun ok => ?_)
  obtain ⟨node, hnode, vacant, _, moved⟩ := rename_success ok
  rw [found] at hnode
  cases hnode
  rw [moved]
  refine ⟨?_, syncParent_meets (.stay _) fun _ => trivial⟩
  obtain rfl | ⟨name, rfl, noBackup⟩ := fromHere
  · exact .restoreBackup vacant found whole
  · exact .restoreLegacy vacant noBackup found whole

theorem find_erase_rootEvidence {es : Entries} {name : String} (h : name ∈ rootEvidence) :
    (es.erase name).find prefixMarker = es.find prefixMarker := by
  apply Entries.find_erase_of_ne
  rintro rfl
  revert h
  decide

/-- Dropping the markers of a committed root leaves it committed. -/
theorem dropStaleMarkers_meets {ino dev : Nat} {es : Entries}
    (found : disk.root = some (.dir ino dev es)) (commit : HoldsCommit host pfx.location es) :
    pfx.dropStaleMarkers.Meets device (RecoverMove host pfx.location)
      (fun r u => r = .ok () → ∃ es', u = { disk with root := some (.dir ino dev es') } ∧
        HoldsCommit host pfx.location es') disk := by
  refine Prog.Meets.bind (Prog.Meets.forM
    (I := fun items t => (∀ x ∈ items, x ∈ rootEvidence) ∧ ∃ es',
      t = { disk with root := some (.dir ino dev es') } ∧ HoldsCommit host pfx.location es')
    ⟨by decide, es, (Disk.set_root_self found).symm, commit⟩ ?_ ?_)
  · rintro name rest t ⟨evidence, es', rfl, commit'⟩
    have others : ∀ x ∈ rest, x ∈ rootEvidence := fun x hx => evidence x (List.mem_cons_of_mem _ hx)
    have here : name ∈ rootEvidence := evidence name List.mem_cons_self
    refine removeFileIfPresent_meets (.stay _) (fun r => ?_) fun ok => ?_
    · cases r with
      | error e => exact fun he => by cases he
      | ok u => exact ⟨others, es', rfl, commit'⟩
    · obtain ⟨ino', dev', left, found', _, moved⟩ := removeFile_success ok
      cases found'
      rw [moved]
      exact ⟨.dropStale rfl commit' here, others, _, rfl,
        commit'.congr (find_erase_rootEvidence here)⟩
  · rintro t ⟨_, es', rfl, commit'⟩
    exact meets_idle rfl (syncDir_idle _) (.stay _) fun r _ => ⟨es', rfl, commit'⟩

/-- The invalidation names the tombstone that owns the deletion from then on. -/
theorem invalidate_meets {ino dev ino' dev' : Nat} {es es' : Entries}
    (root : disk.root = some (.dir ino' dev' es')) (commit : HoldsCommit host pfx.location es')
    (found : disk.backup = some (.dir ino dev es)) (whole : Whole es) :
    pfx.invalidateRestorationAuthority.Meets device (RecoverMove host pfx.location)
      (fun r u => ∀ tombstone, r = .ok tombstone → ∃ left : Entries,
        u = { disk with backup := some (.dir ino dev left) } ∧
          (tombstone = backupRemovingManifest ∨ tombstone = backupRemovingLegacy) ∧
          left.find tombstone ≠ none) disk := by
  refine Prog.meets_look ?_
  rw [found]
  dsimp only
  split
  · exact fun _ he => by cases he
  generalize hpair : (if entryKind (es.find prefixMarker) = .file then
    (prefixMarker, backupRemovingManifest)
    else (legacyPrefixMarker, backupRemovingLegacy)) = pair
  obtain ⟨source, tombstone⟩ := pair
  have names : source = prefixMarker ∧ tombstone = backupRemovingManifest ∨
      source = legacyPrefixMarker ∧ tombstone = backupRemovingLegacy := by
    split at hpair <;> cases hpair
    · exact .inl ⟨rfl, rfl⟩
    · exact .inr ⟨rfl, rfl⟩
  refine Prog.Meets.bind (meets_atomic rfl (.stay _) (fun e _ he => by cases he) fun ok => ?_)
  obtain ⟨ino₁, dev₁, es₁, node, found₁, hsource, _, moved⟩ := renameIn_success ok
  rw [Disk.get_backup, found] at found₁
  cases found₁
  rw [moved]
  refine ⟨.invalidate root commit found whole names, ?_⟩
  refine Prog.Meets.bind (meets_idle rfl (syncDir_idle _) (.stay _) fun r => ?_)
  cases r with
  | error e => exact fun _ he => by cases he
  | ok u =>
    intro t ht
    cases ht
    refine ⟨_, rfl, names.imp And.right And.right, ?_⟩
    rw [Entries.find_move_destination hsource]
    exact Option.some_ne_none _

/-- From the tombstone on, only that backup shrinks, next to a committed root. -/
theorem deleteBackup_meets {ino dev ino' dev' : Nat} {es es' : Entries} {tombstone : String}
    {io : IoError → String}
    (root : disk.root = some (.dir ino' dev' es')) (commit : HoldsCommit host pfx.location es')
    (found : disk.backup = some (.dir ino dev es))
    (names : tombstone = backupRemovingManifest ∨ tombstone = backupRemovingLegacy)
    (present : es.find tombstone ≠ none) :
    (deleteTreeLast .backup tombstone io).Meets device (RecoverMove host pfx.location)
      (Deleted disk .backup) disk := by
  have removing : ∀ left : Entries, left.find tombstone ≠ none → Removing left := by
    intro left h
    obtain rfl | rfl := names
    · exact .inl h
    · exact .inr h
  rw [← Disk.set_backup_self found]
  refine deleteTreeLast_meets (G := fun left => left.find tombstone ≠ none) .stay ?_ ?_ ?_ present
  · intro left left' present part same
    have present' : left'.find tombstone ≠ none := by rwa [same]
    exact ⟨.deleteBackup root commit rfl (removing _ present) part (.inl (removing _ present')),
      present'⟩
  · intro left present empty
    have part := PartOf.erase left tombstone
    rw [empty] at part
    exact .deleteBackup root commit rfl (removing _ present) part (.inr rfl)
  · exact .dropEmptyBackup rfl

theorem removeBackup_meets {identity : Option V3Identity} {state : BackupState} {ino' dev' : Nat}
    {es' : Entries} (root : disk.root = some (.dir ino' dev' es'))
    (commit : HoldsCommit host pfx.location es')
    (seen : state = .restorable ∨ state = .removing →
      classifyBackup host disk.parentDev pfx.location identity disk.backup = state) :
    (pfx.removeBackup state).Meets device (RecoverMove host pfx.location) (fun _ _ => True)
      disk := by
  have delete : ∀ (ino : Nat) (left : Entries) (tombstone : String) (io : IoError → String),
      (tombstone = backupRemovingManifest ∨ tombstone = backupRemovingLegacy) →
      left.find tombstone ≠ none →
      (do deleteTreeLast .backup tombstone io; pfx.syncParent : FsProg Unit).Meets device
        (RecoverMove host pfx.location) (fun _ _ => True)
        { disk with backup := some (.dir ino disk.parentDev left) } := by
    intro ino left tombstone io names present
    have bound : (deleteTreeLast .backup tombstone io).Meets device
        (RecoverMove host pfx.location) (Deleted { disk with
          backup := some (.dir ino disk.parentDev left) } .backup)
        { disk with backup := some (.dir ino disk.parentDev left) } :=
      deleteBackup_meets root commit rfl names present
    refine Prog.Meets.bind (bound.post ?_)
    intro r u _
    cases r with
    | error e => trivial
    | ok _ => exact syncParent_meets (.stay _) fun _ => trivial
  unfold ManagedPrefix.removeBackup
  cases state with
  | restorable =>
    obtain ⟨ino, es, found, h⟩ := classifyBackup_restorable.mp (seen (.inl rfl))
    refine Prog.Meets.bind ((invalidate_meets root commit found h.whole).post ?_)
    intro r u hr
    cases r with
    | error e => trivial
    | ok tombstone =>
      obtain ⟨left, rfl, names, present⟩ := hr tombstone rfl
      exact delete ino left tombstone _ names present
  | removing =>
    obtain ⟨ino, es, name, data, found, _, htomb, hname⟩ :=
      classifyBackup_removing (seen (.inr rfl))
    have here : { disk with backup := some (.dir ino disk.parentDev es) } = disk :=
      Disk.set_backup_self found
    refine Prog.Meets.bind (Prog.meets_look ?_)
    rw [found]
    dsimp only
    rw [htomb, ← here]
    refine delete ino es name _ ?_ (by rw [hname]; exact Option.some_ne_none _)
    exact (backupTombstone_some.mp htomb).imp And.left And.left
  | absent | empty | foreign => trivial

/-- A step that leaves the root gone, then a backup moved back to it. -/
theorem thenRestore_meets {p : FsProg Unit} {source : Slot} {ino dev : Nat} {es : Entries}
    (clear : p.Meets device (RecoverMove host pfx.location)
      (fun r u => r = .ok () → u = { disk with root := none }) disk)
    (found : ({ disk with root := none } : Disk).get source = some (.dir ino dev es))
    (whole : Whole es)
    (fromHere : source = .backup ∨ ∃ name, source = .sibling name ∧ disk.backup = none) :
    (do p; pfx.restoreFrom source : FsProg Unit).Meets device (RecoverMove host pfx.location)
      (fun _ _ => True) disk := by
  refine Prog.Meets.bind (clear.post fun r u hr => ?_)
  cases r with
  | error e => trivial
  | ok _ =>
    rw [hr rfl]
    exact restoreFrom_meets found whole fromHere

/-- **Each action** keeps to the moves the evidence behind it allows. -/
theorem execute_meets {a : Assessment} (judged : Judged host pfx disk a) :
    (pfx.execute a.action a.rootState a.backupState).Meets device (RecoverMove host pfx.location)
      (fun _ _ => True) disk := by
  obtain ⟨root, backup, absent, legacy, planned, old⟩ := judged
  have chosen := plan_action planned
  generalize a.action = action at planned chosen
  cases action with
  | none => trivial
  | restoreBackup =>
    obtain ⟨ino, es, found, h⟩ := classifyBackup_restorable.mp
      ((backup (.inl chosen.1)).trans chosen.1)
    exact thenRestore_meets (clearNonDataRoot_meets root) found h.whole (.inl rfl)
  | discardPartialAndRestore =>
    obtain ⟨ino, es, found, h⟩ := classifyBackup_restorable.mp
      ((backup (.inl chosen.1)).trans chosen.1)
    exact thenRestore_meets (discardPartialRoot_meets (root.symm.trans chosen.2)) found h.whole
      (.inl rfl)
  | discardPartial =>
    unfold ManagedPrefix.execute
    dsimp only
    split
    · exact (clearNonDataRoot_meets root).post fun _ _ _ => trivial
    next other =>
      have provisioning := chosen.2.provisioning other
      exact (discardPartialRoot_meets (root.symm.trans provisioning)).post fun _ _ _ => trivial
  | completeCommit stale remove =>
    obtain ⟨committed, removed, _⟩ := chosen
    obtain ⟨h, _⟩ | ⟨reason, h⟩ | ⟨ino, dev, es, found, h⟩ :=
      classifyRoot_cases (root.symm.trans committed)
    · cases h
    · cases h
    have commit : HoldsCommit host pfx.location es :=
      validatedManifest_own (classifyEntries_committed.mp h).1
    -- The second half runs on the disk the first half left, whose root is still committed.
    have removal : ∀ es', HoldsCommit host pfx.location es' →
        (Prog.onlyIf remove (pfx.removeBackup a.backupState) : FsProg Unit).Meets device
          (RecoverMove host pfx.location) (fun _ _ => True)
          { disk with root := some (.dir ino dev es') } := fun es' commit' =>
      .onlyIf (fun _ => removeBackup_meets rfl commit' fun seen => backup seen) fun _ => trivial
    refine Prog.Meets.bind (.onlyIf (fun _ => ?_) fun _ => ?_)
    · refine (dropStaleMarkers_meets found commit).post fun r u hr => ?_
      cases r with
      | error e => trivial
      | ok _ =>
        obtain ⟨es', rfl, commit'⟩ := hr rfl
        exact removal es' commit'
    · change Prog.Meets device _ _ _ disk
      rw [← Disk.set_root_self found]
      exact removal es commit
  | restoreLegacyBackup name =>
    obtain ⟨noBackup, _, only⟩ := chosen
    obtain ⟨ino, es, found, h⟩ := classifyBackup_restorable.mp
      (old name (by rw [only]; exact List.mem_singleton_self name))
    exact thenRestore_meets (clearNonDataRoot_meets root) found h.whole
      (.inr ⟨name, rfl, absent noBackup⟩)

/-- **Recovery refines the abstract protocol**: from every disk, and however its
calls are disturbed, each change it makes is a recovery move. -/
theorem recover_meets (host : Host) (pfx : ManagedPrefix) (active : Nat) (disk : Disk) :
    (recover host pfx active).Meets device (RecoverMove host pfx.location) (fun _ _ => True)
      disk := by
  change Prog.Meets device _ (do let a ← Prog.ofExcept (assess host pfx disk); pfx.carryOut active a)
    _ disk
  refine Prog.Meets.bind (Prog.meets_ofExcept ?_)
  cases ha : assess host pfx disk with
  | error e => trivial
  | ok a =>
    have judged := assess_judged ha
    dsimp only
    unfold ManagedPrefix.carryOut
    split
    · trivial
    have rest : (do pfx.execute a.action a.rootState a.backupState
                    return a.outcome pfx : FsProg RecoveryOutcome).Meets device
          (RecoverMove host pfx.location) (fun _ _ => True) (a.cleaned disk) :=
      Prog.Meets.bind ((execute_meets judged).post fun r u _ => by cases r <;> trivial)
    refine Prog.Meets.bind ?_
    unfold ManagedPrefix.ensureQuiet
    split
    · refine Prog.Meets.bind (.onlyIf (fun empty => ?_) fun full => ?_)
      · rw [Assessment.cleaned, if_pos empty] at rest
        obtain ⟨ino, hbackup⟩ := (assess_removedEmptyBackup ha).mp empty
        refine Prog.Meets.bind (meets_atomic rfl (.stay _) (fun e => trivial) fun ok => ?_)
        obtain ⟨ino', _, moved⟩ := removeDir_success ok
        rw [moved]
        refine ⟨.dropEmptyBackup hbackup, syncParent_meets (.stay _) fun r => ?_⟩
        cases r with
        | error e => trivial
        | ok _ => exact rest
      · rw [Assessment.cleaned, if_neg (by rw [full]; exact Bool.false_ne_true)] at rest
        exact rest
    · trivial

end Recovery

end RoLauncher.Prefix
