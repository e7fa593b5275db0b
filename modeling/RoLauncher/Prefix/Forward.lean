import RoLauncher.Prefix.Moves

/-!
# What a transaction has built when it stops

The states between `begin_provisioning` and the commit. `Building record data`
says all that recovery can tell about a root under construction: of the names
it reads there, one is present, the transaction's own record, under the name
`P` or, once revoked, `C`.

Two statements follow the code. `beginProvisioning_meets` and
`provisionAndCommit_meets` say where each part can stop and with which
authority in hand; `transaction_meets` forgets that and keeps the moves.
-/

namespace RoLauncher.Prefix

open RoLauncher.Files RoLauncher.Crash

/-! ## A root under construction -/

/-- Of the names recovery reads, only the transaction's record is present. -/
def Building (record : String) (data : Blob) (es : Entries) : Prop :=
  es.find record = some (.file data) ∧ ∀ name ∈ launcherRecords, name ≠ record → es.find name = none

namespace Building

variable {record : String} {data : Blob} {es : Entries}

theorem absent (h : Building record data es) {name : String} (read : name ∈ launcherRecords)
    (other : name ≠ record) : es.find name = none := h.2 name read other

/-- The engine does not touch records. -/
theorem provisioned (h : Building record data es) (here : record ∈ launcherRecords) {es' : Entries}
    (same : SameRecords es' es) : Building record data es' := by
  refine ⟨(same record (isLauncherName_of_record here)).trans h.1, fun name read other => ?_⟩
  exact (same name (isLauncherName_of_record read)).trans (h.2 name read other)

/-- Renaming the record is all that revocation and reinstatement do. -/
theorem renamed (h : Building record data es) (here : record ∈ launcherRecords) {record' : String}
    (other : record ≠ record') : Building record' data (es.move record record') := by
  refine ⟨Entries.find_move_destination h.1, fun name read hname => ?_⟩
  by_cases hr : name = record
  · subst hr
    exact Entries.find_move_source h.1 other
  · rw [Entries.find_move_of_ne hr hname]
    exact h.2 name read hr

theorem put (h : Building record data es) (here : record ∈ launcherRecords) {name : String} {node : Node}
    (unread : name ∉ launcherRecords) : Building record data (es.put name node) := by
  have other : ∀ x ∈ launcherRecords, x ≠ name := fun x hx hn => unread (hn ▸ hx)
  refine ⟨(Entries.find_put_of_ne (other _ here)).trans h.1, fun x read hx => ?_⟩
  exact (Entries.find_put_of_ne (other x read)).trans (h.2 x read hx)

theorem erase (h : Building record data es) (here : record ∈ launcherRecords) {name : String}
    (unread : name ∉ launcherRecords) : Building record data (es.erase name) := by
  have other : ∀ x ∈ launcherRecords, x ≠ name := fun x hx hn => unread (hn ▸ hx)
  refine ⟨(Entries.find_erase_of_ne (other _ here)).trans h.1, fun x read hx => ?_⟩
  exact (Entries.find_erase_of_ne (other x read)).trans (h.2 x read hx)

theorem unclaimed (h : Building record data es)
    (here : record = provisioningMarker ∨ record = commitPendingMarker) : Unclaimed es := by
  constructor
  · refine h.absent (by decide) ?_
    rcases here with rfl | rfl <;> decide
  · refine h.absent (by decide) ?_
    rcases here with rfl | rfl <;> decide

theorem single (record : String) (data : Blob) : Building record data [(record, .file data)] := by
  constructor
  · rw [Entries.find_cons, if_pos rfl]
  · intro name _ other
    rw [Entries.find_cons, if_neg other.symm]
    rfl

end Building

/-! ## Names of the manifest's temporary -/

theorem toList_prefix_append (s t : String) : s.toList <+: (s ++ t).toList := by
  rw [String.toList_append]
  exact List.prefix_append _ _

theorem manifestTemporary_start (process : Process) (nanos : Nat) :
    ".ro-launcher-prefix.tmp-".toList <+: (manifestTemporary process nanos).toList :=
  toList_prefix_append _ _

/-- The temporary of a manifest is none of the names recovery reads. -/
theorem manifestTemporary_unread (process : Process) (nanos : Nat) :
    manifestTemporary process nanos ∉ launcherRecords := by
  intro h
  have start := List.isPrefixOf_iff_prefix.mpr (manifestTemporary_start process nanos)
  have other : ∀ name ∈ launcherRecords,
      ".ro-launcher-prefix.tmp-".toList.isPrefixOf name.toList = false := by
    unfold launcherRecords
    simp only [List.forall_mem_cons, List.not_mem_nil, false_implies, implies_true, and_true]
    and_intros
    · exact isPrefixOf_ofList _ _
    · exact isPrefixOf_ofList _ _
    · exact isPrefixOf_ofList _ _
    · exact isPrefixOf_ofList _ _
    · exact isPrefixOf_ofList _ _
    · exact isPrefixOf_ofList _ _
    · rw [backupName, installationMarker, String.toList_append, String.toList_ofList,
        String.toList_ofList, String.toList_ofList]
      rfl
  rw [other _ h] at start
  cases start

/-! ## Calls on the root's entries -/

/-- The disk with these entries in its root directory. -/
abbrev Disk.withRoot (disk : Disk) (ino dev : Nat) (es : Entries) : Disk :=
  { disk with root := some (.dir ino dev es) }

section RootCalls

variable {host : Host} {location : PrefixLocation} {base : Disk} {ino dev : Nat} {es : Entries}
  {Err : Type} {onError : IoError → Err} {Q : Except Err Unit → Disk → Prop}

/-- Building on: neither before nor after is there a manifest or a legacy marker. -/
theorem Move.buildOn {es' : Entries} (before : Unclaimed es) (after : Unclaimed es') :
    Move host location (base.withRoot ino dev es) (base.withRoot ino dev es') :=
  .build rfl before after

theorem createNew_meets {name : String} (before : Unclaimed es)
    (after : Unclaimed (es.put name (.file (.text ""))))
    (failed : ∀ e, Q (.error (onError e)) (base.withRoot ino dev es))
    (ok : Q (.ok ()) (base.withRoot ino dev (es.put name (.file (.text ""))))) :
    (Prog.perform (.createNew .root name) onError : Prog FsOp Disk IoError Err Unit).Meets device
      (Move host location) Q (base.withRoot ino dev es) := by
  refine meets_atomic rfl (.stay _) failed fun success => ?_
  obtain ⟨ino', dev', es', found, _, moved⟩ := createNew_success success
  cases found
  rw [moved]
  exact ⟨.buildOn before after, ok⟩

theorem renameIn_meets {source destination : String} {replace : Bool}
    (failed : ∀ e, Q (.error (onError e)) (base.withRoot ino dev es))
    (ok : es.find source ≠ none → (replace = false → es.find destination = none) →
      Move host location (base.withRoot ino dev es)
        (base.withRoot ino dev (es.move source destination)) ∧
      Q (.ok ()) (base.withRoot ino dev (es.move source destination))) :
    (Prog.perform (.renameIn .root source destination replace) onError :
      Prog FsOp Disk IoError Err Unit).Meets device (Move host location) Q
      (base.withRoot ino dev es) := by
  refine meets_atomic rfl (.stay _) failed fun success => ?_
  obtain ⟨ino', dev', es', node, found, hsource, free, moved⟩ := renameIn_success success
  cases found
  rw [moved]
  exact ok (by rw [hsource]; exact Option.some_ne_none _) free

/-- A write leaves the file with some content: all of it, or what a cut left. -/
theorem write_meets {name : String} {data : Blob} {k : Except IoError Unit → Prog FsOp Disk IoError Err Unit}
    (claimless : ∀ blob, Unclaimed (es.put name (.file blob))) (before : Unclaimed es)
    (failed : ∀ e es', (es' = es ∨ ∃ blob : Blob, blob.size ≤ data.size ∧ es' = es.put name (.file blob)) →
      (k (.error e)).Meets device (Move host location) Q (base.withRoot ino dev es'))
    (ok : (k (.ok ())).Meets device (Move host location) Q
      (base.withRoot ino dev (es.put name (.file data)))) :
    (Prog.act (.write .root name data) k).Meets device (Move host location) Q
      (base.withRoot ino dev es) := by
  refine ⟨?_, ?_⟩
  · rintro t (rfl | ⟨ino', dev', es', left, found, ⟨old, blob, _, size, rfl⟩, rfl⟩)
    · exact ⟨.stay _, fun e => failed e es (.inl rfl)⟩
    · cases found
      exact ⟨.buildOn before (claimless blob), fun e => failed e _ (.inr ⟨blob, size, rfl⟩)⟩
  · change Move host location _ (execOp _ _).2 ∧ (k (execOp _ _).1).Meets _ _ _ (execOp _ _).2
    cases hr : (execOp (.write .root name data) (base.withRoot ino dev es)).1 with
    | ok u =>
      obtain ⟨ino', dev', es', found, _, moved⟩ := write_success hr
      cases found
      rw [moved]
      exact ⟨.buildOn before (claimless data), ok⟩
    | error e =>
      have stays : (execOp (.write .root name data) (base.withRoot ino dev es)).2 =
          base.withRoot ino dev es := by
        simp only [execOp, inside] at hr ⊢
        split at hr
        · split at hr
          · cases hr
          · rfl
        · rfl
        · rfl
      rw [stays]
      exact ⟨.stay _, failed e es (.inl rfl)⟩

end RootCalls

/-! ## Begin -/

section Begin

variable {host : Host} {pfx : ManagedPrefix} {disk : Disk}

/-- What a successful `begin_provisioning` leaves: a root that holds `P` and nothing else. -/
def Begun (disk : Disk) (data : Blob) (r : Except String Unit) (t : Disk) : Prop :=
  r = .ok () → ∃ ino dev n,
    (disk.root = none ∧ dev = disk.parentDev ∨ disk.root = some (.dir ino dev [])) ∧
      t = { disk with
        root := some (.dir ino dev [(provisioningMarker, .file data)])
        nextIno := n }

theorem openRoot_meets :
    (pfx.openRoot host).Meets device (Move host pfx.location) (fun r t => r = .ok () →
      ∃ ino dev n,
        (disk.root = none ∧ dev = disk.parentDev ∨ disk.root = some (.dir ino dev [])) ∧
          t = { disk with root := some (.dir ino dev []), nextIno := n }) disk := by
  refine Prog.meets_look ?_
  split
  · refine meets_atomic rfl (.stay _) (fun e he => by cases he) fun ok => ?_
    obtain ⟨vacant, moved⟩ := createDir_success ok
    rw [moved]
    exact ⟨.createRoot vacant, fun _ => ⟨_, _, _, .inl ⟨vacant, rfl⟩, rfl⟩⟩
  next hempty =>
    intro _
    obtain ⟨h, _⟩ | ⟨reason, h⟩ | ⟨ino, dev, es, found, h⟩ := classifyRoot_cases hempty
    · cases h
    · cases h
    rw [classifyEntries_empty] at h
    subst h
    exact ⟨ino, dev, disk.nextIno, .inr found, (Disk.set_root_self found).symm⟩
  · exact fun he => by cases he

theorem unclaimed_single {name : String} {node : Node} (h : name ∉ launcherRecords ∨
    name = provisioningMarker ∨ name = provisioningMarkerTmp) : Unclaimed [(name, node)] := by
  have other : name ≠ prefixMarker ∧ name ≠ legacyPrefixMarker := by
    rcases h with h | rfl | rfl
    · exact ⟨fun hn => h (by rw [hn]; decide), fun hn => h (by rw [hn]; decide)⟩
    · decide
    · decide
  exact ⟨by rw [Entries.find_cons, if_neg other.1]; rfl,
    by rw [Entries.find_cons, if_neg other.2]; rfl⟩

theorem writeRecord_meets {ino dev : Nat} (data : Blob) :
    (pfx.writeRecord data).Meets device (Move host pfx.location)
      (fun r t => r = .ok () →
        t = disk.withRoot ino dev [(provisioningMarker, .file data)])
      (disk.withRoot ino dev []) := by
  have tmp : ∀ blob, Unclaimed [(provisioningMarkerTmp, .file blob)] := fun blob =>
    unclaimed_single (.inr (.inr rfl))
  have rewritten : ∀ blob, (Entries.put [] provisioningMarkerTmp (.file (.text ""))).put
      provisioningMarkerTmp (.file blob) = [(provisioningMarkerTmp, .file blob)] := fun blob => by
    simp [Entries.put, Entries.erase]
  have renamed : Entries.move [(provisioningMarkerTmp, .file data)] provisioningMarkerTmp
      provisioningMarker = [(provisioningMarker, .file data)] := by
    simp [Entries.move, Entries.find_cons, Entries.put, Entries.erase]
  refine Prog.Meets.bind (createNew_meets ⟨rfl, rfl⟩ (tmp _) (fun e he => by cases he) ?_)
  refine Prog.Meets.bind (write_meets (fun blob => ?_) (tmp _) (fun e es' _ he => by cases he) ?_)
  · rw [rewritten]
    exact tmp blob
  rw [rewritten]
  refine Prog.Meets.bind (renameIn_meets (fun e he => by cases he) fun _ _ => ?_)
  rw [renamed]
  refine ⟨.buildOn (tmp data) (unclaimed_single (.inr (.inl rfl))), ?_⟩
  exact meets_idle rfl (syncDir_idle _) (.stay _) fun r _ => rfl

/-- **Begin**: whatever stops it, it only builds; and when it is accepted the root holds `P`. -/
theorem beginProvisioning_meets (process : Process) (fingerprint : String) :
    (pfx.beginProvisioning host process fingerprint).Meets device (Move host pfx.location)
      (fun r t => r = .ok () → ∃ identity, pfx.transactionIdentity host fingerprint = .ok identity ∧
        Begun disk (pfx.recordBlob host process identity) r t) disk := by
  refine Prog.Meets.bind (Prog.meets_ofExcept ?_)
  cases hid : pfx.transactionIdentity host fingerprint with
  | error e => exact fun he => by cases he
  | ok identity =>
    refine Prog.Meets.bind (meets_idle rfl rfl (.stay _) fun r => ?_)
    cases r with
    | error e => exact fun he => by cases he
    | ok u =>
      refine Prog.Meets.bind (openRoot_meets.post fun r t hr => ?_)
      cases r with
      | error e => exact fun he => by cases he
      | ok u =>
        obtain ⟨ino, dev, n, opened, rfl⟩ := hr rfl
        refine Prog.Meets.bind (syncParent_meets (.stay _) fun r => ?_)
        cases r with
        | error e => exact fun he => by cases he
        | ok u =>
          have written : (pfx.writeRecord (pfx.recordBlob host process identity)).Meets device
              (Move host pfx.location) _ (({ disk with nextIno := n } : Disk).withRoot ino dev []) :=
            writeRecord_meets _
          refine written.post fun r t hr he => ?_
          exact ⟨identity, rfl, fun _ => ⟨ino, dev, n, opened, hr he⟩⟩

end Begin

/-! ## From the accepted root to the commit -/

section Commit

variable {host : Host} {pfx : ManagedPrefix} {base : Disk} {ino dev : Nat} {data : Blob}
  {process : Process}

/-- The manifest was renamed into a root without `P`. -/
def Renamed (es : Entries) : Prop :=
  (∃ json, es.find prefixMarker = some (.file (.text json))) ∧
    es.find provisioningMarker = none ∧ es.find legacyPrefixMarker = none

/-- Where a commit can stop: before the rename the root is still one under construction. -/
def CommitStopped (base : Disk) (ino dev : Nat) (data : Blob)
    (r : Except ManifestCommitError Unit) (t : Disk) : Prop :=
  ∃ es : Entries, t = base.withRoot ino dev es ∧
    match r with
    | .error (.beforeRename _) => Building commitPendingMarker data es
    | .error (.afterRename _) => Renamed es
    | .ok () => Renamed es

theorem abandonTemporary_meets {es : Entries} (building : Building commitPendingMarker data es)
    {temporary : String} (unread : temporary ∉ launcherRecords) (error : IoError) :
    (abandonTemporary temporary error).Meets device (Move host pfx.location)
      (CommitStopped base ino dev data) (base.withRoot ino dev es) := by
  refine meets_act rfl (.stay _) (fun e => ⟨es, rfl, building⟩) fun ok => ?_
  obtain ⟨ino', dev', es', found, _, moved⟩ := removeFile_success ok
  cases found
  rw [moved]
  have erased := building.erase (by decide) unread
  exact ⟨.buildOn (building.unclaimed (.inr rfl)) (erased.unclaimed (.inr rfl)), _, rfl, erased⟩

theorem commitPrefixManifest_meets {es : Entries} (building : Building commitPendingMarker data es)
    (json : String) :
    (commitPrefixManifest process json).Meets device (Move host pfx.location)
      (CommitStopped base ino dev data) (base.withRoot ino dev es) := by
  refine Prog.Meets.bind (meets_idle rfl rfl (.stay _) fun r => ?_)
  cases r with
  | error e => exact ⟨es, rfl, building⟩
  | ok u =>
    change Prog.Meets device _ (if _ then _ else _) _ _
    split
    · exact ⟨es, rfl, building⟩
    split
    · exact ⟨es, rfl, building⟩
    cases process.commitNanos with
    | error e => exact ⟨es, rfl, building⟩
    | ok nanos =>
      have unread := manifestTemporary_unread process nanos
      dsimp only
      generalize manifestTemporary process nanos = temporary at unread ⊢
      have put : ∀ {es' : Entries} (node : Node), Building commitPendingMarker data es' →
          Building commitPendingMarker data (es'.put temporary node) := fun node h =>
        h.put (by decide) unread
      have unclaimed : ∀ {es' : Entries}, Building commitPendingMarker data es' → Unclaimed es' :=
        fun h => h.unclaimed (.inr rfl)
      have created := put (.file (.text "")) building
      refine Prog.Meets.bind (createNew_meets (unclaimed building) (unclaimed created)
        (fun e => ⟨es, rfl, building⟩) ?_)
      refine write_meets (fun blob => unclaimed (put _ created)) (unclaimed created) ?_ ?_
      · rintro e es' (rfl | ⟨blob, _, rfl⟩)
        · exact abandonTemporary_meets created unread e
        · exact abandonTemporary_meets (put _ created) unread e
      · have written := put (.file (.text json)) created
        have found := Entries.find_put_self (es.put temporary (.file (.text ""))) temporary
          (.file (.text json))
        generalize (es.put temporary (.file (.text ""))).put temporary (.file (.text json)) = full
          at written found
        refine meets_act rfl (.stay _) (fun e => abandonTemporary_meets written unread e)
          fun ok => ?_
        obtain ⟨ino', dev', es', node, found', _, _, moved⟩ := renameIn_success ok
        cases found'
        rw [moved]
        have kept : ∀ name ∈ launcherRecords, name ≠ prefixMarker →
            (full.move temporary prefixMarker).find name = full.find name := fun name read other =>
          Entries.find_move_of_ne (fun hn => unread (hn ▸ read)) other
        have renamed : Renamed (full.move temporary prefixMarker) :=
          ⟨⟨json, Entries.find_move_destination found⟩,
            (kept _ (by decide) (by decide)).trans (written.absent (by decide) (by decide)),
            (kept _ (by decide) (by decide)).trans (written.absent (by decide) (by decide))⟩
        refine ⟨.commit rfl (unclaimed written) renamed.2.1 renamed.2.2, ?_⟩
        refine meets_idle rfl (syncDir_idle _) (.stay _) fun r => ?_
        cases r with
        | error e => exact ⟨_, rfl, renamed⟩
        | ok u => exact ⟨_, rfl, renamed⟩

/-- Where the second part of a transaction can stop, by the authority in hand. -/
def Stopped (base : Disk) (ino dev : Nat) (data : Blob)
    (r : Except (Authority × String) Unit) (t : Disk) : Prop :=
  ∃ es : Entries, t = base.withRoot ino dev es ∧
    match r with
    | .error (.held, _) => Building provisioningMarker data es
    | .error (.reinstatable, _) =>
      Building provisioningMarker data es ∨ Building commitPendingMarker data es
    | .error (.revoked, _) => Renamed es
    | .ok () => Renamed es

theorem provision_meets {es : Entries} (building : Building provisioningMarker data es)
    (work : Work) {Q : Except (Authority × String) Unit → Disk → Prop}
    {onError : IoError → Authority × String}
    (any : ∀ r es', Building provisioningMarker data es' →
      Q (Except.mapError onError r) (base.withRoot ino dev es')) :
    (Prog.perform (.provision work.provision) onError :
      Prog FsOp Disk IoError (Authority × String) Unit).Meets device (Move host pfx.location) Q
      (base.withRoot ino dev es) := by
  have move : ∀ es', Building provisioningMarker data es' →
      Move host pfx.location (base.withRoot ino dev es) (base.withRoot ino dev es') := fun es' h =>
    .buildOn (building.unclaimed (.inl rfl)) (h.unclaimed (.inl rfl))
  have worked := building.provisioned (by decide) (work.recordsKept es)
  refine Prog.meets_perform ?_ (move _ worked) (fun h => ?_) (fun e h => ?_)
  · rintro t (rfl | ⟨ino', dev', es', left, found, same, rfl⟩)
    · exact ⟨.stay _, fun e => any (.error e) es building⟩
    · cases found
      have left' := building.provisioned (by decide) same
      exact ⟨move _ left', fun e => any (.error e) _ left'⟩
  · have := any (work.provision es).1 _ worked
    change (work.provision es).1 = _ at h
    rw [h] at this
    exact this
  · have := any (work.provision es).1 _ worked
    change (work.provision es).1 = _ at h
    rw [h] at this
    exact this

theorem revoke_meets {es : Entries} (building : Building provisioningMarker data es)
    {Q : Except String Unit → Disk → Prop}
    (failed : ∀ e es', Building provisioningMarker data es' ∨ Building commitPendingMarker data es' →
      Q (.error e) (base.withRoot ino dev es'))
    (ok : ∀ es', Building commitPendingMarker data es' → Q (.ok ()) (base.withRoot ino dev es')) :
    pfx.revokeRollbackAuthority.Meets device (Move host pfx.location) Q
      (base.withRoot ino dev es) := by
  have revoked : Building commitPendingMarker data
      (es.move provisioningMarker commitPendingMarker) := building.renamed (by decide) (by decide)
  refine Prog.Meets.bind (renameIn_meets (fun e => failed _ _ (.inl building)) fun _ _ => ?_)
  refine ⟨.buildOn (building.unclaimed (.inl rfl)) (revoked.unclaimed (.inr rfl)), ?_⟩
  refine meets_idle rfl (syncDir_idle _) (.stay _) fun r => ?_
  cases r with
  | error e => exact failed _ _ (.inr revoked)
  | ok u => exact ok _ revoked

/-- **After begin**: where the transaction stops, the authority in its hand says what the root
can hold. Only `Revoked` stands for a root whose manifest was renamed into place. -/
theorem provisionAndCommit_meets {es : Entries} (building : Building provisioningMarker data es)
    (work : Work) :
    (provisionAndCommit pfx process work).Meets device (Move host pfx.location)
      (Stopped base ino dev data) (base.withRoot ino dev es) := by
  refine Prog.Meets.bind (provision_meets building work fun r es₁ h₁ => ?_)
  cases r with
  | error e => exact ⟨es₁, rfl, h₁⟩
  | ok u =>
    refine Prog.Meets.bind (Prog.meets_ofExcept ?_)
    cases work.quiesce with
    | error e => exact ⟨es₁, rfl, h₁⟩
    | ok u =>
      refine Prog.Meets.bind (Prog.Meets.mapError (meets_idle rfl (syncFilesystem_idle _) (.stay _)
        fun r => ?_))
      cases r with
      | error e => exact ⟨es₁, rfl, h₁⟩
      | ok u =>
        refine Prog.Meets.bind (Prog.Meets.mapError (revoke_meets h₁
          (fun e es₂ h₂ => ⟨es₂, rfl, h₂⟩) fun es₂ h₂ => ?_))
        refine Prog.Meets.mapError ?_
        unfold Work.commit
        cases work.manifest with
        | error e => exact ⟨es₂, rfl, .inr h₂⟩
        | ok json =>
          refine (commitPrefixManifest_meets h₂ json).post fun r t hr => ?_
          obtain ⟨es₃, rfl, h₃⟩ := hr
          refine ⟨es₃, rfl, ?_⟩
          rcases r with (message | message) | u
          · exact .inr h₃
          · exact h₃
          · exact h₃

end Commit

/-! ## The whole transaction -/

section Whole

variable {host : Host} {pfx : ManagedPrefix} {disk : Disk} {process : Process} {work : Work}

theorem recover_meets_move (active : Nat) :
    (recover host pfx active).Meets device (Move host pfx.location) (fun _ _ => True) disk :=
  (recover_meets host pfx active disk).mono (fun _ _ => .recovery) fun _ _ h => h

theorem reconcile_meets {α : Type} (primary : String) :
    (reconcile host pfx process primary : FsProg α).Meets device (Move host pfx.location)
      (fun _ _ => True) disk := by
  refine Prog.Meets.bind (Prog.Meets.attempt ((recover_meets_move process.active).post ?_))
  intro r t _
  cases r with
  | error e => trivial
  | ok outcome =>
    dsimp only
    split <;> trivial

/-- Reinstating only renames the record of a root under construction. -/
theorem reinstate_meets {base : Disk} {ino dev : Nat} {data : Blob} {es : Entries}
    (building : Building provisioningMarker data es ∨ Building commitPendingMarker data es) :
    pfx.reinstateRollbackAuthority.Meets device (Move host pfx.location) (fun _ _ => True)
      (base.withRoot ino dev es) := by
  unfold ManagedPrefix.reinstateRollbackAuthority
  change Prog.Meets device _ (if _ then _ else _) _ _
  split
  · trivial
  refine Prog.Meets.bind (renameIn_meets (fun e => trivial) fun present _ => ?_)
  rcases building with h | h
  · exact absurd (h.absent (by decide) (by decide)) present
  · have moved : Building provisioningMarker data
        (es.move commitPendingMarker provisioningMarker) := h.renamed (by decide) (by decide)
    refine ⟨.buildOn (h.unclaimed (.inr rfl)) (moved.unclaimed (.inl rfl)), ?_⟩
    exact meets_idle rfl (syncDir_idle _) (.stay _) fun _ => trivial

theorem rollback_meets {α : Type} {authority : Authority} {primary : String}
    (building : authority = .reinstatable → ∃ base ino dev data es,
      disk = Disk.withRoot base ino dev es ∧
        (Building provisioningMarker data es ∨ Building commitPendingMarker data es)) :
    (rollback host pfx process work authority primary : FsProg α).Meets device
      (Move host pfx.location) (fun _ _ => True) disk := by
  unfold rollback
  dsimp only
  cases work.quiesceAgain with
  | error e => trivial
  | ok u =>
    cases authority with
    | held => exact reconcile_meets _
    | revoked => exact reconcile_meets _
    | reinstatable =>
      obtain ⟨base, ino, dev, data, es, rfl, h⟩ := building rfl
      refine Prog.Meets.bind (Prog.Meets.attempt ((reinstate_meets h).post fun r t _ => ?_))
      cases r with
      | error e => trivial
      | ok u => exact reconcile_meets _

theorem forward_meets {fingerprint : String} :
    (forward host pfx process fingerprint work).Meets device (Move host pfx.location)
      (fun r t => ∀ authority message, r = .error (authority, message) →
        authority = .reinstatable → ∃ base ino dev data es, t = Disk.withRoot base ino dev es ∧
          (Building provisioningMarker data es ∨ Building commitPendingMarker data es)) disk := by
  refine Prog.Meets.bind (Prog.Meets.mapError ((beginProvisioning_meets process fingerprint).post
    fun r t hr => ?_))
  cases r with
  | error e =>
    rintro authority message ⟨rfl, rfl⟩ he
    cases he
  | ok u =>
    obtain ⟨identity, _, begun⟩ := hr rfl
    obtain ⟨ino, dev, n, _, rfl⟩ := begun rfl
    have bound : (provisionAndCommit pfx process work).Meets device (Move host pfx.location)
        (Stopped { disk with nextIno := n } ino dev (pfx.recordBlob host process identity))
        (({ disk with nextIno := n } : Disk).withRoot ino dev
          [(provisioningMarker, .file (pfx.recordBlob host process identity))]) :=
      provisionAndCommit_meets (.single _ _) work
    refine bound.post fun r t hr authority message hm ha => ?_
    subst hm ha
    obtain ⟨es, rfl, building⟩ := hr
    exact ⟨_, ino, dev, _, es, rfl, building⟩

/-- A prefix was at `R` and is now, as it was, at `B`. -/
def Preserved (host : Host) (pfx : ManagedPrefix) (disk t : Disk) : Prop :=
  ∃ ino es, disk.root = some (.dir ino disk.parentDev es) ∧
    (pfx.rootClass host disk = .committed false ∨ pfx.rootClass host disk = .legacyValid) ∧
    disk.backup = none ∧ isProtected es = false ∧
    t = { disk with root := none, backup := some (.dir ino disk.parentDev es) }

/-- There was no prefix at `R`, and now there is nothing. -/
def Cleared (disk t : Disk) : Prop :=
  (disk.root = none ∨ ∃ ino, disk.root = some (.dir ino disk.parentDev [])) ∧
    t = { disk with root := none }

/-- A root that a reset may move is a prefix. -/
theorem rootClass_owned
    (h : pfx.rootClass host disk = .committed false ∨ pfx.rootClass host disk = .legacyValid) :
    ∃ ino dev es, disk.root = some (.dir ino dev es) ∧ Owned es := by
  rcases h with h | h
  · change classifyRoot _ _ _ _ = _ at h
    obtain ⟨hc, _⟩ | ⟨reason, hc⟩ | ⟨ino, dev, es, found, hc⟩ := classifyRoot_cases h
    · cases hc
    · cases hc
    rw [classifyEntries_committed] at hc
    exact ⟨ino, dev, es, found, HoldsCommit.owned (validatedManifest_own hc.1)⟩
  · change classifyRoot _ _ _ _ = _ at h
    obtain ⟨hc, _⟩ | ⟨reason, hc⟩ | ⟨ino, dev, es, found, hc⟩ := classifyRoot_cases h
    · cases hc
    · cases hc
    rw [classifyEntries_legacyValid] at hc
    obtain ⟨_, _, _, ⟨data, hd⟩, _⟩ := hc
    exact ⟨ino, dev, es, found, _, data, .inr rfl, hd⟩

theorem preserveForReset_meets :
    (pfx.preserveForReset host).Meets device (Move host pfx.location) (fun r t =>
      match r with
      | .ok true => Preserved host pfx disk t
      | .ok false => Cleared disk t
      | .error _ => t = disk ∨ Preserved host pfx disk t ∨ Cleared disk t) disk := by
  refine Prog.meets_look ?_
  have reset : (pfx.rootClass host disk = .committed false ∨
      pfx.rootClass host disk = .legacyValid) →
      (if entryKind disk.backup ≠ .missing then
        .fail (pfx.ambiguity "ya existe un respaldo pendiente")
      else if isProtectedAt disk.root then
        .fail
          "Este entorno contiene una instalación de juego y no puede reconstruirse automáticamente"
      else do
        .perform (.rename .root .backup) (pfx.io "preservar el entorno anterior")
        pfx.syncParent
        return true : FsProg Bool).Meets device (Move host pfx.location) (fun r t =>
          match r with
          | .ok true => Preserved host pfx disk t
          | .ok false => Cleared disk t
          | .error _ => t = disk ∨ Preserved host pfx disk t ∨ Cleared disk t) disk := by
    intro class'
    split
    · exact .inl rfl
    split
    · exact .inl rfl
    next free unprotected =>
      obtain ⟨ino, dev, es, found, owned⟩ := rootClass_owned class'
      refine Prog.Meets.bind (meets_atomic rfl (.stay _) (fun e => .inl rfl) fun ok => ?_)
      obtain ⟨node, hnode, vacant, mount, moved⟩ := rename_success ok
      rw [Disk.get_root, found] at hnode
      cases hnode
      have hdev : dev = disk.parentDev := by simpa [isMount] using mount
      subst hdev
      have preserved : Preserved host pfx disk
          ((disk.set .root none).set .backup (some (.dir ino disk.parentDev es))) := by
        refine ⟨ino, es, found, class', vacant, ?_, rfl⟩
        rw [found] at unprotected
        exact Bool.not_eq_true _ ▸ unprotected
      rw [moved]
      refine ⟨.preserve found owned vacant, ?_⟩
      refine Prog.Meets.bind (syncParent_meets (.stay _) fun r => ?_)
      cases r with
      | error e => exact .inr (.inl preserved)
      | ok u => exact preserved
  split
  next hc => exact ⟨.inl (classifyRoot_absent.mp hc), (Disk.set_root_self
      (classifyRoot_absent.mp hc)).symm⟩
  next hc =>
    refine Prog.Meets.bind (meets_atomic rfl (.stay _) (fun e => .inl rfl) fun ok => ?_)
    obtain ⟨ino, found, moved⟩ := removeDir_success ok
    have cleared : Cleared disk (disk.set .root none) := ⟨.inr ⟨ino, found⟩, rfl⟩
    rw [moved]
    refine ⟨.recovery (.dropEmptyRoot found), ?_⟩
    refine Prog.Meets.bind (syncParent_meets (.stay _) fun r => ?_)
    cases r with
    | error e => exact .inr (.inr cleared)
    | ok u => exact cleared
  next hc => exact reset (.inl hc)
  next hc => exact reset (.inr hc)
  next => exact .inl rfl

/-- **A transaction refines the abstract protocol**: from every disk, and however its calls are
disturbed, each change it makes is a move. -/
theorem transaction_meets (host : Host) (pfx : ManagedPrefix) (process : Process)
    (fingerprint : String) (work : Work) (kind : TransactionKind) (disk : Disk) :
    (runManagedTransaction host pfx process fingerprint work kind).Meets device
      (Move host pfx.location) (fun _ _ => True) disk := by
  have transacted : ∀ disk, (transact host pfx process fingerprint work).Meets device
      (Move host pfx.location) (fun _ _ => True) disk := by
    intro disk
    refine Prog.Meets.bind (Prog.Meets.attempt (forward_meets.post fun r t hr => ?_))
    cases r with
    | ok u =>
      exact Prog.Meets.attempt ((recover_meets_move process.active).post fun _ _ _ => trivial)
    | error failure => exact rollback_meets (hr _ _ rfl)
  cases kind with
  | initialSetup => exact transacted disk
  | reset =>
    have refused : ∀ (primary : String) (t : Disk),
        (refuseReset host pfx process primary : FsProg (Except String RecoveryOutcome)).Meets device
          (Move host pfx.location) (fun _ _ => True) t := by
      intro primary t
      change Prog.Meets device _ (if _ then _ else _) _ _
      split
      · exact reconcile_meets primary
      · trivial
    refine Prog.Meets.bind (Prog.Meets.attempt (preserveForReset_meets.post fun r t _ => ?_))
    cases r with
    | error primary => exact refused primary t
    | ok moved => exact transacted t

end Whole

end RoLauncher.Prefix
