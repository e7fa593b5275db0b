import Mathlib.Data.List.Infix
import RoLauncher.Artifacts.Activation
import RoLauncher.Crash.Only

/-!
# Readers that hold no guard (`tools/artifacts/mod.rs`)

`artifact_cache_state_at` opens the canonical directory and looks at it through the descriptor it
got, while another holder of the guard installs. What it answers as ready was ready as a whole when
it answered (`reader_sees_one_generation`).

A generation is a directory from its creation to its removal; the tree of a work
directory becomes one when it arrives in the slot. The kernel gives each an inode number, which no
other has that is bound to a name or held open.
-/

namespace RoLauncher.Artifacts

open RoLauncher.Files RoLauncher.Crash

/-! ## Which trees the installer moves -/

section Orderly

variable (descriptor : ArtifactDescriptor)

/-- The trees of the runtime directory come from work directories, pass the slot, and end where they
are canonical or are removed. -/
def Orderly : InstallOp → Prop
  | .rename (.inner wrapper _) destination => wrapper ≠ descriptor.id ∧ destination = activationSlot descriptor
  | .rename (.top source) destination => source = activationSlot descriptor ∧ destination = descriptor.id
  | .exchange source destination => source = activationSlot descriptor ∧ destination = descriptor.id
  | .createDir name | .removeDir name => name ≠ descriptor.id
  | _ => True

end Orderly

section Orderly

variable {catalog : Catalog} {descriptor : ArtifactDescriptor} {name : String} {temp : ReceiptTemp}

theorem reading_orderly {α : Type} {ok : Runtime → InstallProg α} {failed : String → InstallProg α}
    (read : ∀ s, (ok s).Only (Orderly descriptor)) (not : ∀ e, (failed e).Only (Orderly descriptor)) :
    (reading ok failed).Only (Orderly descriptor) := by
  refine ⟨trivial, fun r => ?_⟩
  cases r with
  | ok done => exact read
  | error e => exact not e

theorem artifactCacheStateAt_orderly (place : Place) :
    (artifactCacheStateAt catalog descriptor place).Only (Orderly descriptor) := by
  refine reading_orderly (fun s => ?_) fun _ => trivial
  split
  · trivial
  · refine reading_orderly (fun _ => ?_) fun _ => trivial
    split
    · split
      · trivial
      · exact reading_orderly (fun _ => trivial) fun _ => trivial
    · trivial
  · trivial

theorem matchingReceiptAt_orderly (entry : Option Node) :
    (matchingReceiptAt catalog descriptor entry).Only (Orderly descriptor) :=
  reading_orderly (fun _ => trivial) fun _ => trivial

theorem classify_orderly (place : Place) : (classify catalog descriptor place).Only (Orderly descriptor) := by
  refine reading_orderly (fun s => ?_) fun _ => trivial
  split
  · trivial
  · refine reading_orderly (fun _ => ?_) fun _ => trivial
    split
    · refine reading_orderly (fun _ => ?_) fun _ => trivial
      split
      · exact (matchingReceiptAt_orderly _).bind fun _ => trivial
      · trivial
    · refine (matchingReceiptAt_orderly _).bind fun matching => ?_
      split
      · trivial
      · exact (artifactCacheStateAt_orderly place).bind fun _ => trivial
  · trivial

theorem writeReceipt_orderly (place : Place) : (writeReceipt catalog descriptor temp place).Only (Orderly descriptor) := by
  have read : (run .read).Only (Orderly descriptor) := .perform trivial
  refine read.bind fun _ => (Prog.Only.attempt ?_).bind fun written => ?_
  · refine Prog.Only.bind (.perform trivial) fun _ => Prog.Only.bind (.perform trivial) fun _ => ?_
    exact Prog.Only.bind (.perform trivial) fun _ => read
  · cases written with
    | ok done => trivial
    | error e => exact Prog.Only.bind (.performIgnoring trivial) fun _ => trivial

theorem elevateV1_orderly (place : Place) : (elevateV1 catalog descriptor temp place).Only (Orderly descriptor) := by
  refine (artifactCacheStateAt_orderly place).bind fun state => ?_
  split
  · trivial
  · refine reading_orderly (fun s => ?_) fun _ => trivial
    split
    · split
      · exact writeReceipt_orderly place
      · trivial
    · trivial
    · trivial

theorem cleanupTree_orderly (residue : name ≠ descriptor.id) : (cleanupTree name).Only (Orderly descriptor) := by
  refine Prog.Only.bind (.perform trivial) fun _ => fun s => ?_
  refine Prog.Only.bind (.forM fun entry _ => ?_) fun _ => ?_
  · split
    · trivial
    · refine reading_orderly (fun t => ?_) fun _ => trivial
      split
      · exact .perform trivial
      · exact .perform trivial
  · refine Prog.Only.bind (.perform trivial) fun _ => Prog.Only.bind (.perform trivial) fun _ => ?_
    exact Prog.Only.bind (.perform residue) fun _ => .perform trivial

theorem cleanupOwned_orderly (residue : name ≠ descriptor.id) :
    (cleanupOwned catalog descriptor name).Only (Orderly descriptor) := by
  have tombstone : (do
      run (.renameIn (.top name) MARKER_FILE CLEANUP false)
      run .read
      cleanupTree name).Only (Orderly descriptor) :=
    Prog.Only.bind (.perform trivial) fun _ => Prog.Only.bind (.perform trivial) fun _ => cleanupTree_orderly residue
  refine (classify_orderly _).bind fun tree => ?_
  cases tree with
  | absent => trivial
  | ready => exact tombstone
  | ownedIncomplete => exact tombstone
  | cleanup => exact cleanupTree_orderly residue
  | foreign => trivial

theorem recover_orderly : (recover catalog descriptor).Only (Orderly descriptor) := by
  refine (classify_orderly _).bind fun final => (classify_orderly _).bind fun slot => ?_
  split
  · trivial
  · cases slot with
    | absent => trivial
    | foreign =>
      dsimp only
      split
      · trivial
      · trivial
    | ready => exact cleanupOwned_orderly (activationSlot_ne_id descriptor)
    | ownedIncomplete => exact cleanupOwned_orderly (activationSlot_ne_id descriptor)
    | cleanup => exact cleanupOwned_orderly (activationSlot_ne_id descriptor)

theorem sweepResidue_orderly (visible : descriptor.Visible) :
    (sweepResidue catalog descriptor).Only (Orderly descriptor) := by
  refine Prog.Only.bind (.perform trivial) fun _ => fun s => .forM fun name _ => ?_
  split
  next => trivial
  next selected =>
    have residue : name ≠ descriptor.id := by
      refine residue_ne_id visible ?_
      rw [Bool.and_eq_true, Bool.not_eq_true', Bool.not_eq_true', not_and_or, Bool.not_eq_false, Bool.not_eq_false]
        at selected
      exact selected
    have clean (kept : Bool) : (if kept then .ret () else cleanWork catalog descriptor name : InstallProg Unit).Only
        (Orderly descriptor) := by
      split
      · trivial
      · exact (Prog.Only.attempt (cleanupOwned_orderly residue)).bind fun _ => trivial
    dsimp only
    split
    · exact (artifactCacheStateAt_orderly _).bind fun _ => clean _
    · exact clean false

theorem inspectTarget_orderly (policy : ExistingTargetPolicy) :
    (inspectTarget catalog descriptor temp policy).Only (Orderly descriptor) := by
  refine (classify_orderly _).bind fun tree => ?_
  cases tree with
  | ready => exact (Prog.Only.attempt (elevateV1_orderly _)).bind fun _ => trivial
  | absent => trivial
  | ownedIncomplete =>
    dsimp only
    split
    · trivial
    · trivial
  | cleanup => trivial
  | foreign => trivial

theorem prepare_orderly (extracted : Place) : (prepare catalog descriptor temp extracted).Only (Orderly descriptor) := by
  refine reading_orderly (fun s => ?_) fun _ => trivial
  split
  · split
    · trivial
    · refine reading_orderly (fun _ => ?_) fun _ => trivial
      split
      · trivial
      · refine (writeReceipt_orderly _).bind fun _ => (artifactCacheStateAt_orderly _).bind fun state => ?_
        split
        · trivial
        · trivial
  · trivial

theorem commit_orderly (replace : Bool) : (commit catalog descriptor replace).Only (Orderly descriptor) := by
  refine (artifactCacheStateAt_orderly _).bind fun state => ?_
  split
  · trivial
  · have sync : (Prog.perform .read fun error =>
        s!"{descriptor.id} quedó activado; falló fsync del padre: {error}" : InstallProg Unit).Only
        (Orderly descriptor) := .perform trivial
    dsimp only
    split
    · refine (classify_orderly _).bind fun final => ?_
      split
      · trivial
      · exact Prog.Only.bind (.perform ⟨rfl, rfl⟩) fun _ => sync
    · exact Prog.Only.bind (.perform ⟨rfl, rfl⟩) fun _ => sync

theorem activate_orderly {wrapper : String} (hidden : wrapper ≠ descriptor.id) (policy : ExistingTargetPolicy) :
    (activate catalog descriptor (.inner wrapper name) policy).Only (Orderly descriptor) := by
  refine (artifactCacheStateAt_orderly _).bind fun state => ?_
  split
  · trivial
  · refine recover_orderly.bind fun _ => (classify_orderly _).bind fun final => ?_
    split
    · trivial
    · split
      · refine Prog.Only.bind (.perform ⟨hidden, rfl⟩) fun _ => (Prog.Only.attempt ?_).bind fun result => ?_
        · refine Prog.Only.bind (.perform trivial) fun _ => Prog.Only.bind (.perform trivial) fun _ => ?_
          refine (classify_orderly _).bind fun final => ?_
          split
          · exact commit_orderly false
          · split
            · exact commit_orderly true
            · trivial
        · refine (Prog.Only.attempt recover_orderly).bind fun recovery => ?_
          cases recovery with
          | ok done =>
            cases result with
            | ok done => trivial
            | error primary => trivial
          | error e =>
            cases result with
            | ok done => trivial
            | error primary => trivial
      · trivial

theorem createWork_orderly (residue : name ≠ descriptor.id) :
    (createWork catalog descriptor temp name).Only (Orderly descriptor) := by
  refine Prog.Only.bind (.perform residue) fun _ => (writeReceipt_orderly _).bind fun _ => ?_
  exact .perform trivial

section Import

variable (call : ImportCall)

theorem leave_orderly (cleanup : ImportCleanup) (answer : Except String Unit) :
    (leave catalog descriptor call cleanup answer).Only (Orderly descriptor) := by
  have clean {name : String} (hidden : descriptor.Private name) :
      (cleanWork catalog descriptor name).Only (Orderly descriptor) :=
    (Prog.Only.attempt (cleanupOwned_orderly hidden.1)).bind fun _ => trivial
  exact Prog.Only.bind (.bind (.onlyIf (.performIgnoring trivial)) fun _ =>
    .bind (.onlyIf (clean (staging_private call))) fun _ => clean (snapshotDirectory_private call))
    fun _ => .ofExcept answer

theorem installSnapshot_orderly : (installSnapshot catalog descriptor call).Only (Orderly descriptor) := by
  refine (Prog.Only.attempt (createWork_orderly (staging_private call).1)).bind fun created => ?_
  cases created with
  | error e => exact leave_orderly call _ _
  | ok done =>
    refine (Prog.Only.attempt (Prog.Only.bind (.perform trivial) fun _ => ?_)).bind fun result =>
      leave_orderly call _ result
    exact (prepare_orderly _).bind fun _ => activate_orderly (staging_private call).1 _

theorem importSnapshot_orderly (needed : Bool) :
    (importSnapshot catalog descriptor call needed).Only (Orderly descriptor) := by
  refine (Prog.Only.attempt (.perform trivial)).bind fun created => ?_
  cases created with
  | error e => exact leave_orderly call _ _
  | ok done =>
    refine (Prog.Only.attempt (Prog.Only.bind (.perform trivial) fun _ => .ofExcept _)).bind fun copied => ?_
    cases copied with
    | error e => exact leave_orderly call _ _
    | ok done =>
      cases needed with
      | false => exact leave_orderly call _ _
      | true => exact installSnapshot_orderly call

theorem importArchiveLocked_orderly :
    (importArchiveLocked catalog descriptor call).Only (Orderly descriptor) := by
  refine Prog.Only.bind (.ofExcept _) fun _ => Prog.Only.bind (.perform trivial) fun _ => ?_
  refine recover_orderly.bind fun _ => (inspectTarget_orderly _).bind fun needed => ?_
  exact (createWork_orderly (snapshotDirectory_private call).1).bind fun _ => importSnapshot_orderly call needed

end Import

theorem Entry.orderly (visible : descriptor.Visible) {p : InstallProg Unit}
    (entry : Entry catalog descriptor p) : p.Only (Orderly descriptor) := by
  cases entry with
  | needsInstall temp policy =>
    refine Prog.Only.discard (recover_orderly.bind fun _ => (sweepResidue_orderly visible).bind fun _ => ?_)
    exact inspectTarget_orderly policy
  | inspectTarget temp policy => exact (inspectTarget_orderly policy).discard
  | recover => exact recover_orderly
  | sweepResidue => exact sweepResidue_orderly visible
  | cleanupOwned residue => exact cleanupOwned_orderly residue
  | createWork temp hidden => exact createWork_orderly hidden.1
  | fill work hidden => exact .perform trivial
  | prepare temp hidden => exact prepare_orderly _
  | importArchiveLocked call => exact importArchiveLocked_orderly call

end Orderly

/-! ## Generations -/

/-- What a call that ends well makes of a name of the runtime directory: where the tree is then. -/
def carried : InstallOp → String → Option String
  | .rename (.top source) destination, name => some (if name = source then destination else name)
  | .exchange source destination, name =>
    some (if name = source then destination else if name = destination then source else name)
  | .removeDir removed, name => if name = removed then none else some name
  | _, name => some name

/-- Where a call brings a generation that was none before. -/
def arrival : InstallOp → Option String
  | .rename (.inner _ _) destination => some destination
  | .createDir name => some name
  | _ => none

/-- Where the generations are after a call; `next` is the one it makes. -/
def rehome (o : InstallOp) (next : Nat) (home : Nat → Option String) (g : Nat) : Option String :=
  if g = next ∧ (arrival o).isSome then arrival o else (home g).bind (carried o)

/-! ## The reader -/

/-- What a payload validator asks of the entries of a directory, one read after the other. `ν` is
what else an answer can depend on: a read that fails, or that a link leads elsewhere. -/
inductive Reads (ν : Type) where
  | ret (answer : Bool)
  | read (k : Entries → ν → Reads ν)

namespace Reads

variable {ν : Type}

/-- The validator can accept the directory, when that stays as it is. -/
inductive Accepts (es : Entries) : Reads ν → Prop
  | ret : Accepts es (.ret true)
  | read {k : Entries → ν → Reads ν} (noise : ν) : Accepts es (k es noise) → Accepts es (.read k)

/-- No read depends on a name of the installer. -/
def Payload : Reads ν → Prop
  | .ret _ => True
  | .read k => ∀ es noise, (k es noise).Payload ∧ ∀ es' : Entries,
      (∀ name, reserved name = false → es'.find name = es.find name) → k es' noise = k es noise

end Reads

/-- A call of `artifact_cache_state_at`. It has the directory open from its open on to its last look
at the root; `seen` are the directories its reads looked into. -/
inductive Reader (ν : Type) where
  | idle
  | called
  | opening
  | receipt (pinned : Nat)
  | payload (pinned : Nat) (seen : List Nat) (rest : Reads ν)
  | checking (pinned : Nat) (seen : List Nat) (state : ArtifactCacheState)
  | returned (state : ArtifactCacheState) (seen : List Nat)

def Reader.held {ν : Type} : Reader ν → Option Nat
  | .receipt pinned | .payload pinned _ _ | .checking pinned _ _ => some pinned
  | _ => none

def Reader.ended {ν : Type} : Reader ν → Bool
  | .idle | .returned _ _ => true
  | _ => false

def treeEntries : Option Node → Entries
  | some (.dir _ _ es) => es
  | _ => []

/-- The runtime directory and the process that installs, the generations that were made, where they
are bound, and one reader. -/
structure World (ν : Type) where
  disk : Config InstallOp Runtime String String
  home : Nat → Option String
  next : Nat
  reader : Reader ν

namespace World

variable {ν : Type}

/-- The generation is bound to a name, or held open. -/
def Live (w : World ν) (g : Nat) : Prop := w.home g ≠ none ∨ w.reader.held = some g

/-- The entries of a generation now; none when it was removed. -/
def entriesOf (w : World ν) (g : Nat) : Entries :=
  match w.home g with
  | some name => treeEntries (w.disk.1.get (.top name))
  | none => []

/-- No process and no reader, and every entry of the runtime directory is a generation. -/
def start (s : Runtime) : World ν where
  disk := (s, none)
  home g := s.entries.names[g]?
  next := s.entries.names.length
  reader := .idle

end World

section Steps

variable {ν : Type} (catalog : Catalog) (descriptor : ArtifactDescriptor) (inode : Nat → Nat)
  (reads : Reads ν)

/-- One step of the process that installs, or its end. -/
inductive WriterStep (w : World ν) : World ν → Prop
  | start {p : InstallProg Unit} : w.disk.2 = none → Entry catalog descriptor p →
      WriterStep w { w with disk := (w.disk.1, some p) }
  | look {k : Runtime → InstallProg Unit} : w.disk.2 = some (.look k) →
      WriterStep w { w with disk := (w.disk.1, some (k w.disk.1)) }
  | done {o : InstallOp} {k : Except String Unit → InstallProg Unit} {t : Runtime} : w.disk.2 = some (.act o k) →
      execOp descriptor o w.disk.1 = (.ok (), t) →
      ((arrival o).isSome = true → ∀ g, w.Live g → inode g ≠ inode w.next) →
      WriterStep w { w with
        disk := (t, some (k (.ok ())))
        home := rehome o w.next w.home
        next := if (arrival o).isSome then w.next + 1 else w.next }
  | failed {o : InstallOp} {k : Except String Unit → InstallProg Unit} {t : Runtime} {e : String} :
      w.disk.2 = some (.act o k) → execOp descriptor o w.disk.1 = (.error e, t) →
      WriterStep w { w with disk := (t, some (k (.error e))) }
  | fault {o : InstallOp} {k : Except String Unit → InstallProg Unit} {t : Runtime} {e : String} :
      w.disk.2 = some (.act o k) → tornOp o w.disk.1 t → WriterStep w { w with disk := (t, some (k (.error e))) }
  | stop {p : InstallProg Unit} : w.disk.2 = some p → WriterStep w { w with disk := (w.disk.1, none) }
  | killInside {o : InstallOp} {k : Except String Unit → InstallProg Unit} {t : Runtime} :
      w.disk.2 = some (.act o k) → tornOp o w.disk.1 t → WriterStep w { w with disk := (t, none) }

/-- What the answer to the receipt leads to. -/
def afterReceipt (pinned : Nat) : Option Node → Reader ν := fun marker =>
  match parseStoredReceipt catalog marker with
  | .ok (some stored) =>
    if storedIdentityMatchesDescriptor descriptor stored then .payload pinned [pinned] reads
    else .checking pinned [pinned] .receiptMismatch
  | _ => .checking pinned [pinned] .invalidReceipt

/-- One step of the reader. It reads the directory it has open, under whatever name that is. -/
inductive ReaderStep (w : World ν) : Reader ν → Prop
  | call : w.reader.ended = true → ReaderStep w .called
  | missing : w.reader = .called → w.disk.1.canonical descriptor = none → ReaderStep w (.returned .missing [])
  /-- The root is no directory, or cannot be looked at. -/
  | invalid : w.reader = .called → ReaderStep w (.returned .invalidDirectory [])
  | found : w.reader = .called → entryKind (w.disk.1.canonical descriptor) = .directory → ReaderStep w .opening
  | opens {g : Nat} : w.reader = .opening → w.home g = some descriptor.id →
      entryKind (w.disk.1.canonical descriptor) = .directory → ReaderStep w (.receipt g)
  | notOpened : w.reader = .opening → ReaderStep w (.returned .invalidDirectory [])
  | receipt {g : Nat} : w.reader = .receipt g →
      ReaderStep w (afterReceipt catalog descriptor reads g ((w.entriesOf g).find MARKER_FILE))
  | unreadable {g : Nat} : w.reader = .receipt g → ReaderStep w (.checking g [g] .invalidReceipt)
  | payload {g : Nat} {seen : List Nat} {k : Entries → ν → Reads ν} (noise : ν) :
      w.reader = .payload g seen (.read k) →
      ReaderStep w (.payload g (seen ++ [g]) (k (w.entriesOf g) noise))
  | validated {g : Nat} {seen : List Nat} {answer : Bool} : w.reader = .payload g seen (.ret answer) →
      ReaderStep w (.checking g seen (if answer then .ready else .incompletePayload))
  | same {g h : Nat} {seen : List Nat} {state : ArtifactCacheState} : w.reader = .checking g seen state →
      w.home h = some descriptor.id → entryKind (w.disk.1.canonical descriptor) = .directory →
      inode h = inode g → ReaderStep w (.returned state seen)
  /-- A generation changed: revalidate the current canonical inode. -/
  | changed {g h : Nat} {seen : List Nat} {state : ArtifactCacheState} : w.reader = .checking g seen state →
      w.home h = some descriptor.id →
      (entryKind (w.disk.1.canonical descriptor) ≠ .directory ∨ inode h ≠ inode g) → ReaderStep w .opening
  | gone {g : Nat} {seen : List Nat} {state : ArtifactCacheState} : w.reader = .checking g seen state →
      w.disk.1.canonical descriptor = none → ReaderStep w (.returned .missing [])
  | unchecked {g : Nat} {seen : List Nat} {state : ArtifactCacheState} : w.reader = .checking g seen state →
      ReaderStep w (.returned .invalidDirectory [])

inductive WorldStep (w : World ν) : World ν → Prop
  | writer {w' : World ν} : WriterStep catalog descriptor inode w w' → WorldStep w w'
  | reader {reader : Reader ν} : ReaderStep catalog descriptor inode reads w reader →
      WorldStep w { w with reader }

abbrev WorldRun : World ν → World ν → Prop :=
  Relation.ReflTransGen (WorldStep catalog descriptor inode reads)

end Steps

/-! ## What a call does to the runtime directory -/

/-- A call that can bind or unbind a name of the runtime directory. -/
def InstallOp.moves : InstallOp → Bool
  | .rename _ _ | .exchange _ _ | .createDir _ | .removeDir _ => true
  | _ => false

/-- At most one entry changes, and none comes or goes. -/
structure InPlace (s t : Runtime) : Prop where
  one : ∃ root, ∀ other, other ≠ root → t.get (.top other) = s.get (.top other)
  bound : ∀ name, (t.get (.top name)).isSome = (s.get (.top name)).isSome
  retired : s.slotRetired = true → t.slotRetired = true

section Calls

variable {descriptor : ArtifactDescriptor} {s t : Runtime} {o : InstallOp} {place : Place}

theorem InPlace.refl (s : Runtime) : InPlace s s := ⟨⟨"", fun _ _ => rfl⟩, fun _ => rfl, id⟩

theorem inPlace_set {ino dev : Nat} {es : Entries} (found : s.get place = some (.dir ino dev es)) (node : Node) :
    InPlace s (s.set place (some node)) where
  one := ⟨place.root, fun other ne => Runtime.get_set_of_ne ne⟩
  bound name := by
    by_cases here : name = place.root
    · subst here
      cases place with
      | top name =>
        show ((s.set (.top name) (some node)).get (.top name)).isSome = (s.get (.top name)).isSome
        rw [Runtime.get_set_top, found]
        rfl
      | inner wrapper name =>
        simp only [Runtime.get] at found
        split at found
        next outer there =>
          simp only [Runtime.set, there, Place.root, Runtime.get, Entries.find_put_self]
          rfl
        next => cases found
    · rw [Runtime.get_set_of_ne here]
  retired h := by rwa [Runtime.set_slotRetired]

theorem inPlace_inside (f : Entries → Except String Entries) : InPlace s (inside s place f).2 := by
  unfold inside
  split
  next ino dev es found =>
    split
    · exact inPlace_set found _
    · exact .refl s
  · exact .refl s
  · exact .refl s

theorem InPlace.noteTombstone (h : InPlace s t) (place : Place) (destination : String) :
    InPlace s (noteTombstone descriptor place destination t) where
  one := by
    obtain ⟨root, others⟩ := h.one
    exact ⟨root, fun other ne => by rw [noteTombstone_get, others other ne]⟩
  bound name := by rw [noteTombstone_get, h.bound]
  retired before := by
    unfold Artifacts.noteTombstone
    split
    · exact Bool.or_eq_true_iff.mpr (.inl (h.retired before))
    · exact h.retired before

theorem exec_inPlace (still : o.moves = false) : InPlace s (execOp descriptor o s).2 := by
  cases o with
  | read => exact .refl s
  | createDir name => cases still
  | rename source destination => cases still
  | exchange source destination => cases still
  | removeDir name => cases still
  | renameIn place source destination replace =>
    simp only [execOp]
    split
    · exact (inPlace_inside _).noteTombstone place destination
    · exact .refl s
  | createNew place name => exact inPlace_inside _
  | write place name data => exact inPlace_inside _
  | removeFile place name => exact inPlace_inside _
  | removeDirAll place name => exact inPlace_inside _
  | fill wrapper work =>
    simp only [execOp]
    split
    next ino dev es found => exact @inPlace_set s (.top wrapper) _ _ _ found _
    next => exact .refl s

theorem torn_inPlace (torn : tornOp o s t) : InPlace s t := by
  obtain rfl | ⟨ino, dev, es, es', found, -, rfl⟩ := torn
  · exact .refl t
  · exact inPlace_set found _

/-- What a call that can bind or unbind a name does: nothing, or one thing. -/
inductive Moved (descriptor : ArtifactDescriptor) (s : Runtime) : InstallOp → Except String Unit × Runtime → Prop
  | failed {o : InstallOp} {e : String} : Moved descriptor s o (.error e, s)
  | rename {source : Place} {destination : String} {node : Node} (found : s.get source = some node)
      (absent : s.get (.top destination) = none) :
      Moved descriptor s (.rename source destination)
        (.ok (), noteRename descriptor source destination ((s.set source none).set (.top destination) (some node)) s)
  | exchange {source destination : String} {node node' : Node} (found : s.get (.top source) = some node)
      (found' : s.get (.top destination) = some node') :
      Moved descriptor s (.exchange source destination) (.ok (), noteExchange descriptor source destination
        ((s.set (.top source) (some node')).set (.top destination) (some node)) s)
  | createDir {name : String} (absent : s.get (.top name) = none) :
      Moved descriptor s (.createDir name) (.ok (), noteMade name (s.set (.top name) (some (.dir 0 0 []))))
  | removeDir {name : String} {ino dev : Nat} (found : s.get (.top name) = some (.dir ino dev [])) :
      Moved descriptor s (.removeDir name) (.ok (), s.set (.top name) none)

theorem exec_moved (moves : o.moves = true) : Moved descriptor s o (execOp descriptor o s) := by
  have unbound {place : Place} (absent : ¬ (s.get place).isSome = true) : s.get place = none := by
    simpa using absent
  cases o with
  | rename source destination =>
    simp only [execOp]
    split
    next => exact .failed
    next node found =>
      split
      next => exact .failed
      next absent => exact .rename found (unbound absent)
  | exchange source destination =>
    simp only [execOp]
    split
    next node node' found found' => exact .exchange found found'
    next => exact .failed
  | createDir name =>
    simp only [execOp]
    split
    next => exact .failed
    next absent => exact .createDir (unbound absent)
  | removeDir name =>
    simp only [execOp]
    split
    next => exact .failed
    next found =>
      split
      next empty =>
        subst empty
        exact .removeDir found
      next => exact .failed
    next => exact .failed
  | _ => cases moves

theorem failed_inPlace {e : String} (failed : execOp descriptor o s = (.error e, t)) : InPlace s t := by
  by_cases still : o.moves = false
  · have effect := @exec_inPlace descriptor s o still
    rwa [failed] at effect
  · have effect := @exec_moved descriptor s o (eq_true_of_ne_false still)
    rw [failed] at effect
    cases effect
    exact .refl s

end Calls

/-! ## Where the generations are -/

/-- Every entry of the runtime directory is one generation. -/
structure Homes (s : Runtime) (home : Nat → Option String) (next : Nat) : Prop where
  one : ∀ g h name, home g = some name → home h = some name → g = h
  bound : ∀ name, (s.get (.top name)).isSome = true ↔ ∃ g, home g = some name
  old : ∀ g name, home g = some name → g < next

section Homes

variable {descriptor : ArtifactDescriptor} {s t : Runtime} {o : InstallOp} {home : Nat → Option String} {next : Nat}

theorem get_set (s : Runtime) (name other : String) (node : Option Node) :
    (s.set (.top name) node).get (.top other) = if other = name then node else s.get (.top other) := by
  by_cases same : other = name
  · rw [same, if_pos rfl, Runtime.get_set_top]
  · rw [if_neg same]
    exact @Runtime.get_set_of_ne s (.top name) node other same

/-- The trees that stay are carried to names of their own. -/
theorem Homes.carry (homes : Homes s home next) (none : arrival o = none)
    (one : ∀ a b c, (s.get (.top a)).isSome = true → (s.get (.top b)).isSome = true →
      carried o a = some c → carried o b = some c → a = b)
    (bound : ∀ c, (t.get (.top c)).isSome = true ↔ ∃ a, (s.get (.top a)).isSome = true ∧ carried o a = some c) :
    Homes t (rehome o next home) next := by
  have after (g : Nat) : rehome o next home g = (home g).bind (carried o) := by
    rw [rehome, none, if_neg (by simp)]
  have before {g : Nat} {c : String} (there : rehome o next home g = some c) :
      ∃ a, home g = some a ∧ carried o a = some c := by
    rw [after] at there
    exact Option.bind_eq_some_iff.mp there
  have present {g : Nat} {a : String} (here : home g = some a) : (s.get (.top a)).isSome = true :=
    (homes.bound a).mpr ⟨g, here⟩
  refine ⟨fun g h c there there' => ?_, fun c => ?_, fun g c there => ?_⟩
  · obtain ⟨a, here, goes⟩ := before there
    obtain ⟨b, here', goes'⟩ := before there'
    have same := one a b c (present here) (present here') goes goes'
    subst same
    exact homes.one g h a here here'
  · rw [bound]
    refine ⟨fun found => ?_, fun found => ?_⟩
    · obtain ⟨a, here, goes⟩ := found
      obtain ⟨g, home⟩ := (homes.bound a).mp here
      exact ⟨g, by rw [after, home]; exact goes⟩
    · obtain ⟨g, there⟩ := found
      obtain ⟨a, here, goes⟩ := before there
      exact ⟨a, present here, goes⟩
  · obtain ⟨a, here, -⟩ := before there
    exact homes.old g a here

/-- A tree arrives where none is. -/
theorem Homes.arrive (homes : Homes s home next) {name : String} (arrives : arrival o = some name)
    (absent : s.get (.top name) = none)
    (bound : ∀ c, (t.get (.top c)).isSome = if c = name then true else (s.get (.top c)).isSome) :
    Homes t (rehome o next home) (next + 1) := by
  have stay (c : String) : carried o c = some c := by
    cases o with
    | rename source destination =>
      cases source with
      | inner wrapper inner => rfl
      | top source => cases arrives
    | createDir created => rfl
    | _ => cases arrives
  have after (g : Nat) : rehome o next home g = if g = next then some name else home g := by
    rw [rehome, arrives]
    by_cases new : g = next
    · rw [if_pos ⟨new, rfl⟩, if_pos new]
    · rw [if_neg fun both => new both.1, if_neg new]
      cases home g with
      | none => rfl
      | some c => exact stay c
  have apart (g : Nat) : home g ≠ some name := by
    intro there
    have found := (homes.bound name).mpr ⟨g, there⟩
    rw [absent] at found
    cases found
  have unused : home next = none := by
    cases there : home next with
    | none => rfl
    | some c => exact absurd (homes.old next c there) (Nat.lt_irrefl next)
  refine ⟨fun g h c there there' => ?_, fun c => ?_, fun g c there => ?_⟩
  · rw [after] at there there'
    have := homes.one g h c
    grind
  · rw [bound]
    have old := homes.bound c
    refine ⟨fun found => ?_, fun found => ?_⟩
    · by_cases same : c = name
      · exact ⟨next, by rw [after, if_pos rfl, same]⟩
      · rw [if_neg same] at found
        obtain ⟨g, there⟩ := old.mp found
        refine ⟨g, ?_⟩
        rw [after, if_neg, there]
        rintro rfl
        rw [unused] at there
        cases there
    · obtain ⟨g, there⟩ := found
      rw [after] at there
      split at there
      next =>
        cases there
        rw [if_pos rfl]
      next =>
        by_cases same : c = name
        · rw [if_pos same]
        · rw [if_neg same]
          exact old.mpr ⟨g, there⟩
  · rw [after] at there
    split at there
    next new => exact new ▸ Nat.lt_succ_self g
    next => exact Nat.lt_succ_of_lt (homes.old g c there)

theorem isSome_set_inner (s : Runtime) (wrapper inner other : String) (node : Option Node) :
    ((s.set (.inner wrapper inner) node).get (.top other)).isSome = (s.get (.top other)).isSome := by
  by_cases here : other = wrapper
  · subst here
    simp only [Runtime.set]
    split
    next found =>
      simp only [Runtime.get, found, Entries.find_put_self]
      rfl
    next => rfl
  · rw [@Runtime.get_set_of_ne s (.inner wrapper inner) node other here]

theorem rehome_still (still : o.moves = false) : rehome o next home = home ∧ arrival o = none := by
  have stay : arrival o = none ∧ carried o = some := by
    cases o with
    | rename source destination => cases still
    | exchange source destination => cases still
    | createDir name => cases still
    | removeDir name => cases still
    | _ => exact ⟨rfl, rfl⟩
  refine ⟨?_, stay.1⟩
  funext g
  rw [rehome, stay.1, if_neg (by simp), stay.2]
  exact Option.bind_fun_some (home g)

theorem Homes.inPlace (homes : Homes s home next) (still : InPlace s t) : Homes t home next :=
  ⟨homes.one, fun name => by rw [still.bound]; exact homes.bound name, homes.old⟩

theorem Homes.done (homes : Homes s home next) (done : execOp descriptor o s = (.ok (), t)) :
    Homes t (rehome o next home) (if (arrival o).isSome then next + 1 else next) := by
  by_cases still : o.moves = false
  · have place := @exec_inPlace descriptor s o still
    rw [done] at place
    rw [(@rehome_still o home next still).1, (@rehome_still o home next still).2]
    exact homes.inPlace place
  have effect := @exec_moved descriptor s o (eq_true_of_ne_false still)
  rw [done] at effect
  cases effect with
  | @rename source destination node found absent =>
    cases source with
    | inner wrapper inner =>
      refine homes.arrive rfl absent fun c => ?_
      rw [noteRename_get, get_set]
      split
      · rfl
      · exact isSome_set_inner s wrapper inner c none
    | top source =>
      have apart : source ≠ destination := by
        rintro rfl
        rw [absent] at found
        cases found
      refine homes.carry rfl (fun a b c here here' goes goes' => ?_) fun c => ?_
      · simp only [carried] at goes goes'
        grind
      · rw [noteRename_get, get_set, get_set]
        simp only [carried]
        grind
  | @exchange source destination node node' found found' =>
    refine homes.carry rfl (fun a b c here here' goes goes' => ?_) fun c => ?_
    · simp only [carried] at goes goes'
      grind
    · rw [noteExchange_get, get_set, get_set]
      simp only [carried]
      grind
  | @createDir name absent =>
    refine homes.arrive rfl absent fun c => ?_
    rw [noteMade_get, get_set]
    split
    · rfl
    · rfl
  | @removeDir name ino dev found =>
    refine homes.carry rfl (fun a b c here here' goes goes' => ?_) fun c => ?_
    · simp only [carried] at goes goes'
      grind
    · rw [get_set]
      simp only [carried]
      grind

end Homes

/-! ## What the reader knows -/

section Readers

variable {ν : Type} (catalog : Catalog) (descriptor : ArtifactDescriptor) (inode : Nat → Nat)

/-- What the reads so far say of the directory, as long as that is canonical. -/
def Knows (w : World ν) : Reader ν → Prop
  | .payload g seen rest => seen ≠ [] ∧ (∀ h, h ∈ seen → h = g) ∧ rest.Payload ∧
    (w.home g = some descriptor.id →
      matchingReceipt catalog descriptor ((w.entriesOf g).find MARKER_FILE) = true ∧
        (rest.Accepts (w.entriesOf g) → catalog.payloadReady descriptor (w.entriesOf g) = true))
  | .checking g seen state => seen ≠ [] ∧ (∀ h, h ∈ seen → h = g) ∧
    (state = .ready → w.home g = some descriptor.id →
      cacheStateInDirectory catalog descriptor (w.entriesOf g) = .ready)
  | _ => True

/-- What holds at every moment of a run. -/
structure Observed (w : World ν) : Prop where
  homes : Homes w.disk.1 w.home w.next
  old : ∀ g, w.reader.held = some g → g < w.next
  numbers : ∀ g h, w.Live g → w.Live h → inode g = inode h → g = h
  restored : w.disk.1.restored = false
  orderly : ∀ p, w.disk.2 = some p → p.Only (Orderly descriptor)
  bounded : Bounded (device descriptor) (Steps catalog descriptor) w.disk
  /-- The open directory is canonical, given up, or gone. -/
  held : ∀ g name, w.reader.held = some g → w.home g = some name →
    name = descriptor.id ∨ name = activationSlot descriptor ∧ w.disk.1.slotRetired = true
  knows : Knows catalog descriptor w w.reader

end Readers

section Readers

variable {ν : Type} {catalog : Catalog} {descriptor : ArtifactDescriptor} {inode : Nat → Nat} {w w' : World ν}

theorem WriterStep.sys (step : WriterStep catalog descriptor inode w w') :
    SysStep (device descriptor) (fun _ => Entry catalog descriptor) w.disk w'.disk := by
  have config {p : Option (InstallProg Unit)} (process : w.disk.2 = p) : w.disk = (w.disk.1, p) := by
    rw [← process]
  have acts {o : InstallOp} {k : Except String Unit → InstallProg Unit} {r : Except String Unit} {t : Runtime}
      (result : execOp descriptor o w.disk.1 = (r, t)) :
      SysStep (device descriptor) (fun _ => Entry catalog descriptor) (w.disk.1, some (.act o k)) (t, some (k r)) := by
    have moved : SysStep (device descriptor) (fun _ => Entry catalog descriptor) (w.disk.1, some (.act o k)) _ := .done
    rw [show (device descriptor).exec o w.disk.1 = (r, t) from result] at moved
    exact moved
  cases step with
  | start idle entry =>
    rw [config idle]
    exact .start entry
  | look process =>
    rw [config process]
    exact .look
  | done process done fresh =>
    rw [config process]
    exact acts done
  | failed process failed =>
    rw [config process]
    exact acts failed
  | fault process torn =>
    rw [config process]
    exact .fault torn
  | stop process =>
    rw [config process]
    exact .stop
  | killInside process torn =>
    rw [config process]
    exact .killInside torn

/-! ### Where the open directory goes -/

theorem canonical_kept {s t : Runtime} (still : InPlace s t) (steps : Steps catalog descriptor s t)
    (present : (s.canonical descriptor).isSome = true) :
    Kept catalog descriptor (treeEntries (s.canonical descriptor)) (treeEntries (t.canonical descriptor)) := by
  have same (h : t.canonical descriptor = s.canonical descriptor) : Kept catalog descriptor
      (treeEntries (s.canonical descriptor)) (treeEntries (t.canonical descriptor)) := by
    rw [h]
    exact .refl _
  cases steps.move with
  | stays h => exact same h
  | receipt before after ready kept =>
    rw [before, after]
    exact kept
  | committed absent =>
    rw [absent] at present
    cases present
  | exchanged owned brought ready given =>
    -- one entry changed at most, so both are what they were
    obtain ⟨root, others⟩ := still.one
    by_cases here : descriptor.id = root
    · have slot : t.slot descriptor = s.slot descriptor :=
        others _ (here ▸ activationSlot_ne_id descriptor)
      exact same (brought.trans (slot.symm.trans given))
    · exact same (others _ here)

/-- The open directory is not moved to the canonical place, and is untouched there while others
move. -/
theorem Observed.moved (obs : Observed catalog descriptor inode w) {o : InstallOp} {t : Runtime} {g : Nat}
    {name : String} (held : w.reader.held = some g) (orderly : Orderly descriptor o) (moves : o.moves = true)
    (done : execOp descriptor o w.disk.1 = (.ok (), t)) (restored : t.restored = false)
    (there : rehome o w.next w.home g = some name) :
    (name = descriptor.id ∧ w.home g = some descriptor.id ∧ t.canonical descriptor = w.disk.1.canonical descriptor) ∨
      name = activationSlot descriptor ∧ t.slotRetired = true := by
  have old := Nat.ne_of_lt (obs.old g held)
  rw [rehome, if_neg fun both => old both.1] at there
  obtain ⟨before, home, goes⟩ := Option.bind_eq_some_iff.mp there
  have place := obs.held g before held home
  have bound := (obs.homes.bound before).mpr ⟨g, home⟩
  have ne := activationSlot_ne_id descriptor
  have effect := @exec_moved descriptor w.disk.1 o moves
  rw [done] at effect
  cases effect with
  | @rename source destination node found absent =>
    have free : ¬ (w.disk.1.get (.top destination)).isSome = true := by simp [absent]
    cases source with
    | inner wrapper inner =>
      obtain ⟨hidden, rfl⟩ := orderly
      cases goes
      rcases place with rfl | ⟨rfl, -⟩
      · refine .inl ⟨rfl, home, ?_⟩
        rw [Runtime.canonical, noteRename_get, get_set, if_neg ne.symm]
        exact @Runtime.get_set_of_ne _ (.inner wrapper inner) none _ hidden.symm
      · exact absurd bound free
    | top source =>
      obtain ⟨rfl, rfl⟩ := orderly
      rcases place with rfl | ⟨rfl, retired⟩
      · exact absurd bound free
      · rw [noteRename, if_neg ne.symm, if_pos ⟨rfl, rfl⟩, retired] at restored
        simp at restored
  | @exchange source destination node node' found found' =>
    obtain ⟨rfl, rfl⟩ := orderly
    rcases place with rfl | ⟨rfl, retired⟩
    · simp only [carried, if_neg ne.symm, if_pos] at goes
      cases goes
      refine .inr ⟨rfl, ?_⟩
      rw [noteExchange, if_pos ⟨rfl, rfl⟩]
    · rw [noteExchange, if_pos ⟨rfl, rfl⟩, retired] at restored
      simp at restored
  | @createDir created absent =>
    have apart : created ≠ descriptor.id := orderly
    cases goes
    rcases place with rfl | ⟨rfl, retired⟩
    · refine .inl ⟨rfl, home, ?_⟩
      rw [Runtime.canonical, noteMade_get, get_set, if_neg apart.symm]
    · exact .inr ⟨rfl, retired⟩
  | @removeDir removed ino dev found =>
    have apart : removed ≠ descriptor.id := orderly
    simp only [carried] at goes
    split at goes
    next => cases goes
    next stays =>
      cases goes
      rcases place with rfl | ⟨rfl, retired⟩
      · refine .inl ⟨rfl, home, ?_⟩
        rw [Runtime.canonical, get_set, if_neg apart.symm]
      · exact .inr ⟨rfl, (Runtime.set_slotRetired ..).trans retired⟩

/-! ### One step -/

theorem Reads.Accepts.of_kept {reads : Reads ν} {es es' : Entries} (accepts : reads.Accepts es')
    (payload : reads.Payload) (kept : ∀ name, reserved name = false → es'.find name = es.find name) :
    reads.Accepts es := by
  induction accepts with
  | ret => exact .ret
  | read noise accepts ih =>
    obtain ⟨later, same⟩ := payload es noise
    rw [same es' kept] at ih
    exact .read noise (ih later)

/-- What the reader knows outlives a step of the installer. -/
theorem Knows.kept (lawful : catalog.Lawful descriptor) {reader : Reader ν} (knows : Knows catalog descriptor w reader)
    (stays : ∀ g, reader.held = some g → w'.home g = some descriptor.id →
      w.home g = some descriptor.id ∧ Kept catalog descriptor (w.entriesOf g) (w'.entriesOf g)) :
    Knows catalog descriptor w' reader := by
  have marker {es es' : Entries} (kept : Kept catalog descriptor es es')
      (matching : matchingReceipt catalog descriptor (es.find MARKER_FILE) = true) :
      matchingReceipt catalog descriptor (es'.find MARKER_FILE) = true := by
    rcases kept.marker with same | new
    · rwa [same]
    · rw [new, matching_rendered lawful]
  cases reader with
  | payload g seen rest =>
    obtain ⟨some, all, payload, known⟩ := knows
    refine ⟨some, all, payload, fun home => ?_⟩
    obtain ⟨before, kept⟩ := stays g rfl home
    obtain ⟨matching, ready⟩ := known before
    refine ⟨marker kept matching, fun accepts => ?_⟩
    rw [lawful.payload_reserved _ _ kept.payload]
    exact ready (accepts.of_kept payload kept.payload)
  | checking g seen state =>
    obtain ⟨some, all, known⟩ := knows
    refine ⟨some, all, fun ready home => ?_⟩
    obtain ⟨before, kept⟩ := stays g rfl home
    have here := cacheState_ready_iff.mp (known ready before)
    refine cacheState_ready_iff.mpr ⟨marker kept here.1, ?_⟩
    rw [lawful.payload_reserved _ _ kept.payload]
    exact here.2
  | idle => trivial
  | called => trivial
  | opening => trivial
  | receipt g => trivial
  | returned state seen => trivial

theorem entriesOf_canonical {g : Nat} (home : w.home g = some descriptor.id) :
    w.entriesOf g = treeEntries (w.disk.1.canonical descriptor) := by
  rw [World.entriesOf, home]

/-- A step at which no tree of the runtime directory comes or goes. -/
theorem Observed.inPlace (lawful : catalog.Lawful descriptor) (obs : Observed catalog descriptor inode w)
    {c : Config InstallOp Runtime String String} (still : InPlace w.disk.1 c.1)
    (steps : Steps catalog descriptor w.disk.1 c.1) (orderly : ∀ p, c.2 = some p → p.Only (Orderly descriptor))
    (bounded : Bounded (device descriptor) (Steps catalog descriptor) c) :
    Observed catalog descriptor inode { w with disk := c } where
  homes := obs.homes.inPlace still
  old := obs.old
  numbers := obs.numbers
  restored := steps.restored.trans obs.restored
  orderly := orderly
  bounded := bounded
  held g name held home := (obs.held g name held home).imp_right fun retired => ⟨retired.1, still.retired retired.2⟩
  knows := by
    refine obs.knows.kept lawful fun g held home => ⟨home, ?_⟩
    have home : w.home g = some descriptor.id := home
    rw [entriesOf_canonical home, @entriesOf_canonical _ _ { w with disk := c } g home]
    exact canonical_kept still steps ((obs.homes.bound _).mpr ⟨g, home⟩)

theorem WriterStep.observed (lawful : catalog.Lawful descriptor) (visible : descriptor.Visible)
    (obs : Observed catalog descriptor inode w) (step : WriterStep catalog descriptor inode w w') :
    Observed catalog descriptor inode w' := by
  obtain ⟨moved, bounded⟩ := step.sys.bounded (fun p entry => entry.meets lawful visible) obs.bounded
  have steps : Steps catalog descriptor w.disk.1 w'.disk.1 := by
    rcases moved with same | steps
    · rw [← same]
      exact .refl _
    · exact steps
  have rest {o : InstallOp} {k : Except String Unit → InstallProg Unit} (process : w.disk.2 = some (.act o k)) :
      Orderly descriptor o ∧ ∀ r, (k r).Only (Orderly descriptor) := obs.orderly _ process
  cases step with
  | start idle entry =>
    refine obs.inPlace lawful (.refl _) steps (fun p process => ?_) bounded
    cases process
    exact entry.orderly visible
  | look process =>
    refine obs.inPlace lawful (.refl _) steps (fun p next => ?_) bounded
    cases next
    exact obs.orderly _ process _
  | failed process failed =>
    refine obs.inPlace lawful (failed_inPlace failed) steps (fun p next => ?_) bounded
    cases next
    exact (rest process).2 _
  | fault process torn =>
    refine obs.inPlace lawful (torn_inPlace torn) steps (fun p next => ?_) bounded
    cases next
    exact (rest process).2 _
  | stop process =>
    refine obs.inPlace lawful (.refl _) steps (fun p never => ?_) bounded
    cases never
  | killInside process torn =>
    refine obs.inPlace lawful (torn_inPlace torn) steps (fun p never => ?_) bounded
    cases never
  | @done o k t process done fresh =>
    have orderly : ∀ p, some (k (.ok ())) = some p → p.Only (Orderly descriptor) := by
      intro p next
      cases next
      exact (rest process).2 _
    by_cases still : o.moves = false
    · have place := @exec_inPlace descriptor w.disk.1 o still
      rw [done] at place
      have same := @rehome_still o w.home w.next still
      rw [same.1, same.2]
      exact obs.inPlace lawful place steps orderly bounded
    · have restored := steps.restored.trans obs.restored
      have goes {g : Nat} {name : String} (held : w.reader.held = some g) (home : rehome o w.next w.home g = some name) :=
        obs.moved held (rest process).1 (Bool.not_eq_false _ ▸ still) done restored home
      -- whatever is live was so before, or has just come
      have live {g : Nat} (here : rehome o w.next w.home g ≠ none ∨ w.reader.held = some g) :
          w.Live g ∨ (arrival o).isSome = true ∧ g = w.next := by
        rcases here with home | held
        · by_cases new : g = w.next ∧ (arrival o).isSome = true
          · exact .inr new.symm
          · rw [rehome, if_neg new] at home
            refine .inl (.inl fun gone => home ?_)
            rw [gone]
            rfl
        · exact .inl (.inr held)
      constructor
      case homes => exact obs.homes.done done
      case old =>
        intro g held
        have old := obs.old g held
        show g < if (arrival o).isSome then w.next + 1 else w.next
        split
        · exact Nat.lt_succ_of_lt old
        · exact old
      case numbers =>
        intro g h here there same
        rcases live here with g_live | g_new
        · rcases live there with h_live | h_new
          · exact obs.numbers g h g_live h_live same
          · exact absurd (h_new.2 ▸ same) (fresh h_new.1 g g_live)
        · rcases live there with h_live | h_new
          · exact absurd (g_new.2 ▸ same).symm (fresh g_new.1 h h_live)
          · rw [g_new.2, h_new.2]
      case restored => exact restored
      case orderly => exact orderly
      case bounded => exact bounded
      case held =>
        intro g name held home
        rcases goes held home with canonical | retired
        · exact .inl canonical.1
        · exact .inr retired
      case knows =>
        refine obs.knows.kept lawful fun g held home => ?_
        rcases goes held home with canonical | retired
        · obtain ⟨-, before, same⟩ := canonical
          refine ⟨before, ?_⟩
          rw [entriesOf_canonical before, entriesOf_canonical home]
          show Kept catalog descriptor _ (treeEntries (t.canonical descriptor))
          rw [same]
          exact .refl _
        · exact absurd retired.1 (activationSlot_ne_id descriptor).symm

theorem afterReceipt_held (reads : Reads ν) (g : Nat) (marker : Option Node) :
    (afterReceipt catalog descriptor reads g marker).held = some g := by
  unfold afterReceipt
  split
  · split
    · rfl
    · rfl
  · rfl

theorem afterReceipt_knows {reads : Reads ν} (payload : reads.Payload)
    (sound : ∀ es, reads.Accepts es → catalog.payloadReady descriptor es = true) (w : World ν) (g : Nat) :
    Knows catalog descriptor w (afterReceipt catalog descriptor reads g ((w.entriesOf g).find MARKER_FILE)) := by
  have only : ∀ h, h ∈ [g] → h = g := fun h => List.mem_singleton.mp
  unfold afterReceipt
  split
  next stored parsed =>
    split
    next matching =>
      refine ⟨List.cons_ne_nil g [], only, payload, fun _ => ⟨?_, sound _⟩⟩
      rw [matchingReceipt, parsed]
      exact matching
    next => exact ⟨List.cons_ne_nil g [], only, fun never => by cases never⟩
  next => exact ⟨List.cons_ne_nil g [], only, fun never => by cases never⟩

theorem ReaderStep.observed {reads : Reads ν} (payload : reads.Payload)
    (sound : ∀ es, reads.Accepts es → catalog.payloadReady descriptor es = true)
    (obs : Observed catalog descriptor inode w) {reader : Reader ν}
    (step : ReaderStep catalog descriptor inode reads w reader) :
    Observed catalog descriptor inode { w with reader } := by
  -- what is open afterwards was open before, or is canonical
  have same (still : ∀ g, reader.held = some g → w.reader.held = some g ∨ w.home g = some descriptor.id)
      (knows : Knows catalog descriptor { w with reader } reader) :
      Observed catalog descriptor inode { w with reader } := by
    have live {g : Nat} (here : w.home g ≠ none ∨ reader.held = some g) : w.Live g := by
      rcases here with home | held
      · exact .inl home
      · rcases still g held with before | home
        · exact .inr before
        · refine .inl fun gone => ?_
          rw [home] at gone
          cases gone
    constructor
    case homes => exact obs.homes
    case old =>
      intro g held
      rcases still g held with before | home
      · exact obs.old g before
      · exact obs.homes.old g _ home
    case numbers => exact fun g h here there => obs.numbers g h (live here) (live there)
    case restored => exact obs.restored
    case orderly => exact obs.orderly
    case bounded => exact obs.bounded
    case held =>
      intro g name held home
      rcases still g held with before | canonical
      · exact obs.held g name before home
      · have home : w.home g = some name := home
        rw [canonical] at home
        exact .inl (Option.some.inj home).symm
    case knows => exact knows
  have closed {g : Nat} {state : ArtifactCacheState} {seen : List Nat}
      (held : (Reader.returned state seen : Reader ν).held = some g) :
      w.reader.held = some g ∨ w.home g = some descriptor.id := by cases held
  cases step with
  | call ended => exact same (fun _ held => by cases held) trivial
  | missing here absent => exact same (fun _ => closed) trivial
  | invalid here => exact same (fun _ => closed) trivial
  | found here directory => exact same (fun _ held => by cases held) trivial
  | opens here home directory =>
    refine same (fun h held => .inr ?_) trivial
    cases held
    exact home
  | notOpened here => exact same (fun _ => closed) trivial
  | @receipt g here =>
    refine same (fun h held => .inl ?_) (afterReceipt_knows payload sound w g)
    rw [afterReceipt_held] at held
    rw [here]
    exact held
  | @unreadable g here =>
    refine same (fun h held => .inl ?_) ⟨List.cons_ne_nil g [], fun h => List.mem_singleton.mp, fun never => by cases never⟩
    rw [here]
    exact held
  | @payload g seen k noise here =>
    have before := obs.knows
    rw [here] at before
    obtain ⟨-, all, payload, known⟩ := before
    refine same (fun h held => .inl ?_) ⟨?_, ?_, (payload _ noise).1, fun home => ?_⟩
    · rw [here]
      exact held
    · simp
    · intro h there
      rcases List.mem_append.mp there with old | new
      · exact all h old
      · exact List.mem_singleton.mp new
    · obtain ⟨matching, ready⟩ := known home
      exact ⟨matching, fun accepts => ready (.read noise accepts)⟩
  | @validated g seen answer here =>
    have before := obs.knows
    rw [here] at before
    obtain ⟨some, all, -, known⟩ := before
    refine same (fun h held => .inl ?_) ⟨some, all, fun ready home => ?_⟩
    · rw [here]
      exact held
    · obtain ⟨matching, accepts⟩ := known home
      cases answer with
      | true => exact cacheState_ready_iff.mpr ⟨matching, accepts .ret⟩
      | false => cases ready
  | same here home directory number => exact same (fun _ => closed) trivial
  | changed here home other => exact same (fun _ held => by cases held) trivial
  | gone here absent => exact same (fun _ => closed) trivial
  | unchecked here => exact same (fun _ => closed) trivial

theorem observed_start {s : Runtime} (restored : s.restored = false)
    (numbers : ∀ g h, g < s.entries.names.length → h < s.entries.names.length → inode g = inode h → g = h) :
    Observed catalog descriptor inode (World.start s : World ν) := by
  have below {g : Nat} {name : String} (home : s.entries.names[g]? = some name) : g < s.entries.names.length :=
    (List.getElem?_eq_some_iff.mp home).1
  have live {g : Nat} (here : (World.start s : World ν).Live g) : g < s.entries.names.length := by
    rcases here with home | held
    · obtain ⟨name, home⟩ := Option.ne_none_iff_exists'.mp home
      exact below home
    · cases held
  constructor
  case homes =>
    refine ⟨fun g h name home home' => ?_, fun name => ?_, fun g name home => below home⟩
    · have home : s.entries.names[g]? = some name := home
      have distinct : s.entries.names.Nodup := List.nodup_dedup (s.entries.map Prod.fst)
      exact (List.getElem?_inj (below home) distinct).mp (home.trans home'.symm)
    · show (s.entries.find name).isSome = true ↔ _
      rw [Option.isSome_iff_ne_none, ← Entries.mem_names]
      exact List.mem_iff_getElem?
  case old =>
    intro g held
    cases held
  case numbers => exact fun g h here there => numbers g h (live here) (live there)
  case restored => exact restored
  case orderly =>
    intro p process
    cases process
  case bounded => exact bounded_idle s
  case held =>
    intro g name held
    cases held
  case knows => trivial

end Readers

/-! ## Whole runs -/

section Runs

variable {ν : Type} {catalog : Catalog} {descriptor : ArtifactDescriptor} {inode : Nat → Nat} {reads : Reads ν}
  {s : Runtime} {w w' : World ν}

theorem observed_run (lawful : catalog.Lawful descriptor) (visible : descriptor.Visible)
    (payload : reads.Payload)
    (sound : ∀ es, reads.Accepts es → catalog.payloadReady descriptor es = true)
    (restored : s.restored = false)
    (numbers : ∀ g h, g < s.entries.names.length → h < s.entries.names.length → inode g = inode h → g = h)
    (run : WorldRun catalog descriptor inode reads (.start s) w) : Observed catalog descriptor inode w := by
  induction run with
  | refl => exact observed_start restored numbers
  | tail before step ih =>
    cases step with
    | writer step => exact step.observed lawful visible ih
    | reader step => exact step.observed payload sound ih

/-- **One generation.** A reader that answers ready has read the receipt and the payload in one
directory, which is canonical, and ready as a whole, at the moment of its last look at the root. -/
theorem reader_sees_one_generation (lawful : catalog.Lawful descriptor) (visible : descriptor.Visible)
    (payload : reads.Payload)
    (sound : ∀ es, reads.Accepts es → catalog.payloadReady descriptor es = true)
    (restored : s.restored = false)
    (numbers : ∀ g h, g < s.entries.names.length → h < s.entries.names.length → inode g = inode h → g = h)
    (run : WorldRun catalog descriptor inode reads (.start s) w) {seen : List Nat}
    (step : ReaderStep catalog descriptor inode reads w (.returned .ready seen)) :
    ∃ g, seen ≠ [] ∧ (∀ h, h ∈ seen → h = g) ∧ w.home g = some descriptor.id ∧
      artifactCacheState catalog descriptor (w.disk.1.canonical descriptor) = .ready := by
  have obs := observed_run lawful visible payload sound restored numbers run
  generalize answer : Reader.returned .ready seen = reader at step
  cases step with
  | @same g h _ _ here home directory number =>
    cases answer
    have knows := obs.knows
    rw [here] at knows
    obtain ⟨some, all, known⟩ := knows
    have live : w.Live h := .inl (by rw [home]; exact Option.some_ne_none _)
    have open_ : w.Live g := .inr (by rw [here]; rfl)
    have one := obs.numbers h g live open_ number
    subst one
    refine ⟨h, some, all, home, ?_⟩
    have ready := known rfl home
    rw [entriesOf_canonical home] at ready
    obtain ⟨ino, dev, es, found⟩ := entryKind_eq_directory.mp directory
    rw [found] at ready ⊢
    exact ready
  | receipt here =>
    have held := congrArg Reader.held answer
    rw [afterReceipt_held] at held
    cases held
  | _ => cases answer

end Runs

/-! ## A validator -/

/-- What `symlink_metadata` finds at a path below a directory. -/
def walk (es : Entries) : List String → Option Node
  | [] => none
  | [name] => es.find name
  | name :: rest => walk (treeEntries (es.find name)) rest

def isLink : Option Node → Bool
  | some (.symlink _) => true
  | _ => false

/-- `is_regular_file`. -/
def isRegular (node : Option Node) : Bool := entryKind node = .file

/-- The loop of `regular_path_inside_root` over the paths to the components. A read that fails says no. -/
def noLinks (after : Reads Bool) : List (List String) → Reads Bool
  | [] => after
  | current :: later => .read fun es succeeds =>
    if succeeds && (walk es current).isSome && !isLink (walk es current) then noLinks after later else .ret false

def regularPathInsideRoot (path : List String) (after : Reads Bool) : Reads Bool :=
  noLinks (.read fun es succeeds => if succeeds && isRegular (walk es path) then after else .ret false)
    (path.inits.drop 1)

section Validator

variable {es es' : Entries} {after : Reads Bool} {path : List String} {catalog : Catalog}

theorem accepts_noLinks {paths : List (List String)} (accepts : (noLinks after paths).Accepts es) :
    after.Accepts es := by
  induction paths with
  | nil => exact accepts
  | cons current later ih =>
    cases accepts with
    | read noise accepts =>
      dsimp only at accepts
      split at accepts
      · exact ih accepts
      · cases accepts

theorem accepts_regular (accepts : (regularPathInsideRoot path after).Accepts es) :
    isRegular (walk es path) = true ∧ after.Accepts es := by
  cases accepts_noLinks accepts with
  | read noise accepts =>
    dsimp only at accepts
    split at accepts
    next regular => exact ⟨(Bool.and_eq_true_iff.mp regular).2, accepts⟩
    next => cases accepts

theorem walk_congr {name : String} {rest : List String} (same : es'.find name = es.find name) :
    walk es' (name :: rest) = walk es (name :: rest) := by
  cases rest with
  | nil => exact same
  | cons next rest =>
    show walk (treeEntries (es'.find name)) (next :: rest) = walk (treeEntries (es.find name)) (next :: rest)
    rw [same]

/-- It looks at one entry of the directory. -/
theorem regular_payload {name : String} {rest : List String} (free : reserved name = false)
    (payload : after.Payload) : (regularPathInsideRoot (name :: rest) after).Payload := by
  have answer {after : Reads Bool} (condition : Bool) (payload : after.Payload) :
      (if condition then after else .ret false).Payload := by
    split
    · exact payload
    · trivial
  have links (paths : List (List String)) (below : ∀ current, current ∈ paths → ∃ rest, current = name :: rest)
      {after : Reads Bool} (payload : after.Payload) : (noLinks after paths).Payload := by
    induction paths with
    | nil => exact payload
    | cons current later ih =>
      obtain ⟨rest, rfl⟩ := below current List.mem_cons_self
      refine fun es succeeds => ⟨answer _ (ih fun path there => below path (List.mem_cons_of_mem _ there)), ?_⟩
      intro es' same
      dsimp only
      rw [walk_congr (same name free)]
  refine links _ (fun current there => ?_) fun es succeeds => ⟨answer _ payload, fun es' same => ?_⟩
  · rw [List.inits_cons, List.drop_one, List.tail_cons, List.mem_map] at there
    obtain ⟨part, -, rfl⟩ := there
    exact ⟨part, rfl⟩
  · dsimp only
    rw [walk_congr (same name free)]

end Validator

/-! ## Undisturbed calls of the installer -/

section Undisturbed

variable {ν : Type}

/-- The world when a process has done so many calls, undisturbed, and is killed. -/
def World.afterCalls (descriptor : ArtifactDescriptor) : Nat → InstallProg Unit → World ν → World ν
  | _, .ret _, w | _, .fail _, w | 0, .act _ _, w => { w with disk := (w.disk.1, none) }
  | n, .look k, w => afterCalls descriptor n (k w.disk.1) w
  | n + 1, .act o k, w =>
    match execOp descriptor o w.disk.1 with
    | (.ok (), t) => afterCalls descriptor n (k (.ok ()))
        { w with
          disk := (t, none)
          home := rehome o w.next w.home
          next := if (arrival o).isSome then w.next + 1 else w.next }
    | (.error e, t) => afterCalls descriptor n (k (.error e)) { w with disk := (t, none) }

variable {catalog : Catalog} {descriptor : ArtifactDescriptor} {inode : Nat → Nat} {reads : Reads ν}
  {s : Runtime}

/-- It is reached, where no inode number is used again. -/
theorem World.afterCalls_run (lawful : catalog.Lawful descriptor) (visible : descriptor.Visible)
    (payload : reads.Payload) (sound : ∀ es, reads.Accepts es → catalog.payloadReady descriptor es = true)
    (restored : s.restored = false) (apart : Function.Injective inode) {p : InstallProg Unit} {w : World ν}
    (run : WorldRun catalog descriptor inode reads (.start s) { w with disk := (w.disk.1, some p) }) (n : Nat) :
    WorldRun catalog descriptor inode reads (.start s) (w.afterCalls descriptor n p) := by
  have step {w w' : World ν} (run : WorldRun catalog descriptor inode reads (.start s) w)
      (next : WriterStep catalog descriptor inode w w') :
      WorldRun catalog descriptor inode reads (.start s) w' := run.tail (.writer next)
  have stop {p : InstallProg Unit} {w : World ν}
      (run : WorldRun catalog descriptor inode reads (.start s) { w with disk := (w.disk.1, some p) }) :
      WorldRun catalog descriptor inode reads (.start s) { w with disk := (w.disk.1, none) } :=
    step run (.stop rfl)
  induction p generalizing w n with
  | ret a => exact stop run
  | fail e => exact stop run
  | look k ih => exact @ih w.disk.1 w (step run (.look rfl)) n
  | act o k ih =>
    cases n with
    | zero => exact stop run
    | succ n =>
      have obs := observed_run lawful visible payload sound restored (fun g h _ _ same => apart same) run
      simp only [afterCalls]
      split
      next t done =>
        refine @ih (.ok ()) { w with
          disk := (t, none)
          home := rehome o w.next w.home
          next := if (arrival o).isSome then w.next + 1 else w.next }
          (step run (.done rfl done fun _ g live => ?_)) n
        have old : g < w.next := live.elim
          (fun home => (Option.ne_none_iff_exists'.mp home).elim fun name home => obs.homes.old g name home)
          (obs.old g)
        exact fun same => old.ne (apart same)
      next e t failed =>
        exact @ih (.error e) { w with disk := (t, none) } (step run (.failed rfl failed)) n

end Undisturbed

/-! ### A sample reader -/

def dllCatalog : Catalog :=
  { sampleCatalog with payloadReady := fun _ es => isRegular (walk es ["x64", "d3d9.dll"]) }

def dllReads : Reads Bool := regularPathInsideRoot ["x64", "d3d9.dll"] (.ret true)

theorem dllCatalog_lawful : dllCatalog.Lawful sampleDescriptor where
  parse_render := rfl
  fits := by decide
  payload_reserved es es' same := congrArg isRegular (walk_congr (same "x64" (by decide)))

theorem dllReads_payload : dllReads.Payload :=
  @regular_payload (.ret true) "x64" ["d3d9.dll"] (by decide) trivial

/-- The canonical directory lost its payload. -/
def lostRuntime : Runtime where
  entries := [("dxvk-2.7", .dir 1 1 [("x64", .dir 2 1 []), (MARKER_FILE, .file (.text "receipt"))])]
  slotRetired := false
  restored := false
  doomed := []

def dllImport : ImportCall :=
  { sampleImport with extract := fun es =>
      (.ok (), es.put "dxvk-2.7" (.dir 5 1 [("x64", .dir 6 1 [("d3d9.dll", .file (.text "MZ"))])])) }

/-- A reader has the incomplete generation open. -/
def openedWorld : World Bool := { (World.start lostRuntime : World Bool) with reader := .receipt 0 }

/-- An import has exchanged it, and was killed. -/
def exchangedWorld : World Bool :=
  openedWorld.afterCalls sampleDescriptor 76 (importArchiveLocked dllCatalog sampleDescriptor dllImport)

abbrev DllRun : World Bool → World Bool → Prop := WorldRun dllCatalog sampleDescriptor id dllReads

/-- Only the reader has gone on. -/
def readerAt (reader : Reader Bool) : World Bool := { exchangedWorld with reader }

theorem exchanged_run : DllRun (.start lostRuntime) (readerAt (.receipt 0)) := by
  have step {w : World Bool} (run : DllRun (.start lostRuntime) w) {reader : Reader Bool}
      (next : ReaderStep dllCatalog sampleDescriptor id dllReads w reader) :
      DllRun (.start lostRuntime) { w with reader } := run.tail (.reader next)
  have opened : DllRun (.start lostRuntime) openedWorld :=
    step (step (step .refl (.call rfl)) (.found rfl rfl)) (.opens rfl rfl rfl)
  have started : DllRun (.start lostRuntime) { openedWorld with disk := (openedWorld.disk.1,
      some (importArchiveLocked dllCatalog sampleDescriptor dllImport)) } :=
    opened.tail (.writer (.start rfl (.importArchiveLocked dllImport)))
  exact World.afterCalls_run dllCatalog_lawful sampleDescriptor_visible dllReads_payload
    (fun es accepts => (accepts_regular accepts).1) rfl Function.injective_id started 76

/-- The last read of the validator. -/
def lastRead : Reads Bool :=
  .read fun es succeeds => if succeeds && isRegular (walk es ["x64", "d3d9.dll"]) then .ret true else .ret false

/-- The old generation turns out incomplete and no longer canonical, the new one is read through. -/
theorem validated_run : DllRun (.start lostRuntime) (readerAt (.checking 3 [3, 3, 3, 3] .ready)) := by
  have step {before after : Reader Bool} (run : DllRun (.start lostRuntime) (readerAt before))
      (next : ReaderStep dllCatalog sampleDescriptor id dllReads (readerAt before) after) :
      DllRun (.start lostRuntime) (readerAt after) := run.tail (.reader next)
  have receipt {g : Nat} (run : DllRun (.start lostRuntime) (readerAt (.receipt g)))
      (matching : afterReceipt dllCatalog sampleDescriptor dllReads g
        (((readerAt (.receipt g)).entriesOf g).find MARKER_FILE) = .payload g [g] dllReads) :
      DllRun (.start lostRuntime) (readerAt (.payload g [g] dllReads)) :=
    step run (matching ▸ .receipt rfl)
  have read {g : Nat} {seen : List Nat} {k : Entries → Bool → Reads Bool} {rest : Reads Bool}
      (run : DllRun (.start lostRuntime) (readerAt (.payload g seen (.read k))))
      (answer : k ((readerAt (.payload g seen (.read k))).entriesOf g) true = rest) :
      DllRun (.start lostRuntime) (readerAt (.payload g (seen ++ [g]) rest)) := by
    subst answer
    exact step run (.payload true rfl)
  have first : DllRun (.start lostRuntime) (readerAt (.payload 0 [0, 0] (noLinks lastRead [["x64", "d3d9.dll"]]))) :=
    read (receipt exchanged_run rfl) rfl
  have incomplete : DllRun (.start lostRuntime) (readerAt (.payload 0 [0, 0, 0] (.ret false))) := read first rfl
  have checked : DllRun (.start lostRuntime) (readerAt (.checking 0 [0, 0, 0] .incompletePayload)) :=
    step incomplete (@ReaderStep.validated _ _ _ _ _ _ 0 [0, 0, 0] false rfl)
  have again : DllRun (.start lostRuntime) (readerAt (.receipt 3)) :=
    step (step checked (.changed (h := 3) rfl rfl (.inr (by decide)))) (.opens rfl rfl rfl)
  have second : DllRun (.start lostRuntime) (readerAt (.payload 3 [3, 3] (noLinks lastRead [["x64", "d3d9.dll"]]))) :=
    read (receipt again rfl) rfl
  have third : DllRun (.start lostRuntime) (readerAt (.payload 3 [3, 3, 3] lastRead)) := read second rfl
  have fourth : DllRun (.start lostRuntime) (readerAt (.payload 3 [3, 3, 3, 3] (.ret true))) := read third rfl
  exact step fourth (@ReaderStep.validated _ _ _ _ _ _ 3 [3, 3, 3, 3] true rfl)

/-- What it answers is ready. -/
theorem reader_sees_one_generation_dll :
    ReaderStep dllCatalog sampleDescriptor id dllReads (readerAt (.checking 3 [3, 3, 3, 3] .ready))
      (.returned .ready [3, 3, 3, 3]) ∧
    (∃ g, [3, 3, 3, 3] ≠ [] ∧ (∀ h, h ∈ [3, 3, 3, 3] → h = g) ∧
      (readerAt (.checking 3 [3, 3, 3, 3] .ready)).home g = some "dxvk-2.7" ∧
      artifactCacheState dllCatalog sampleDescriptor (exchangedWorld.disk.1.canonical sampleDescriptor) = .ready) ∧
    artifactCacheState dllCatalog sampleDescriptor (lostRuntime.canonical sampleDescriptor) = .incompletePayload := by
  have answer : ReaderStep dllCatalog sampleDescriptor id dllReads (readerAt (.checking 3 [3, 3, 3, 3] .ready))
      (.returned .ready [3, 3, 3, 3]) := .same (h := 3) rfl rfl rfl rfl
  exact ⟨answer, reader_sees_one_generation dllCatalog_lawful sampleDescriptor_visible dllReads_payload
    (fun es accepts => (accepts_regular accepts).1) rfl (fun g h _ _ same => same) validated_run answer, rfl⟩

end RoLauncher.Artifacts
