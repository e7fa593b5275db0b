import RoLauncher.Prefix.Identity

/-!
# Evidence, root classes and backup classes (`tools/prefix/recovery.rs`)

Recovery keeps no journal: it reads fixed-name evidence in the root `R` and
in its one reset backup `B` and decides from that alone. This module is the
reading half: the two records and their bounded readers, the identity rule of
one pass (`ManagedPrefix.identity`), and the classifiers `classifyRoot` and
`classifyBackup`.

Reading a disk does not fail in this model. The source's `Err` of a
classifier is an I/O error of `stat` or `readdir` and nothing else; an
unreadable, oversized or damaged record is a class (`foreign`), here as there.

The theorems read the classes back: one for each class, saying everything
the class tells about the disk.
-/

namespace RoLauncher.Prefix

open RoLauncher.Files

def maxMarkerBytes : Nat := 16 * 1024
def maxManifestBytes : Nat := 1024 * 1024
def resetBackupSuffix : String := "reset-backup"
/-- `T` when the backup was owned through its manifest. -/
def backupRemovingManifest : String := ".ro-launcher-removing-manifest"
/-- `T` when the backup was owned through the legacy configured marker. -/
def backupRemovingLegacy : String := ".ro-launcher-removing-legacy"

inductive RootState where
  | absent
  | empty
  | pendingMarker
  | provisioning
  | commitPending
  | committed (staleMarker : Bool)
  | legacyValid
  | foreign (reason : String)
  deriving DecidableEq, Repr

inductive BackupState where
  | absent
  | empty
  | restorable
  | removing
  | foreign (reason : String)
  deriving DecidableEq, Repr

/-! ## Bounded readers -/

/-- Bounded, no-follow read of a small launcher-owned file: only regular files are ever read. -/
def readBounded (node : Option Node) (limit : Nat) (label : String) : Except String String :=
  match node with
  | none => .error s!"no se pudo leer {label}: No such file or directory (os error 2)"
  | some (.symlink _) =>
    .error s!"no se pudo leer {label}: Too many levels of symbolic links (os error 40)"
  | some (.file data) =>
    if data.size > limit then .error s!"{label} es demasiado grande"
    else
      match data.text? with
      | some text => .ok text
      | none => .error s!"{label} está dañado"
  | some _ => .error s!"{label} no es un archivo regular"

def readMarker (serde : Serde) (node : Option Node) : Except String ProvisioningMarker :=
  match readBounded node maxMarkerBytes "el marcador de preparación" with
  | .ok json =>
    match serde.provisioningMarker json with
    | .ok marker => .ok marker
    | .error _ => .error "el marcador de preparación está dañado"
  | .error reason => .error reason

def readManifest (serde : Serde) (node : Option Node) : Except String StoredPrefixManifest :=
  match readBounded node maxManifestBytes "el manifiesto" with
  | .ok json =>
    match parseStoredPrefixManifest serde json with
    | .ok manifest => .ok manifest
    | .error _ => .error "el manifiesto está dañado o usa un schema incompatible"
  | .error reason => .error reason

/-- Only a regular file, within its bound, is ever read as a record. -/
theorem readBounded_ok {node : Option Node} {limit : Nat} {label text : String}
    (h : readBounded node limit label = .ok text) :
    ∃ data, node = some (.file data) ∧ data.size ≤ limit ∧ data.text? = some text := by
  rcases node with _ | (data | _ | _ | _)
  · cases h
  · simp only [readBounded] at h
    split at h
    · cases h
    next hs =>
      cases ht : data.text? with
      | none => rw [ht] at h; cases h
      | some t =>
        rw [ht] at h
        cases h
        exact ⟨data, rfl, by omega, ht⟩
  · cases h
  · cases h
  · cases h

theorem readManifest_file {serde : Serde} {node : Option Node} {manifest : StoredPrefixManifest}
    (h : readManifest serde node = .ok manifest) : ∃ data, node = some (.file data) := by
  unfold readManifest at h
  cases hr : readBounded node maxManifestBytes "el manifiesto" with
  | error reason => rw [hr] at h; cases h
  | ok text =>
    obtain ⟨data, hd, _⟩ := readBounded_ok hr
    exact ⟨data, hd⟩

/-! ## The managed prefix -/

/-- A managed root that recovery may act on: `R` is `location.path`, its parent holds `B`. -/
structure ManagedPrefix where
  location : PrefixLocation
  parent : Path
  name : String
  /-- The caller's current desired full fingerprint, kept only when it addresses this v3 path. -/
  expected : Option String

namespace ManagedPrefix

/-- `.<name>.reset-backup`, the single fixed sibling that holds the pre-reset prefix. -/
def backupName (pfx : ManagedPrefix) : String := "." ++ pfx.name ++ "." ++ resetBackupSuffix

def root (pfx : ManagedPrefix) : Path := pfx.location.path

def backup (pfx : ManagedPrefix) : Path := pfx.parent ++ [pfx.backupName]

def «at» (host : Host) (location : PrefixLocation) (desired : Option String) :
    Except String ManagedPrefix :=
  match location.path.getLast? with
  | none => .error "La ruta del entorno no tiene directorio padre"
  | some name =>
    .ok
      { location, parent := location.path.dropLast, name
        expected := (v3PathSuffix host location).bind fun suffix =>
          desired.filter fun digest => shapeOk suffix digest }

/-- The first readable transaction record's claim, when it has the shape of the path. -/
def markerClaim (host : Host) (suffix : String) (root : Option Node) : Option String :=
  (([provisioningMarker, commitPendingMarker].filterMap fun name =>
      (readMarker host.serde (child root name)).toOption).findSome? (·.prefixFingerprint)).filter
    fun digest => shapeOk suffix digest

/-- The root manifest's claim, when it has the shape of the path. -/
def manifestClaim (host : Host) (suffix : String) (root : Option Node) : Option String :=
  ((readManifest host.serde (child root prefixMarker)).toOption.bind
    (·.prefixFingerprintDigest)).filter fun digest => shapeOk suffix digest

/-- The v3 identity rule for this pass. The anchor is the first shape-valid claim among the
caller's expected digest, the in-root transaction marker and the root's manifest. -/
def identity (host : Host) (pfx : ManagedPrefix) (root : Option Node) : Option V3Identity :=
  (v3PathSuffix host pfx.location).map fun suffix =>
    { suffix
      anchor := (pfx.expected.or (markerClaim host suffix root)).or
        (manifestClaim host suffix root) }

end ManagedPrefix

theorem ManagedPrefix.at_location {host : Host} {location : PrefixLocation}
    {desired : Option String} {pfx : ManagedPrefix}
    (h : ManagedPrefix.at host location desired = .ok pfx) : pfx.location = location := by
  unfold ManagedPrefix.at at h
  split at h
  · cases h
  · cases h
    rfl

/-! ## Root classes -/

def isProtected (es : Entries) : Bool :=
  (es.find installationMarker).isSome || (es.find (backupName installationMarker)).isSome

/-- The single transaction marker present, if any, with whether it may authorize a rollback. -/
def transactionMarker (es : Entries) : Except String (Option (String × Bool)) :=
  match entryKind (es.find provisioningMarker), entryKind (es.find commitPendingMarker) with
  | .missing, .missing => .ok none
  | .file, .missing => .ok (some (provisioningMarker, true))
  | .missing, .file => .ok (some (commitPendingMarker, false))
  | _, .missing => .error "el marcador de preparación no es un archivo regular"
  | .missing, _ => .error "el marcador de preparación no es un archivo regular"
  | _, _ => .error "combina autorización de reversión con una confirmación pendiente"

def validatedMarker (host : Host) (location : PrefixLocation) (identity : Option V3Identity)
    (es : Entries) (name : String) : Except String Unit :=
  match readMarker host.serde (es.find name) with
  | .ok marker => validateMarker marker location identity
  | .error reason => .error reason

/-- The manifest of a directory, read and judged. -/
def validatedManifest (host : Host) (location : PrefixLocation) (identity : Option V3Identity)
    (es : Entries) (name : String) : Except String Unit :=
  match readManifest host.serde (es.find name) with
  | .ok manifest => committedManifest manifest location identity
  | .error reason => .error reason

/-- `R` holds only the fixed temporary of `P`: the writer of `P` was killed. -/
def holdsOnlyPendingTmp (es : Entries) : Bool :=
  es.names = [provisioningMarkerTmp] &&
    match es.find provisioningMarkerTmp with
    | some (.file data) => data.size ≤ maxMarkerBytes
    | _ => false

/-- The class of a root without a manifest. -/
def classifyUncommitted (host : Host) (location : PrefixLocation) (identity : Option V3Identity)
    (es : Entries) (structureOk : Bool) (marker : Option (String × Bool)) : RootState :=
  match marker with
  | some (name, rollbackAuthority) =>
    match validatedMarker host location identity es name with
    | .error reason => .foreign reason
    | .ok () =>
      if !rollbackAuthority then .commitPending
      else if isProtected es then .foreign "contiene una instalación de juego protegida"
      else if entryKind (es.find legacyPrefixMarker) ≠ .missing then
        .foreign "combina un marcador legacy con uno de preparación"
      else .provisioning
  | none =>
    if entryKind (es.find provisioningMarkerTmp) ≠ .missing then
      .foreign "contiene un marcador temporal de preparación junto a otros datos"
    else if entryKind (es.find legacyPrefixMarker) = .file && structureOk then
      if identity.isSome then
        .foreign "un marcador legacy no prueba la identidad de una ruta v3"
      else .legacyValid
    else .foreign "contiene datos sin manifiesto ni marcador del launcher"

/-- The class of a root directory with these entries. -/
def classifyEntries (host : Host) (location : PrefixLocation) (identity : Option V3Identity)
    (es : Entries) (structureOk : Bool) : RootState :=
  if es.names = [] then .empty
  else if holdsOnlyPendingTmp es then .pendingMarker
  else
    match transactionMarker es with
    | .error reason => .foreign reason
    | .ok marker =>
      match entryKind (es.find prefixMarker) with
      | .file =>
        match validatedManifest host location identity es prefixMarker with
        | .error reason => .foreign reason
        | .ok () =>
          match marker with
          | some (name, _) =>
            -- A stale marker must describe this same transaction; a contradiction is not cleaned.
            match validatedMarker host location identity es name with
            | .error reason =>
              .foreign s!"el marcador residual contradice el manifiesto: {reason}"
            | .ok () => .committed true
          | none => .committed (entryKind (es.find provisioningMarkerTmp) ≠ .missing)
      | .missing => classifyUncommitted host location identity es structureOk marker
      | _ => .foreign "el manifiesto no es un archivo regular"

/-! ### Reading the root classes back -/

section RootClasses

variable {host : Host} {location : PrefixLocation} {identity : Option V3Identity} {es : Entries}
  {structureOk : Bool}

theorem transactionMarker_none :
    transactionMarker es = .ok none ↔
      es.find provisioningMarker = none ∧ es.find commitPendingMarker = none := by
  rw [← entryKind_eq_missing, ← entryKind_eq_missing]
  unfold transactionMarker
  cases entryKind (es.find provisioningMarker) <;> cases entryKind (es.find commitPendingMarker) <;>
    simp

theorem transactionMarker_authority {name : String} :
    transactionMarker es = .ok (some (name, true)) ↔
      name = provisioningMarker ∧ (∃ data, es.find provisioningMarker = some (.file data)) ∧
        es.find commitPendingMarker = none := by
  rw [← entryKind_eq_missing, ← entryKind_eq_file]
  unfold transactionMarker
  cases entryKind (es.find provisioningMarker) <;> cases entryKind (es.find commitPendingMarker) <;>
    simp [eq_comm]

theorem transactionMarker_revoked {name : String} :
    transactionMarker es = .ok (some (name, false)) ↔
      name = commitPendingMarker ∧ (∃ data, es.find commitPendingMarker = some (.file data)) ∧
        es.find provisioningMarker = none := by
  rw [← entryKind_eq_missing, ← entryKind_eq_file]
  unfold transactionMarker
  cases entryKind (es.find provisioningMarker) <;> cases entryKind (es.find commitPendingMarker) <;>
    simp [eq_comm]

/-- A single transaction marker is a file: no directory stands under either name. -/
theorem transactionMarker_kinds {marker : Option (String × Bool)}
    (h : transactionMarker es = .ok marker) :
    entryKind (es.find provisioningMarker) ≠ .directory ∧
      entryKind (es.find commitPendingMarker) ≠ .directory := by
  unfold transactionMarker at h
  generalize entryKind (es.find provisioningMarker) = kind,
    entryKind (es.find commitPendingMarker) = kind' at h ⊢
  cases kind <;> cases kind' <;> simp at h ⊢

theorem validatedManifest_file {name : String}
    (h : validatedManifest host location identity es name = .ok ()) :
    ∃ data, es.find name = some (.file data) := by
  unfold validatedManifest at h
  cases hr : readManifest host.serde (es.find name) with
  | error reason => rw [hr] at h; cases h
  | ok manifest => exact readManifest_file hr

theorem holdsOnlyPendingTmp_iff :
    holdsOnlyPendingTmp es = true ↔
      es.names = [provisioningMarkerTmp] ∧
        ∃ data, es.find provisioningMarkerTmp = some (.file data) ∧ data.size ≤ maxMarkerBytes := by
  unfold holdsOnlyPendingTmp
  rw [Bool.and_eq_true, decide_eq_true_eq]
  cases es.find provisioningMarkerTmp with
  | none => simp
  | some node => cases node <;> simp

/-- Where only the temporary is, nothing else is. -/
theorem find_of_holdsOnlyPendingTmp (h : holdsOnlyPendingTmp es = true) {name : String}
    (other : name ≠ provisioningMarkerTmp) : es.find name = none := by
  by_contra hf
  have hm : name ∈ es.names := Entries.mem_names.mpr hf
  rw [(holdsOnlyPendingTmp_iff.mp h).1, List.mem_singleton] at hm
  exact other hm

/-- An entry besides the temporary rules out the two classes that are judged by names alone. -/
theorem classifyEntries_of_find {name : String} (present : es.find name ≠ none)
    (other : name ≠ provisioningMarkerTmp) : es.names ≠ [] ∧ holdsOnlyPendingTmp es = false := by
  refine ⟨fun h => present (Entries.find_eq_none_of_nil_names h name), ?_⟩
  by_contra h
  exact present (find_of_holdsOnlyPendingTmp (Bool.not_eq_false _ ▸ h) other)

theorem classifyEntries_empty :
    classifyEntries host location identity es structureOk = .empty ↔ es = [] := by
  rw [← Entries.names_eq_nil]
  unfold classifyEntries classifyUncommitted
  constructor
  · intro h
    by_contra hn
    rw [if_neg hn] at h
    split at h
    · cases h
    · repeat' split at h
      all_goals cases h
  · intro h
    rw [if_pos h]

theorem classifyEntries_pendingMarker :
    classifyEntries host location identity es structureOk = .pendingMarker ↔
      holdsOnlyPendingTmp es = true := by
  constructor
  · intro h
    by_contra hn
    unfold classifyEntries classifyUncommitted at h
    rw [if_neg hn] at h
    repeat' split at h
    all_goals cases h
  · intro h
    have hne : es.names ≠ [] := by
      rw [(holdsOnlyPendingTmp_iff.mp h).1]
      exact List.cons_ne_nil _ _
    rw [classifyEntries, if_neg hne, if_pos h]

theorem classifyEntries_committed {stale : Bool} :
    classifyEntries host location identity es structureOk = .committed stale ↔
      validatedManifest host location identity es prefixMarker = .ok () ∧
        ∃ marker, transactionMarker es = .ok marker ∧
          (∀ m ∈ marker, validatedMarker host location identity es m.1 = .ok ()) ∧
          stale = (marker.isSome || decide (es.find provisioningMarkerTmp ≠ none)) := by
  constructor
  · intro h
    unfold classifyEntries classifyUncommitted at h
    split at h
    · cases h
    split at h
    · cases h
    split at h
    · cases h
    next marker hm =>
      split at h
      · split at h
        · cases h
        next hv =>
          refine ⟨hv, marker, hm, ?_⟩
          rcases marker with _ | ⟨name, authority⟩
          · refine ⟨fun m hm => (by cases hm), ?_⟩
            simp only [ne_eq, entryKind_eq_missing, RootState.committed.injEq] at h
            simp [h]
          · simp only at h
            split at h
            · cases h
            next hv' =>
              cases h
              refine ⟨fun m hm => ?_, by simp⟩
              cases hm
              exact hv'
      · repeat' split at h
        all_goals cases h
      · cases h
  · rintro ⟨hv, marker, hm, agrees, rfl⟩
    obtain ⟨data, hd⟩ := validatedManifest_file hv
    have present : es.find prefixMarker ≠ none := by rw [hd]; exact Option.some_ne_none _
    obtain ⟨hne, hnot⟩ := classifyEntries_of_find present (by decide)
    have hk : entryKind (es.find prefixMarker) = .file := entryKind_eq_file.mpr ⟨data, hd⟩
    simp only [classifyEntries, if_neg hne, hnot, Bool.false_eq_true, if_false, hm, hk, hv]
    rcases marker with _ | ⟨name, authority⟩
    · simp [entryKind_eq_missing]
    · simp only [agrees (name, authority) rfl]
      simp

/-- Without a manifest entry the class is the one the marker decides. -/
theorem classifyEntries_uncommitted {name : String} {marker : Option (String × Bool)}
    (uncommitted : es.find prefixMarker = none) (present : es.find name ≠ none)
    (other : name ≠ provisioningMarkerTmp) (hm : transactionMarker es = .ok marker) :
    classifyEntries host location identity es structureOk =
      classifyUncommitted host location identity es structureOk marker := by
  obtain ⟨hne, hnot⟩ := classifyEntries_of_find present other
  simp only [classifyEntries, if_neg hne, hnot, Bool.false_eq_true, if_false, hm,
    entryKind_eq_missing.mpr uncommitted]

/-- A class that only a root without a manifest can have. -/
theorem uncommitted_of_classifyEntries {state : RootState}
    (h : classifyEntries host location identity es structureOk = state)
    (hs : state = .provisioning ∨ state = .commitPending ∨ state = .legacyValid) :
    es.find prefixMarker = none ∧ ∃ marker, transactionMarker es = .ok marker ∧
      classifyUncommitted host location identity es structureOk marker = state := by
  unfold classifyEntries at h
  split at h
  · rcases hs with rfl | rfl | rfl <;> cases h
  split at h
  · rcases hs with rfl | rfl | rfl <;> cases h
  split at h
  · rcases hs with rfl | rfl | rfl <;> cases h
  next marker hm =>
    split at h
    · repeat' split at h
      all_goals rcases hs with rfl | rfl | rfl <;> cases h
    next hk => exact ⟨entryKind_eq_missing.mp hk, marker, hm, h⟩
    · rcases hs with rfl | rfl | rfl <;> cases h

theorem classifyEntries_provisioning :
    classifyEntries host location identity es structureOk = .provisioning ↔
      es.find prefixMarker = none ∧
        transactionMarker es = .ok (some (provisioningMarker, true)) ∧
        validatedMarker host location identity es provisioningMarker = .ok () ∧
        isProtected es = false ∧ es.find legacyPrefixMarker = none := by
  constructor
  · intro h
    obtain ⟨hn, marker, hm, hu⟩ := uncommitted_of_classifyEntries h (.inl rfl)
    refine ⟨hn, ?_⟩
    unfold classifyUncommitted at hu
    split at hu
    next name authority =>
      split at hu
      · cases hu
      next hv =>
        cases authority with
        | false => cases hu
        | true =>
          obtain ⟨rfl, _⟩ := transactionMarker_authority.mp hm
          simp only [Bool.not_true, Bool.false_eq_true, if_false] at hu
          split at hu
          · cases hu
          next hp =>
            split at hu
            · cases hu
            next hl =>
              exact ⟨hm, hv, Bool.not_eq_true _ ▸ hp, entryKind_eq_missing.mp (not_not.mp hl)⟩
    next => repeat' split at hu
            all_goals cases hu
  · rintro ⟨hn, hm, hv, hp, hl⟩
    obtain ⟨_, ⟨data, hd⟩, _⟩ := transactionMarker_authority.mp hm
    have present : es.find provisioningMarker ≠ none := by rw [hd]; exact Option.some_ne_none _
    rw [classifyEntries_uncommitted hn present (by decide) hm]
    simp [classifyUncommitted, hv, hp, entryKind_eq_missing.mpr hl]

theorem classifyEntries_commitPending :
    classifyEntries host location identity es structureOk = .commitPending ↔
      es.find prefixMarker = none ∧
        transactionMarker es = .ok (some (commitPendingMarker, false)) ∧
        validatedMarker host location identity es commitPendingMarker = .ok () := by
  constructor
  · intro h
    obtain ⟨hn, marker, hm, hu⟩ := uncommitted_of_classifyEntries h (.inr (.inl rfl))
    refine ⟨hn, ?_⟩
    unfold classifyUncommitted at hu
    split at hu
    next name authority =>
      split at hu
      · cases hu
      next hv =>
        cases authority with
        | true =>
          simp only [Bool.not_true, Bool.false_eq_true, if_false] at hu
          repeat' split at hu
          all_goals cases hu
        | false =>
          obtain ⟨rfl, _⟩ := transactionMarker_revoked.mp hm
          exact ⟨hm, hv⟩
    next => repeat' split at hu
            all_goals cases hu
  · rintro ⟨hn, hm, hv⟩
    obtain ⟨_, ⟨data, hd⟩, _⟩ := transactionMarker_revoked.mp hm
    have present : es.find commitPendingMarker ≠ none := by rw [hd]; exact Option.some_ne_none _
    rw [classifyEntries_uncommitted hn present (by decide) hm]
    simp [classifyUncommitted, hv]

theorem classifyEntries_legacyValid :
    classifyEntries host location identity es structureOk = .legacyValid ↔
      es.find prefixMarker = none ∧ transactionMarker es = .ok none ∧
        es.find provisioningMarkerTmp = none ∧
        (∃ data, es.find legacyPrefixMarker = some (.file data)) ∧
        structureOk = true ∧ identity = none := by
  constructor
  · intro h
    obtain ⟨hn, marker, hm, hu⟩ := uncommitted_of_classifyEntries h (.inr (.inr rfl))
    refine ⟨hn, ?_⟩
    unfold classifyUncommitted at hu
    split at hu
    next => repeat' split at hu
            all_goals cases hu
    next =>
      split at hu
      · cases hu
      next ht =>
        split at hu
        next hl =>
          split at hu
          · cases hu
          next hi =>
            rw [Bool.and_eq_true, decide_eq_true_eq] at hl
            exact ⟨hm, entryKind_eq_missing.mp (not_not.mp ht), entryKind_eq_file.mp hl.1, hl.2,
              by simpa using hi⟩
        · cases hu
  · rintro ⟨hn, hm, ht, ⟨data, hd⟩, rfl, rfl⟩
    have present : es.find legacyPrefixMarker ≠ none := by rw [hd]; exact Option.some_ne_none _
    rw [classifyEntries_uncommitted hn present (by decide) hm]
    simp [classifyUncommitted, entryKind_eq_missing.mpr ht, entryKind_eq_file.mpr ⟨data, hd⟩]

end RootClasses

def classifyRoot (host : Host) (location : PrefixLocation) (identity : Option V3Identity)
    (root : Option Node) : RootState :=
  match root with
  | none => .absent
  | some (.dir ino dev es) =>
    classifyEntries host location identity es
      (inspectPrefix host.serde (some (.dir ino dev es))).structureOk
  | some _ => .foreign "la ruta del entorno no es un directorio real"

/-! ## Backup classes -/

/-- The tombstone that owns a backup's removal, if any. Two tombstones is an error. -/
def backupTombstone (es : Entries) : Except String (Option String) :=
  match entryKind (es.find backupRemovingManifest), entryKind (es.find backupRemovingLegacy) with
  | .missing, .missing => .ok none
  | _, .missing => .ok (some backupRemovingManifest)
  | .missing, _ => .ok (some backupRemovingLegacy)
  | _, _ => .error "el respaldo tiene dos evidencias de retiro"

/-- A backup whose removal has begun, judged by its tombstone. -/
def classifyRemoving (host : Host) (location : PrefixLocation) (identity : Option V3Identity)
    (es : Entries) (name : String) : BackupState :=
  if entryKind (es.find name) ≠ .file then
    .foreign "su evidencia de retiro no es un archivo regular"
  else if name = backupRemovingManifest then
    match validatedManifest host location identity es name with
    | .error reason => .foreign reason
    | .ok () => .removing
  else if identity.isSome then .foreign "un marcador legacy no prueba la identidad de una ruta v3"
  else .removing

/-- A backup without a tombstone, judged by its ownership evidence. -/
def classifyOwned (host : Host) (location : PrefixLocation) (identity : Option V3Identity)
    (es : Entries) (structureOk : Bool) : BackupState :=
  match entryKind (es.find prefixMarker) with
  | .file =>
    match validatedManifest host location identity es prefixMarker with
    | .ok () => .restorable
    | .error reason => .foreign reason
  | .missing =>
    match entryKind (es.find legacyPrefixMarker) with
    | .file =>
      if structureOk then
        if identity.isSome then
          .foreign "un marcador legacy no prueba la identidad de una ruta v3"
        else .restorable
      else .foreign "tiene marcador legacy pero su estructura está incompleta"
    | .missing => .foreign "no contiene evidencia del launcher"
    | _ => .foreign "su marcador legacy no es un archivo regular"
  | _ => .foreign "su manifiesto no es un archivo regular"

/-- A backup directory of the parent's filesystem, by its entries. -/
def classifyBackupEntries (host : Host) (location : PrefixLocation) (identity : Option V3Identity)
    (es : Entries) (structureOk : Bool) : BackupState :=
  if es.names = [] then .empty
  else if isProtected es then .foreign "contiene una instalación de juego protegida"
  else
    -- Removal evidence dominates: once present, nothing else can make this backup restorable.
    match backupTombstone es with
    | .error reason => .foreign reason
    | .ok (some name) => classifyRemoving host location identity es name
    | .ok none => classifyOwned host location identity es structureOk

/-- `B`, or a sibling that may be a legacy backup, seen from a parent on device `parentDev`. -/
def classifyBackup (host : Host) (parentDev : Nat) (location : PrefixLocation)
    (identity : Option V3Identity) (backup : Option Node) : BackupState :=
  match backup with
  | none => .absent
  | some (.dir ino dev es) =>
    if dev ≠ parentDev then .foreign "está en otro sistema de archivos"
    else
      classifyBackupEntries host location identity es
        (inspectPrefix host.serde (some (.dir ino dev es))).structureOk
  | some _ => .foreign "no es un directorio real"

/-! ### Reading the node classes back -/

section NodeClasses

variable {host : Host} {location : PrefixLocation} {identity : Option V3Identity}
  {parentDev : Nat} {node : Option Node}

theorem classifyRoot_dir (ino dev : Nat) (es : Entries) :
    classifyRoot host location identity (some (.dir ino dev es)) =
      classifyEntries host location identity es
        (inspectPrefix host.serde (some (.dir ino dev es))).structureOk := rfl

/-- Every class but `absent` and `foreign` is the class of a real directory's entries. -/
theorem classifyRoot_cases {state : RootState}
    (h : classifyRoot host location identity node = state) :
    (state = .absent ∧ node = none) ∨ (∃ reason, state = .foreign reason) ∨
      ∃ ino dev es, node = some (.dir ino dev es) ∧
        classifyEntries host location identity es
          (inspectPrefix host.serde (some (.dir ino dev es))).structureOk = state := by
  subst h
  rcases node with _ | (_ | ⟨ino, dev, es⟩ | _ | _)
  · exact .inl ⟨rfl, rfl⟩
  · exact .inr (.inl ⟨_, rfl⟩)
  · exact .inr (.inr ⟨ino, dev, es, rfl, rfl⟩)
  · exact .inr (.inl ⟨_, rfl⟩)
  · exact .inr (.inl ⟨_, rfl⟩)

theorem classifyEntries_ne_absent {es : Entries} {structureOk : Bool} :
    classifyEntries host location identity es structureOk ≠ .absent := by
  intro h
  unfold classifyEntries classifyUncommitted at h
  repeat' split at h
  all_goals cases h

theorem classifyRoot_absent : classifyRoot host location identity node = .absent ↔ node = none := by
  constructor
  · intro h
    obtain ⟨_, hn⟩ | ⟨reason, hr⟩ | ⟨ino, dev, es, _, he⟩ := classifyRoot_cases h
    · exact hn
    · cases hr
    · exact absurd he classifyEntries_ne_absent
  · rintro rfl
    rfl

theorem backupTombstone_none {es : Entries} :
    backupTombstone es = .ok none ↔
      es.find backupRemovingManifest = none ∧ es.find backupRemovingLegacy = none := by
  rw [← entryKind_eq_missing, ← entryKind_eq_missing]
  unfold backupTombstone
  cases entryKind (es.find backupRemovingManifest) <;>
    cases entryKind (es.find backupRemovingLegacy) <;> simp

theorem backupTombstone_some {es : Entries} {name : String} :
    backupTombstone es = .ok (some name) ↔
      (name = backupRemovingManifest ∧ es.find backupRemovingManifest ≠ none ∧
        es.find backupRemovingLegacy = none) ∨
      (name = backupRemovingLegacy ∧ es.find backupRemovingManifest = none ∧
        es.find backupRemovingLegacy ≠ none) := by
  simp only [← entryKind_eq_missing, ne_eq]
  unfold backupTombstone
  cases entryKind (es.find backupRemovingManifest) <;>
    cases entryKind (es.find backupRemovingLegacy) <;> simp [eq_comm]

theorem classifyBackup_dir (ino dev : Nat) (es : Entries) :
    classifyBackup host parentDev location identity (some (.dir ino dev es)) =
      if dev ≠ parentDev then .foreign "está en otro sistema de archivos"
      else
        classifyBackupEntries host location identity es
          (inspectPrefix host.serde (some (.dir ino dev es))).structureOk := rfl

/-- Every class but `absent` and `foreign` is the class of a directory on the parent's device. -/
theorem classifyBackup_cases {state : BackupState}
    (h : classifyBackup host parentDev location identity node = state) :
    (state = .absent ∧ node = none) ∨ (∃ reason, state = .foreign reason) ∨
      ∃ ino es, node = some (.dir ino parentDev es) ∧
        classifyBackupEntries host location identity es
          (inspectPrefix host.serde (some (.dir ino parentDev es))).structureOk = state := by
  subst h
  rcases node with _ | (_ | ⟨ino, dev, es⟩ | _ | _)
  · exact .inl ⟨rfl, rfl⟩
  · exact .inr (.inl ⟨_, rfl⟩)
  · rw [classifyBackup_dir]
    split
    · exact .inr (.inl ⟨_, rfl⟩)
    next hd =>
      have hdev : dev = parentDev := not_not.mp hd
      subst hdev
      exact .inr (.inr ⟨ino, es, rfl, rfl⟩)
  · exact .inr (.inl ⟨_, rfl⟩)
  · exact .inr (.inl ⟨_, rfl⟩)

section BackupEntries

variable {es : Entries} {structureOk : Bool}

theorem classifyRemoving_cases {name : String} {state : BackupState}
    (h : classifyRemoving host location identity es name = state) :
    (∃ reason, state = .foreign reason) ∨
      state = .removing ∧ ∃ data, es.find name = some (.file data) := by
  subst h
  unfold classifyRemoving
  split
  · exact .inl ⟨_, rfl⟩
  next hk =>
    have file := entryKind_eq_file.mp (not_not.mp hk)
    repeat' split
    all_goals first | exact .inl ⟨_, rfl⟩ | exact .inr ⟨rfl, file⟩

theorem classifyOwned_cases {state : BackupState}
    (h : classifyOwned host location identity es structureOk = state) :
    (∃ reason, state = .foreign reason) ∨ state = .restorable := by
  subst h
  unfold classifyOwned
  repeat' split
  all_goals first | exact .inl ⟨_, rfl⟩ | exact .inr rfl

theorem classifyBackupEntries_empty :
    classifyBackupEntries host location identity es structureOk = .empty ↔ es = [] := by
  rw [← Entries.names_eq_nil]
  constructor
  · intro h
    by_contra hn
    unfold classifyBackupEntries at h
    rw [if_neg hn] at h
    split at h
    · cases h
    split at h
    · cases h
    · obtain ⟨reason, hr⟩ | ⟨hr, _⟩ := classifyRemoving_cases h <;> cases hr
    · obtain ⟨reason, hr⟩ | hr := classifyOwned_cases h <;> cases hr
  · intro h
    rw [classifyBackupEntries, if_pos h]

theorem classifyBackupEntries_ne_absent :
    classifyBackupEntries host location identity es structureOk ≠ .absent := by
  intro h
  unfold classifyBackupEntries at h
  split at h
  · cases h
  split at h
  · cases h
  split at h
  · cases h
  · obtain ⟨reason, hr⟩ | ⟨hr, _⟩ := classifyRemoving_cases h <;> cases hr
  · obtain ⟨reason, hr⟩ | hr := classifyOwned_cases h <;> cases hr

theorem classifyOwned_restorable :
    classifyOwned host location identity es structureOk = .restorable ↔
      validatedManifest host location identity es prefixMarker = .ok () ∨
        es.find prefixMarker = none ∧ (∃ data, es.find legacyPrefixMarker = some (.file data)) ∧
          structureOk = true ∧ identity = none := by
  rw [← entryKind_eq_missing, ← entryKind_eq_file]
  constructor
  · intro h
    unfold classifyOwned at h
    split at h
    · split at h
      next hv => exact .inl hv
      · cases h
    next hm =>
      split at h
      next hl =>
        split at h
        next hs =>
          split at h
          · cases h
          next hi => exact .inr ⟨hm, hl, hs, by simpa using hi⟩
        · cases h
      · cases h
      · cases h
    · cases h
  · rintro (hv | ⟨hm, hl, rfl, rfl⟩)
    · simp [classifyOwned, entryKind_eq_file.mpr (validatedManifest_file hv), hv]
    · simp [classifyOwned, hm, hl]

/-- What makes a backup one that may be moved back. -/
def Restorable (host : Host) (location : PrefixLocation) (identity : Option V3Identity)
    (es : Entries) (structureOk : Bool) : Prop :=
  isProtected es = false ∧ backupTombstone es = .ok none ∧
    (validatedManifest host location identity es prefixMarker = .ok () ∨
      es.find prefixMarker = none ∧ (∃ data, es.find legacyPrefixMarker = some (.file data)) ∧
        structureOk = true ∧ identity = none)

/-- A restorable backup carries the file that makes it the launcher's. -/
theorem Restorable.owned (h : Restorable host location identity es structureOk) :
    ∃ name data, (name = prefixMarker ∨ name = legacyPrefixMarker) ∧
      es.find name = some (.file data) := by
  obtain ⟨_, _, hv | ⟨_, ⟨data, hd⟩, _⟩⟩ := h
  · obtain ⟨data, hd⟩ := validatedManifest_file hv
    exact ⟨_, data, .inl rfl, hd⟩
  · exact ⟨_, data, .inr rfl, hd⟩

theorem classifyBackupEntries_restorable :
    classifyBackupEntries host location identity es structureOk = .restorable ↔
      Restorable host location identity es structureOk := by
  constructor
  · intro h
    unfold classifyBackupEntries at h
    split at h
    · cases h
    split at h
    · cases h
    next hp =>
      split at h
      · cases h
      · obtain ⟨reason, hr⟩ | ⟨hr, _⟩ := classifyRemoving_cases h <;> cases hr
      next ht => exact ⟨Bool.not_eq_true _ ▸ hp, ht, classifyOwned_restorable.mp h⟩
  · intro h
    obtain ⟨name, data, _, hd⟩ := h.owned
    have hne : es.names ≠ [] := fun hn => by
      rw [Entries.find_eq_none_of_nil_names hn] at hd
      cases hd
    obtain ⟨hp, ht, owned⟩ := h
    simp [classifyBackupEntries, hne, hp, ht, classifyOwned_restorable.mpr owned]

theorem classifyBackupEntries_removing
    (h : classifyBackupEntries host location identity es structureOk = .removing) :
    isProtected es = false ∧ ∃ name data, backupTombstone es = .ok (some name) ∧
      es.find name = some (.file data) := by
  unfold classifyBackupEntries at h
  split at h
  · cases h
  split at h
  · cases h
  next hp =>
    split at h
    · cases h
    next name ht =>
      obtain ⟨reason, hr⟩ | ⟨_, data, hd⟩ := classifyRemoving_cases h
      · cases hr
      · exact ⟨Bool.not_eq_true _ ▸ hp, name, data, ht, hd⟩
    · obtain ⟨reason, hr⟩ | hr := classifyOwned_cases h <;> cases hr

end BackupEntries

theorem classifyBackup_absent :
    classifyBackup host parentDev location identity node = .absent ↔ node = none := by
  constructor
  · intro h
    obtain ⟨_, hn⟩ | ⟨reason, hr⟩ | ⟨ino, es, _, he⟩ := classifyBackup_cases h
    · exact hn
    · cases hr
    · exact absurd he classifyBackupEntries_ne_absent
  · rintro rfl
    rfl

theorem classifyBackup_empty :
    classifyBackup host parentDev location identity node = .empty ↔
      ∃ ino, node = some (.dir ino parentDev []) := by
  constructor
  · intro h
    obtain ⟨hr, _⟩ | ⟨reason, hr⟩ | ⟨ino, es, hn, he⟩ := classifyBackup_cases h
    · cases hr
    · cases hr
    · rw [classifyBackupEntries_empty] at he
      exact ⟨ino, by rw [hn, he]⟩
  · rintro ⟨ino, rfl⟩
    rw [classifyBackup_dir, if_neg (not_not.mpr rfl)]
    exact classifyBackupEntries_empty.mpr rfl

theorem classifyBackup_restorable :
    classifyBackup host parentDev location identity node = .restorable ↔
      ∃ ino es, node = some (.dir ino parentDev es) ∧
        Restorable host location identity es
          (inspectPrefix host.serde (some (.dir ino parentDev es))).structureOk := by
  constructor
  · intro h
    obtain ⟨hr, _⟩ | ⟨reason, hr⟩ | ⟨ino, es, hn, he⟩ := classifyBackup_cases h
    · cases hr
    · cases hr
    · exact ⟨ino, es, hn, classifyBackupEntries_restorable.mp he⟩
  · rintro ⟨ino, es, rfl, h⟩
    rw [classifyBackup_dir, if_neg (not_not.mpr rfl)]
    exact classifyBackupEntries_restorable.mpr h

theorem classifyBackup_removing
    (h : classifyBackup host parentDev location identity node = .removing) :
    ∃ ino es name data, node = some (.dir ino parentDev es) ∧ isProtected es = false ∧
      backupTombstone es = .ok (some name) ∧ Entries.find es name = some (Node.file data) := by
  obtain ⟨hr, _⟩ | ⟨reason, hr⟩ | ⟨ino, es, hn, he⟩ := classifyBackup_cases h
  · cases hr
  · cases hr
  · obtain ⟨hp, name, data, ht, hd⟩ := classifyBackupEntries_removing he
    exact ⟨ino, es, name, data, hn, hp, ht, hd⟩

/-- Removal evidence dominates: whatever else a backup holds, one with a tombstone is never
restorable, under any identity rule. -/
theorem tombstone_not_restorable {ino dev : Nat} {es : Entries} {name : String}
    (hname : name = backupRemovingManifest ∨ name = backupRemovingLegacy)
    (present : es.find name ≠ none) :
    classifyBackup host parentDev location identity (some (.dir ino dev es)) ≠ .restorable := by
  intro h
  obtain ⟨ino', es', he, _, ht, _⟩ := classifyBackup_restorable.mp h
  cases he
  obtain ⟨h1, h2⟩ := backupTombstone_none.mp ht
  rcases hname with rfl | rfl
  · exact present h1
  · exact present h2

end NodeClasses

end RoLauncher.Prefix
