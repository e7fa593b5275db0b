import RoLauncher.Store.Json

/-!
# What a killed save leaves to load

`loadable` is the value that an undisturbed load of a document and its backup
yields. Every program of the store changes the two only by a `Move`, and a
move loses no loadable value, with one exception that `Move` cannot express
and `Ready` rules out: a save that starts on an unreadable document copies it
over the only good version, and a kill before the rename leaves nothing to
load.
-/

namespace RoLauncher.Store

open RoLauncher.Files RoLauncher.Crash

/-! ## The names of one document -/

section Names

/-- A text that starts with its own continuation shifted by one. -/
theorem shift_append {a : Char} {s before after : List Char}
    (h : a :: (s ++ before) = s ++ after) : after = a :: before := by
  induction s with
  | nil => exact h.symm
  | cons c rest ih =>
    rw [List.cons_append, List.cons_append, List.cons.injEq] at h
    obtain ⟨rfl, h⟩ := h
    exact ih h

variable {path : StorePath} {moment moment' : Moment}

theorem temp_toList (path : StorePath) (moment : Moment) :
    ∃ rest, (path.temp moment).toList = '.' :: (path.fileName.toList ++ '.' :: 't' :: rest) := by
  refine ⟨"mp-".toList ++ (toString moment.pid ++ "-" ++ toString moment.sequence).toList, ?_⟩
  simp [StorePath.temp, String.toList_append]

theorem quarantine_toList (path : StorePath) (moment : Moment) :
    ∃ rest, (path.quarantine moment).toList = path.fileName.toList ++ '.' :: 'c' :: rest := by
  refine ⟨"orrupt-".toList ++ (toString moment.timestamp ++ "-" ++ toString moment.pid ++ "-" ++
    toString moment.sequence).toList, ?_⟩
  simp [StorePath.quarantine, String.toList_append]

theorem backup_toList (path : StorePath) :
    path.backup.fileName.toList = path.fileName.toList ++ ['.', 'b', 'a', 'k'] := by
  simp [StorePath.backup, backupName, String.toList_append]

theorem backup_ne_primary : path.backup.fileName ≠ path.fileName := by
  intro h
  have := congrArg String.toList h
  rw [backup_toList] at this
  simp at this

theorem temp_ne_primary : path.temp moment ≠ path.fileName := by
  intro h
  obtain ⟨rest, hrest⟩ := temp_toList path moment
  rw [h] at hrest
  have shifted := shift_append (hrest.symm.trans (List.append_nil _).symm)
  cases shifted

theorem temp_ne_backup : path.temp moment ≠ path.backup.fileName := by
  intro h
  obtain ⟨rest, hrest⟩ := temp_toList path moment
  rw [h, backup_toList] at hrest
  have shifted := shift_append hrest.symm
  cases shifted

theorem quarantine_ne_primary : path.quarantine moment ≠ path.fileName := by
  intro h
  obtain ⟨rest, hrest⟩ := quarantine_toList path moment
  rw [h] at hrest
  simp at hrest

theorem quarantine_ne_backup : path.quarantine moment ≠ path.backup.fileName := by
  intro h
  obtain ⟨rest, hrest⟩ := quarantine_toList path moment
  rw [h, backup_toList] at hrest
  simp at hrest

theorem temp_ne_quarantine : path.temp moment ≠ path.quarantine moment' := by
  intro h
  obtain ⟨rest, hrest⟩ := temp_toList path moment
  obtain ⟨rest', hrest'⟩ := quarantine_toList path moment'
  rw [h, hrest'] at hrest
  have shifted := shift_append hrest.symm
  cases shifted

end Names

/-! ## Frames -/

/-- The names a call can change. -/
def FileOp.changes : FileOp → List String
  | .createNew name | .write name _ | .copy _ name | .remove name => [name]
  | .rename source destination => [source, destination]
  | .createDirAll | .syncFile _ | .syncDirectory => []

theorem execOp_frame {o : FileOp} {folder : Folder} {other : String} (h : other ∉ o.changes) :
    (execOp o folder).2 other = folder other := by
  have put : ∀ {name : String} {item : Option Item}, other ≠ name →
      folder.put name item other = folder other := fun hne => Folder.put_of_ne _ _ hne
  cases o with
  | createDirAll => rfl
  | syncDirectory => rfl
  | syncFile name =>
    simp only [execOp]
    split <;> rfl
  | createNew name | write name data | remove name =>
    have hne : other ≠ name := fun he => h (by simp [FileOp.changes, he])
    simp only [execOp]
    split <;> first | rfl | exact put hne
  | copy source destination =>
    have hne : other ≠ destination := fun he => h (by simp [FileOp.changes, he])
    simp only [execOp]
    split <;> first | rfl | exact put hne
  | rename source destination =>
    simp only [FileOp.changes, List.mem_cons, List.not_mem_nil, or_false, not_or] at h
    simp only [execOp]
    split <;> first | rfl | exact (Folder.put_of_ne _ _ h.2).trans (put h.1)

theorem tornOp_frame {o : FileOp} {folder folder' : Folder} {other : String}
    (h : other ∉ o.changes) (torn : tornOp o folder folder') : folder' other = folder other := by
  rcases torn with rfl | torn
  · rfl
  cases o with
  | write name data =>
    obtain ⟨_, _, _, _, rfl⟩ := torn
    exact Folder.put_of_ne _ _ fun he => h (by simp [FileOp.changes, he])
  | copy source destination =>
    obtain ⟨_, _, _, _, _, rfl⟩ := torn
    exact Folder.put_of_ne _ _ fun he => h (by simp [FileOp.changes, he])
  | _ => exact torn.elim

/-! ## What a load yields -/

section Loadable

variable {T Value : Type} [DecidableEq Value] (codec : Codec T Value) (path : StorePath)

def loadable (primary backup : Option Item) : Option T :=
  match primary with
  | none => some codec.default
  | some item =>
    match readValidated codec path (some item) with
    | .ok (value, original, canonical) =>
      if original = canonical then some value
      else if backup ≠ some .directory ∧ (codec.toStringPretty value).isOk then some value
      else none
    | .error _ =>
      match item, readValidated codec path.backup backup with
      | .file _, .ok (value, _, _) => if (codec.toStringPretty value).isOk then some value else none
      | _, _ => none

/-- The value of the document in a folder. -/
abbrev Folder.loadable (folder : Folder) : Option T :=
  Store.loadable codec path (folder path.fileName) (folder path.backup.fileName)

/-- A save may start: the document is missing, or can be read. -/
def Ready (folder : Folder) : Prop :=
  folder path.fileName = none ∨ ∃ r, readValidated codec path (folder path.fileName) = .ok r

variable {codec path}

omit [DecidableEq Value] in
theorem readValidated_ok {item : Option Item} {value : T} {original canonical : Value}
    (h : readValidated codec path item = .ok (value, original, canonical)) :
    (∃ data, item = some (.file data)) ∧ codec.validate value = .ok () := by
  unfold readValidated at h
  dsimp only at h
  split at h
  · cases h
  · cases h
  next data =>
    refine ⟨⟨data, rfl⟩, ?_⟩
    split at h
    · cases h
    next content _ =>
      cases hp : codec.parse content with
      | error e => rw [hp] at h; cases h
      | ok parsed =>
        cases hf : codec.fromValue parsed with
        | error e => rw [hp] at h; simp [Except.mapError, bind, Except.bind, hf] at h
        | ok v =>
          cases hv : codec.validate v with
          | error e => rw [hp] at h; simp [Except.mapError, bind, Except.bind, hf, hv] at h
          | ok u =>
            cases ht : codec.toValue v with
            | error e => rw [hp] at h; simp [Except.mapError, bind, Except.bind, hf, hv, ht] at h
            | ok c =>
              rw [hp] at h
              simp [Except.mapError, bind, Except.bind, hf, hv, ht, pure, Except.pure] at h
              rw [← h.1, hv]

omit [DecidableEq Value] in
/-- A document that was written is read back, in canonical form. -/
theorem readValidated_written (lawful : codec.Lawful) {value : T} {json : String}
    (printed : codec.toStringPretty value = .ok json) (valid : codec.validate value = .ok ()) :
    ∃ canonical, readValidated codec path (some (.file (.text json))) =
      .ok (value, canonical, canonical) := by
  obtain ⟨canonical, hp, hf, ht⟩ := lawful.roundTrip value json printed
  refine ⟨canonical, ?_⟩
  unfold readValidated
  simp [Blob.text?, hp, hf, ht, valid, Except.mapError, bind, Except.bind, pure, Except.pure]

theorem loadable_written (lawful : codec.Lawful) {value : T} {json : String} {backup : Option Item}
    (printed : codec.toStringPretty value = .ok json) (valid : codec.validate value = .ok ()) :
    loadable codec path (some (.file (.text json))) backup = some value := by
  obtain ⟨canonical, h⟩ : ∃ canonical, readValidated codec path (some (.file (.text json))) =
      .ok (value, canonical, canonical) := readValidated_written lawful printed valid
  simp only [loadable, h, if_pos]

/-- A readable document is loaded whatever its backup, a directory apart. -/
theorem loadable_rotated {primary backup : Option Item} {value v : T} {original canonical : Value}
    {data : Blob} (readable : readValidated codec path primary = .ok (v, original, canonical))
    (h : loadable codec path primary backup = some value) :
    loadable codec path primary (some (.file data)) = some value := by
  obtain ⟨⟨old, rfl⟩, _⟩ := readValidated_ok readable
  simp only [loadable, readable] at h ⊢
  split
  next same => rwa [if_pos same] at h
  next other =>
    rw [if_neg other] at h
    split at h
    next able => rw [if_pos ⟨by simp, able.2⟩, h]
    next => cases h

end Loadable

/-! ## Moves -/

/-- What a program of the store can do to a document, in one step. -/
inductive Move {T Value : Type} [DecidableEq Value] (codec : Codec T Value) (path : StorePath)
    (S : T → Prop) : Folder → Folder → Prop
  /-- Other files of the directory. -/
  | aside {folder folder' : Folder} : folder' path.fileName = folder path.fileName →
      folder' path.backup.fileName = folder path.backup.fileName → Move codec path S folder folder'
  /-- The backup, while the document can be read. -/
  | rotate {folder folder' : Folder} {r : T × Value × Value} {data : Blob} :
      folder' path.fileName = folder path.fileName →
      readValidated codec path (folder path.fileName) = .ok r →
      folder' path.backup.fileName = some (.file data) → Move codec path S folder folder'
  /-- The document, by a value that is saved or that was there to load. -/
  | replace {folder folder' : Folder} {value : T} {json : String} :
      codec.toStringPretty value = .ok json → codec.validate value = .ok () →
      S value ∨ folder.loadable codec path = some value →
      folder' path.fileName = some (.file (.text json)) → Move codec path S folder folder'

section Moves

variable {T Value : Type} [DecidableEq Value] {codec : Codec T Value} {path : StorePath}
  {S : T → Prop}

/-- **One move** leaves a value to load: the one before it, or a saved one. -/
theorem loadable_move (lawful : codec.Lawful) {folder folder' : Folder} {v : T}
    (move : Move codec path S folder folder')
    (before : ∃ w, (w = v ∨ S w) ∧ folder.loadable codec path = some w) :
    ∃ w, (w = v ∨ S w) ∧ folder'.loadable codec path = some w := by
  obtain ⟨w, from', h⟩ := before
  cases move with
  | aside primary backup => exact ⟨w, from', by rw [Folder.loadable, primary, backup]; exact h⟩
  | rotate primary readable backup =>
    refine ⟨w, from', ?_⟩
    rw [Folder.loadable, primary, backup]
    exact loadable_rotated readable h
  | replace printed valid source primary =>
    refine ⟨_, ?_, by rw [Folder.loadable, primary]; exact loadable_written lawful printed valid⟩
    rcases source with saved | there
    · exact .inr saved
    · rw [h] at there
      cases there
      exact from'

/-- A call that changes neither the document nor its backup. -/
theorem perform_aside {o : FileOp} {folder : Folder} {Q : Except String Unit → Folder → Prop}
    (primary : path.fileName ∉ o.changes) (backup : path.backup.fileName ∉ o.changes)
    (ok : (execOp o folder).1 = .ok () → Q (.ok ()) (execOp o folder).2)
    (failed : ∀ e t, t path.fileName = folder path.fileName →
      t path.backup.fileName = folder path.backup.fileName → Q (.error e) t) :
    (Prog.perform o id : StoreProg Unit).Meets device (Move codec path S) Q folder := by
  refine Prog.meets_perform (fun t torn => ?_) (.aside (execOp_frame primary) (execOp_frame backup))
    ok fun e _ => failed e _ (execOp_frame primary) (execOp_frame backup)
  have here := tornOp_frame primary torn
  have there := tornOp_frame backup torn
  exact ⟨.aside here there, fun e => failed e t here there⟩

theorem createNew_ok {name : String} {folder : Folder}
    (h : (execOp (.createNew name) folder).1 = .ok ()) :
    (execOp (.createNew name) folder).2 = folder.put name (some (.file (.text ""))) := by
  simp only [execOp] at h ⊢
  split
  · rfl
  next present => rw [present] at h; cases h

theorem syncFile_same {name : String} {folder : Folder} :
    (execOp (.syncFile name) folder).2 = folder := by
  simp only [execOp]
  split <;> rfl

theorem write_ok {name : String} {data : Blob} {folder : Folder}
    (h : (execOp (.write name data) folder).1 = .ok ()) :
    (execOp (.write name data) folder).2 = folder.put name (some (.file data)) := by
  simp only [execOp] at h ⊢
  split
  · rfl
  all_goals simp_all

theorem copy_ok {source destination : String} {folder : Folder}
    (h : (execOp (.copy source destination) folder).1 = .ok ()) :
    ∃ data, folder source = some (.file data) ∧ folder destination ≠ some .directory ∧
      (execOp (.copy source destination) folder).2 =
        folder.put destination (some (.file data)) := by
  simp only [execOp] at h ⊢
  split at h
  · cases h
  · cases h
  · cases h
  next data found other => exact ⟨data, found, other, rfl⟩

/-- The temporary, complete, beside an untouched document. -/
theorem writeAndSync_meets {folder : Folder} {name content : String}
    (notPrimary : path.fileName ≠ name) (notBackup : path.backup.fileName ≠ name) :
    (writeAndSync name content).Meets device (Move codec path S)
      (fun r t => t path.fileName = folder path.fileName ∧
        t path.backup.fileName = folder path.backup.fileName ∧
        (r = .ok () → t name = some (.file (.text content)))) folder := by
  have aside : ∀ {other : String}, other ≠ name → ∀ o : FileOp, o.changes = [name] →
      other ∉ o.changes := fun hne o ho => by rw [ho]; simpa using hne
  refine Prog.Meets.bind (perform_aside (aside notPrimary _ rfl) (aside notBackup _ rfl) ?_
    fun e t h1 h2 => ⟨h1, h2, fun h => by cases h⟩)
  intro created
  rw [createNew_ok created]
  refine Prog.Meets.bind (perform_aside (aside notPrimary _ rfl) (aside notBackup _ rfl) ?_ ?_)
  · intro written
    rw [write_ok written]
    refine perform_aside (by simp [FileOp.changes]) (by simp [FileOp.changes]) ?_ ?_
    · intro _
      rw [syncFile_same]
      refine ⟨?_, ?_, fun _ => Folder.put_self _ _ _⟩ <;>
        simp [Folder.put_of_ne _ _ notPrimary, Folder.put_of_ne _ _ notBackup]
    · intro e t h1 h2
      rw [h1, h2]
      refine ⟨?_, ?_, fun h => by cases h⟩ <;>
        simp [Folder.put_of_ne _ _ notPrimary, Folder.put_of_ne _ _ notBackup]
  · intro e t h1 h2
    rw [h1, h2]
    exact ⟨Folder.put_of_ne _ _ notPrimary, Folder.put_of_ne _ _ notBackup, fun h => by cases h⟩

/-- The readable document, copied over its backup. -/
theorem rotateBackup_meets {folder : Folder} {r : T × Value × Value} {temp : String}
    (readable : readValidated codec path (folder path.fileName) = .ok r)
    (other : temp ≠ path.backup.fileName) :
    (copyAndSync path.fileName path.backup.fileName).Meets device (Move codec path S)
      (fun result t => t path.fileName = folder path.fileName ∧ t temp = folder temp ∧
        (result = .ok () → folder path.backup.fileName ≠ some .directory ∧
          ∃ data, t path.backup.fileName = some (.file data))) folder := by
  obtain ⟨value, original, canonical⟩ := r
  obtain ⟨⟨old, found⟩, _⟩ := readValidated_ok readable
  have primary : ∀ item, folder.put path.backup.fileName item path.fileName =
      folder path.fileName := fun item => Folder.put_of_ne _ _ backup_ne_primary.symm
  have aside : ∀ item, folder.put path.backup.fileName item temp = folder temp :=
    fun item => Folder.put_of_ne _ _ other
  have rotated : ∀ data, Move codec path S folder
      (folder.put path.backup.fileName (some (.file data))) := fun data =>
    .rotate (primary _) readable (Folder.put_self _ _ _)
  refine Prog.Meets.bind (Prog.meets_perform ?_ ?_ ?_ ?_)
  · rintro t (rfl | ⟨data, blob, _, _, _, rfl⟩)
    · exact ⟨.aside rfl rfl, fun e => ⟨rfl, rfl, fun h => by cases h⟩⟩
    · exact ⟨rotated blob, fun e => ⟨primary _, aside _, fun h => by cases h⟩⟩
  · change Move codec path S folder (execOp (.copy path.fileName path.backup.fileName) folder).2
    cases hr : (execOp (.copy path.fileName path.backup.fileName) folder).1 with
    | ok u =>
      obtain ⟨data, _, _, result⟩ := copy_ok hr
      rw [result]
      exact rotated data
    | error e =>
      have same : (execOp (.copy path.fileName path.backup.fileName) folder).2 = folder := by
        simp only [execOp] at hr ⊢
        split at hr <;> first | rfl | cases hr
      rw [same]
      exact .aside rfl rfl
  · intro copied
    obtain ⟨data, _, there, result⟩ := copy_ok copied
    change (Prog.perform (.syncFile path.backup.fileName) id : StoreProg Unit).Meets device
      (Move codec path S) _ (execOp (.copy path.fileName path.backup.fileName) folder).2
    rw [result]
    refine Prog.meets_perform ?_ ?_ ?_ ?_
    · rintro t (rfl | torn)
      · exact ⟨.aside rfl rfl, fun e => ⟨primary _, aside _, fun h => by cases h⟩⟩
      · exact torn.elim
    · exact .aside (by rw [device, syncFile_same]) (by rw [device, syncFile_same])
    · intro _
      rw [device, syncFile_same]
      exact ⟨primary _, aside _, fun _ => ⟨there, data, Folder.put_self _ _ _⟩⟩
    · intro e _
      rw [device, syncFile_same]
      exact ⟨primary _, aside _, fun h => by cases h⟩
  · intro e hr
    have same : (execOp (.copy path.fileName path.backup.fileName) folder).2 = folder := by
      change (execOp (.copy path.fileName path.backup.fileName) folder).1 = _ at hr
      simp only [execOp] at hr ⊢
      split at hr <;> first | rfl | cases hr
    change (execOp (.copy path.fileName path.backup.fileName) folder).2 path.fileName = _ ∧
      (execOp (.copy path.fileName path.backup.fileName) folder).2 temp = _ ∧ _
    rw [same]
    exact ⟨rfl, rfl, fun h => by cases h⟩

/-! ## Writing -/

/-- The temporary is complete and, where asked for, the document is in the backup. -/
def Prepared (path : StorePath) (rotateBackup : Bool) (folder folder' : Folder) : Prop :=
  folder' path.fileName = folder path.fileName ∧
    if rotateBackup && (folder path.fileName).isSome then
      folder path.backup.fileName ≠ some .directory ∧
        ∃ data, folder' path.backup.fileName = some (.file data)
    else folder' path.backup.fileName = folder path.backup.fileName

/-- A write of a value, from a folder where the backup may be rotated: the only
step that replaces the document is the rename of the complete temporary. -/
theorem replaceThrough_meets {folder : Folder} {moment : Moment} {value : T} {json : String}
    {rotateBackup : Bool} (printed : codec.toStringPretty value = .ok json)
    (valid : codec.validate value = .ok ()) (ready : rotateBackup = true → Ready codec path folder)
    (source : ∀ t, Prepared path rotateBackup folder t →
      S value ∨ t.loadable codec path = some value) :
    (replaceThrough path (path.temp moment) json rotateBackup).Meets device (Move codec path S)
      (fun r _ => r = .ok () → ∃ t, Prepared path rotateBackup folder t) folder := by
  have failed : ∀ {e : String} {P : Prop}, (Except.error e : Except String Unit) = .ok () → P :=
    fun h => by cases h
  -- The rename and what follows it, from a prepared folder.
  have rename : ∀ t, Prepared path rotateBackup folder t →
      t (path.temp moment) = some (.file (.text json)) →
      (do
        .perform (.rename (path.temp moment) path.fileName) id
        .perform .syncDirectory id : StoreProg Unit).Meets device (Move codec path S)
        (fun r _ => r = .ok () → ∃ t, Prepared path rotateBackup folder t) t := by
    intro t prepared complete
    refine Prog.Meets.bind (Prog.meets_perform ?_ ?_ ?_ fun _ _ => failed)
    · rintro u (rfl | torn)
      · exact ⟨.aside rfl rfl, fun _ => failed⟩
      · exact torn.elim
    · change Move codec path S t (execOp (.rename (path.temp moment) path.fileName) t).2
      simp only [execOp, complete]
      split
      · exact .aside rfl rfl
      · exact .aside rfl rfl
      · exact .aside rfl rfl
      next item found _ _ =>
        cases found
        exact .replace printed valid (source t prepared) (Folder.put_self _ _ _)
    · intro _
      exact perform_aside (by simp [FileOp.changes]) (by simp [FileOp.changes])
        (fun _ _ => ⟨t, prepared⟩) fun _ _ _ _ => failed
  refine Prog.Meets.bind ((writeAndSync_meets temp_ne_primary.symm temp_ne_backup.symm).post ?_)
  rintro (e | ⟨⟩) t ⟨primary, backup, complete⟩
  · exact failed
  · refine Prog.Meets.bind (Prog.Meets.onlyIf (fun rotated => ?_) fun kept => ?_)
    · rw [primary] at rotated
      obtain ⟨asked, present⟩ := Bool.and_eq_true_iff.mp rotated
      have readable : ∃ r, readValidated codec path (t path.fileName) = .ok r := by
        rw [primary]
        rcases ready asked with missing | readable
        · rw [missing] at present
          cases present
        · exact readable
      obtain ⟨r, readable⟩ := readable
      refine (rotateBackup_meets readable (@temp_ne_backup path moment)).post ?_
      rintro (e | ⟨⟩) u ⟨primary', temp', copied⟩
      · exact failed
      · obtain ⟨there, data, result⟩ := copied rfl
        refine rename u ⟨primary'.trans primary, ?_⟩ (temp'.trans (complete rfl))
        rw [if_pos rotated, ← backup]
        exact ⟨there, data, result⟩
    · refine rename t ⟨primary, ?_⟩ (complete rfl)
      rw [primary] at kept
      rw [if_neg (by simp [kept])]
      exact backup

theorem writeJsonInternal_meets {folder : Folder} {moment : Moment} {value : T}
    {rotateBackup : Bool} (valid : codec.validate value = .ok ())
    (ready : rotateBackup = true → Ready codec path folder)
    (source : ∀ t, Prepared path rotateBackup folder t → (codec.toStringPretty value).isOk →
      S value ∨ t.loadable codec path = some value) :
    (writeJsonInternal codec path moment value rotateBackup).Meets device (Move codec path S)
      (fun r _ => r = .ok () →
        (codec.toStringPretty value).isOk ∧ ∃ t, Prepared path rotateBackup folder t) folder := by
  have failed : ∀ {e : String} {P : Prop}, (Except.error e : Except String Unit) = .ok () → P :=
    fun h => by cases h
  refine Prog.Meets.bind (perform_aside (by simp [FileOp.changes]) (by simp [FileOp.changes])
    (fun _ => ?_) fun _ _ _ _ => failed)
  refine Prog.Meets.bind (Prog.meets_ofExcept ?_)
  cases printed : codec.toStringPretty value with
  | error e => exact failed
  | ok json =>
    refine Prog.Meets.bind (Prog.Meets.attempt ((replaceThrough_meets printed valid ready
      fun t prepared => source t prepared (by rw [printed]; rfl)).post ?_))
    rintro (e | ⟨⟩) t written
    · have aside : ∀ {other : String}, other ≠ path.temp moment →
          other ∉ (FileOp.remove (path.temp moment)).changes := fun hne => by
        simpa [FileOp.changes] using hne
      refine Prog.Meets.bind ⟨fun u torn => ⟨.aside (tornOp_frame (aside temp_ne_primary.symm) torn)
        (tornOp_frame (aside temp_ne_backup.symm) torn), fun _ => failed⟩, ?_, failed⟩
      exact .aside (execOp_frame (aside temp_ne_primary.symm))
        (execOp_frame (aside temp_ne_backup.symm))
    · exact fun _ => ⟨rfl, written rfl⟩

/-- **A save** of a value of `S` that starts on a readable document, or on none. -/
theorem save_meets {folder : Folder} {moment : Moment} {value : T} (saved : S value)
    (ready : codec.validate value = .ok () → Ready codec path folder) :
    (save codec path moment value).Meets device (Move codec path S) (fun _ _ => True) folder := by
  refine Prog.Meets.bind (Prog.meets_ofExcept ?_)
  cases valid : codec.validate value with
  | error e => trivial
  | ok u =>
    exact (writeJsonInternal_meets valid (fun _ => ready valid) fun _ _ _ => .inl saved).post
      fun _ _ _ => trivial

/-! ## Loading -/

/-- The damaged document is copied aside. -/
theorem preserveCorruptFile_meets {folder : Folder} {moment : Moment} :
    (preserveCorruptFile path moment).Meets device (Move codec path S)
      (fun r t => t path.fileName = folder path.fileName ∧
        t path.backup.fileName = folder path.backup.fileName ∧
        (r = .ok () → ∃ data, folder path.fileName = some (.file data))) folder := by
  have aside : ∀ {other : String}, other ≠ path.quarantine moment → ∀ o : FileOp,
      o.changes = [path.quarantine moment] → other ∉ o.changes :=
    fun hne o ho => by rw [ho]; simpa using hne
  refine Prog.Meets.bind (perform_aside (aside quarantine_ne_primary.symm _ rfl)
    (aside quarantine_ne_backup.symm _ rfl) ?_ fun e t h1 h2 => ⟨h1, h2, fun h => by cases h⟩)
  intro copied
  obtain ⟨data, found, _, result⟩ := copy_ok copied
  rw [result]
  have primary := Folder.put_of_ne folder (some (.file data))
    (@quarantine_ne_primary path moment).symm
  have backup := Folder.put_of_ne folder (some (.file data))
    (@quarantine_ne_backup path moment).symm
  refine perform_aside (by simp [FileOp.changes]) (by simp [FileOp.changes]) ?_ ?_
  · intro _
    rw [syncFile_same]
    exact ⟨primary, backup, fun _ => ⟨data, found⟩⟩
  · intro e t h1 h2
    exact ⟨h1.trans primary, h2.trans backup, fun h => by cases h⟩

/-- **A load**, from any folder: it yields the value of the document. -/
theorem loadJsonRecovering_meets {folder : Folder} {moment : Moment} :
    (loadJsonRecovering codec path moment).Meets device (Move codec path S)
      (fun r _ => ∀ loaded, r = .ok loaded → folder.loadable codec path = some loaded.value)
      folder := by
  have failed : ∀ {e : String} {P : JsonLoad T → Prop} (loaded : JsonLoad T),
      (Except.error e : Except String (JsonLoad T)) = .ok loaded → P loaded :=
    fun _ h => by cases h
  rw [loadJsonRecovering, Prog.Meets]
  split
  next missing =>
    rintro loaded ⟨⟩
    rw [Folder.loadable, missing]
    rfl
  next present =>
    obtain ⟨item, found⟩ := Option.ne_none_iff_exists'.mp present
    split
    next value original canonical readable =>
      split
      next same =>
        rintro loaded ⟨⟩
        rw [found] at readable
        simp only [Folder.loadable, loadable, found, readable, if_pos same]
      next other =>
        obtain ⟨_, valid⟩ := readValidated_ok readable
        have loads : ∀ {backup : Option Item}, backup ≠ some .directory →
            (codec.toStringPretty value).isOk →
            loadable codec path (folder path.fileName) backup = some value := by
          intro backup file printable
          rw [found] at readable ⊢
          simp only [loadable, readable, if_neg other, if_pos (And.intro file printable)]
        have rotates : (true && (folder path.fileName).isSome) = true := by rw [found]; rfl
        refine Prog.Meets.bind ((writeJsonInternal_meets valid (fun _ => .inr ⟨_, readable⟩)
          fun t prepared printable => .inr ?_).post ?_)
        · obtain ⟨primary, rotated⟩ := prepared
          rw [if_pos rotates] at rotated
          obtain ⟨_, data, backup⟩ := rotated
          rw [Folder.loadable, primary, backup]
          exact loads (by simp) printable
        · rintro (e | ⟨⟩) t written
          · exact failed
          · rintro loaded ⟨⟩
            obtain ⟨printable, _, _, rotated⟩ := written rfl
            rw [if_pos rotates] at rotated
            exact loads rotated.1 printable
    next primaryError unreadable =>
      split
      next => exact failed
      next value _ _ fallback =>
        obtain ⟨_, valid⟩ := readValidated_ok fallback
        refine Prog.Meets.bind (preserveCorruptFile_meets.post ?_)
        rintro (e | ⟨⟩) t ⟨primary, backup, preserved⟩
        · exact failed
        · obtain ⟨data, file⟩ := preserved rfl
          have loads : (codec.toStringPretty value).isOk →
              folder.loadable codec path = some value := by
            intro printable
            rw [file] at unreadable
            simp only [Folder.loadable, loadable, file, unreadable, fallback, if_pos printable]
          refine Prog.Meets.bind ((writeJsonInternal_meets valid (fun h => by cases h)
            fun u prepared printable => .inr ?_).post ?_)
          · obtain ⟨primary', backup'⟩ := prepared
            rw [Folder.loadable, primary', backup', primary, backup]
            exact loads printable
          · rintro (e | ⟨⟩) u written
            · exact failed
            · rintro loaded ⟨⟩
              exact loads (written rfl).1

/-! ## The undisturbed load -/

omit [DecidableEq Value] in
theorem isOk_iff {value : T} :
    (codec.toStringPretty value).isOk ↔ ∃ json, codec.toStringPretty value = .ok json := by
  cases codec.toStringPretty value <;> simp [Except.isOk, Except.toBool]

omit [DecidableEq Value] in
theorem writeAndSync_exec {folder : Folder} {name content : String} (fresh : folder name = none) :
    ∃ t, (writeAndSync name content).exec device folder = (.ok (), t) ∧
      t name = some (.file (.text content)) ∧ ∀ other, other ≠ name → t other = folder other := by
  have created : execOp (.createNew name) folder =
      (.ok (), folder.put name (some (.file (.text "")))) := by
    simp only [execOp, fresh]
  have written : execOp (.write name (.text content)) (folder.put name (some (.file (.text "")))) =
      (.ok (), (folder.put name (some (.file (.text "")))).put name
        (some (.file (.text content)))) := by
    simp only [execOp, Folder.put_self]
  have synced : ∀ t : Folder, t name = some (.file (.text content)) →
      execOp (.syncFile name) t = (.ok (), t) := fun t h => by
    simp only [execOp, h, Option.isSome_some, if_pos]
  refine ⟨(folder.put name (some (.file (.text "")))).put name (some (.file (.text content))),
    ?_, Folder.put_self _ _ _, fun other h => ?_⟩
  · exact (Prog.exec_bind_ok (Prog.exec_perform_ok created)).trans
      ((Prog.exec_bind_ok (Prog.exec_perform_ok written)).trans
        (Prog.exec_perform_ok (synced _ (Folder.put_self _ _ _))))
  · rw [Folder.put_of_ne _ _ h, Folder.put_of_ne _ _ h]

omit [DecidableEq Value] in
theorem copyAndSync_exec {folder : Folder} {source destination : String} {data : Blob}
    (found : folder source = some (.file data)) (free : folder destination ≠ some .directory) :
    ∃ t, (copyAndSync source destination).exec device folder = (.ok (), t) ∧
      ∀ other, other ≠ destination → t other = folder other := by
  have copied : execOp (.copy source destination) folder =
      (.ok (), folder.put destination (some (.file data))) := by
    simp only [execOp]
    split
    next missing => rw [missing] at found; cases found
    next here => rw [here] at found; cases found
    next there => exact absurd there free
    next data' here _ =>
      rw [here] at found
      cases found
      rfl
  have synced : execOp (.syncFile destination) (folder.put destination (some (.file data))) =
      (.ok (), folder.put destination (some (.file data))) := by
    simp only [execOp, Folder.put_self, Option.isSome_some, if_pos]
  exact ⟨_, (Prog.exec_bind_ok (Prog.exec_perform_ok copied)).trans (Prog.exec_perform_ok synced),
    fun other h => Folder.put_of_ne _ _ h⟩

omit [DecidableEq Value] in
/-- A write succeeds over a file, with a free temporary and a backup that is not a directory. -/
theorem writeJsonInternal_exec {folder : Folder} {moment : Moment} {value : T} {json : String}
    {rotateBackup : Bool} {data : Blob} (printed : codec.toStringPretty value = .ok json)
    (document : folder path.fileName = some (.file data))
    (fresh : folder (path.temp moment) = none)
    (rotatable : rotateBackup = true → folder path.backup.fileName ≠ some .directory) :
    ∃ t, (writeJsonInternal codec path moment value rotateBackup).exec device folder =
      (.ok (), t) := by
  obtain ⟨t, wrote, complete, kept⟩ := @writeAndSync_exec _ _ json fresh
  have here : t path.fileName = some (.file data) := (kept _ temp_ne_primary.symm).trans document
  have rotated : ∃ u, (Prog.onlyIf (rotateBackup && (t path.fileName).isSome)
      (copyAndSync path.fileName path.backup.fileName)).exec device t = (.ok (), u) ∧
      u path.fileName = some (.file data) ∧
      u (path.temp moment) = some (.file (.text json)) := by
    cases rotateBackup with
    | false => exact ⟨t, rfl, here, complete⟩
    | true =>
      have free : t path.backup.fileName ≠ some .directory := by
        rw [kept _ temp_ne_backup.symm]
        exact rotatable rfl
      obtain ⟨u, copied, same⟩ := copyAndSync_exec here free
      refine ⟨u, ?_, ?_, ?_⟩
      · rw [here]
        exact copied
      · rw [same _ backup_ne_primary.symm, here]
      · rw [same _ temp_ne_backup, complete]
  obtain ⟨u, rotation, document', complete'⟩ := rotated
  have renamed : ∃ w, execOp (.rename (path.temp moment) path.fileName) u = (.ok (), w) := by
    simp only [execOp, complete', document']
    exact ⟨_, rfl⟩
  obtain ⟨w, renamed⟩ := renamed
  have replaced : (replaceThrough path (path.temp moment) json rotateBackup).exec device folder =
      (.ok (), w) :=
    (Prog.exec_bind_ok wrote).trans ((Prog.exec_bind_ok rotation).trans
      (Prog.exec_bind_ok (Prog.exec_perform_ok renamed)))
  refine ⟨w, ?_⟩
  rw [writeJsonInternal, Prog.exec_bind_ok (Prog.exec_perform_ok rfl), printed]
  refine (Prog.exec_bind_ok (t := folder) rfl).trans ((Prog.exec_bind_ok
    (Prog.exec_attempt _ _)).trans ?_)
  rw [replaced]
  rfl

/-- The names of a load are not taken: its temporaries are free, and where it
keeps a damaged document is not a directory. -/
def Fresh (path : StorePath) (moment : Moment) (folder : Folder) : Prop :=
  folder (path.temp moment) = none ∧
    folder (path.temp { moment with sequence := moment.sequence + 1 }) = none ∧
    folder (path.quarantine moment) ≠ some .directory

/-- **An undisturbed load** yields the value of the document. -/
theorem loadJsonRecovering_exec {folder : Folder} {moment : Moment} {value : T}
    (fresh : Fresh path moment folder) (h : folder.loadable codec path = some value) :
    ∃ status t, (loadJsonRecovering codec path moment).exec device folder =
      (.ok { value, status }, t) := by
  obtain ⟨freeTemp, freeNext, freeQuarantine⟩ := fresh
  rw [loadJsonRecovering, Prog.exec_look]
  unfold Folder.loadable loadable at h
  split at h
  next missing =>
    cases h
    rw [if_pos missing]
    exact ⟨_, _, rfl⟩
  next item found =>
    rw [if_neg (by simp [found]), found]
    cases readable : readValidated codec path (some item) with
    | ok r =>
      obtain ⟨v, original, canonical⟩ := r
      rw [readable] at h
      dsimp only at h ⊢
      split at h
      next same =>
        cases h
        rw [if_pos same]
        exact ⟨_, _, rfl⟩
      next other =>
        rw [if_neg other]
        split at h
        next able =>
          cases h
          obtain ⟨⟨data, file⟩, _⟩ := readValidated_ok readable
          cases file
          obtain ⟨json, printed⟩ := isOk_iff.mp able.2
          obtain ⟨t, wrote⟩ := writeJsonInternal_exec printed found freeTemp fun _ => able.1
          exact ⟨_, _, Prog.exec_bind_ok wrote⟩
        next => cases h
    | error e =>
      rw [readable] at h
      dsimp only at h ⊢
      split at h
      next data v _ _ fallback =>
        split at h
        next able =>
          cases h
          obtain ⟨json, printed⟩ := isOk_iff.mp able
          obtain ⟨t, preserved, kept⟩ := copyAndSync_exec found freeQuarantine
          have document : t path.fileName = some (.file data) :=
            (kept _ quarantine_ne_primary.symm).trans found
          have freeNext' := (kept _ temp_ne_quarantine).trans freeNext
          obtain ⟨u, wrote⟩ : ∃ u, (replaceJson codec path
              { moment with sequence := moment.sequence + 1 } value).exec device t = (.ok (), u) :=
            writeJsonInternal_exec printed document freeNext' fun h => by cases h
          rw [fallback]
          exact ⟨_, _, (Prog.exec_bind_ok preserved).trans (Prog.exec_bind_ok wrote)⟩
        next => cases h
      next => cases h

/-! ## Whole runs -/

/-- The programs of the store: a load, or a save of a value of `S`. A save that
gets past the validation starts on a folder of `mayWrite`. -/
inductive StoreEntry (codec : Codec T Value) (path : StorePath) (S : T → Prop)
    (mayWrite : Folder → Prop) (folder : Folder) : StoreProg Unit → Prop
  | load (moment : Moment) : StoreEntry codec path S mayWrite folder
      (loadJsonRecovering codec path moment).discard
  | save (moment : Moment) (value : T) : S value →
      (codec.validate value = .ok () → mayWrite folder) →
      StoreEntry codec path S mayWrite folder (save codec path moment value)

theorem StoreEntry.meets {folder : Folder} {p : StoreProg Unit}
    (h : StoreEntry codec path S (Ready codec path) folder p) :
    p.Meets device (Move codec path S) (fun _ _ => True) folder := by
  cases h with
  | load moment => exact (loadJsonRecovering_meets.post fun _ _ _ => trivial).discard
  | save moment value saved ready => exact save_meets saved ready

variable (codec path) in
/-- Neither the document nor its backup can be read. -/
def BothUnreadable (folder : Folder) : Prop :=
  folder path.fileName ≠ none ∧
    (∀ r, readValidated codec path (folder path.fileName) ≠ .ok r) ∧
    ∀ r, readValidated codec path.backup (folder path.backup.fileName) ≠ .ok r

theorem not_bothUnreadable {folder : Folder} {value : T}
    (h : folder.loadable codec path = some value) : ¬ BothUnreadable codec path folder := by
  rintro ⟨present, primary, backup⟩
  unfold Folder.loadable loadable at h
  split at h
  next missing => exact present missing
  next item found =>
    split at h
    next readable => exact primary _ (found ▸ readable)
    next =>
      split at h
      next fallback _ => exact backup _ fallback
      next => cases h

/-- **What was there to load survives.** From a document that loads as `v`,
after any sequence of loads and saves, each killed anywhere or completed, an
undisturbed load yields `v` or the value of one of the saves, as long as no
save starts on a document that cannot be read. -/
theorem load_after_kills (lawful : codec.Lawful) {start t : Folder} {first : Moment}
    {loaded : JsonLoad T} {c : Config FileOp Folder String String}
    (begins : (loadJsonRecovering codec path first).exec device start = (.ok loaded, t))
    (run : Run device (StoreEntry codec path S (Ready codec path)) (fun _ => True)
      (start, none) c) :
    ¬ BothUnreadable codec path c.1 ∧
      ∃ w, (w = loaded.value ∨ S w) ∧ ∀ later, Fresh path later c.1 → ∃ status u,
        (loadJsonRecovering codec path later).exec device c.1 =
          (.ok { value := w, status }, u) := by
  have there : start.loadable codec path = some loaded.value := by
    have meets : (loadJsonRecovering codec path first).Meets device (Move codec path S) _ start :=
      loadJsonRecovering_meets
    have yields := meets.exec
    rw [begins] at yields
    exact yields loaded rfl
  have survives : ∃ w, (w = loaded.value ∨ S w) ∧ c.1.loadable codec path = some w :=
    Run.invariant (I := fun folder => ∃ w, (w = loaded.value ∨ S w) ∧
      folder.loadable codec path = some w) (fun _ _ entry => entry.meets)
      (fun _ _ _ move before => loadable_move lawful move before) (bounded_idle start) run
      ⟨_, .inl rfl, there⟩
  obtain ⟨w, source, there'⟩ := survives
  exact ⟨not_bothUnreadable there', w, source, fun _ fresh => loadJsonRecovering_exec fresh there'⟩

end Moves

/-! ## A sample document -/

/-- A document that is one truth value. -/
def sampleCodec : Codec Bool String where
  parse text := if text = "true" ∨ text = "false" then .ok text else .error "expected value"
  fromValue text := .ok (text == "true")
  toValue value := .ok (toString value)
  toStringPretty value := .ok (toString value)
  validate _ := .ok ()
  default := false

theorem sampleCodec_lawful : sampleCodec.Lawful where
  roundTrip value json printed := by
    cases printed
    cases value <;> exact ⟨_, rfl, rfl, rfl⟩

def settingsPath : StorePath := { directory := "/data", fileName := "settings.json" }

def settingsFolder (primary backup : Option Item) : Folder :=
  Folder.put (Folder.put (fun _ => none) "settings.json" primary) "settings.json.bak" backup

/-- A save that is killed after the write of its temporary. -/
theorem load_after_kills_saved :
    ∃ c : Folder, ∃ w, (w = false ∨ w = true) ∧ ∃ status u,
      (loadJsonRecovering sampleCodec settingsPath ⟨8, 0, 2⟩).exec device c =
        (.ok { value := w, status }, u) := by
  have run : ∃ t, Run device (StoreEntry sampleCodec settingsPath (· = true)
      (Ready sampleCodec settingsPath)) (fun _ => True)
      (settingsFolder (some (.file (.text "false"))) none, none) (t, none) ∧
      Fresh settingsPath ⟨8, 0, 2⟩ t := by
    refine ⟨_, .tail (.tail (.tail (.tail (.tail .refl
      ⟨trivial, .start (.save ⟨7, 0, 1⟩ true rfl fun _ => .inr ⟨_, rfl⟩)⟩)
      ⟨trivial, .done⟩) ⟨trivial, .done⟩) ⟨trivial, .done⟩) ⟨trivial, .stop⟩, ?_⟩
    exact ⟨rfl, rfl, by decide⟩
  obtain ⟨t, run, fresh⟩ := run
  have begins : (loadJsonRecovering sampleCodec settingsPath ⟨6, 0, 0⟩).exec device
      (settingsFolder (some (.file (.text "false"))) none) =
        (.ok { value := false, status := .unchanged },
          settingsFolder (some (.file (.text "false"))) none) := rfl
  obtain ⟨_, w, source, loads⟩ := load_after_kills sampleCodec_lawful begins run
  exact ⟨t, w, source, loads _ fresh⟩

/-- The recovering load of an earlier process is due, but a save comes first: it
copies the damaged document over the only good version, and is killed. -/
theorem save_loses_backup :
    ∃ t : Folder,
      ((loadJsonRecovering sampleCodec settingsPath ⟨6, 0, 0⟩).exec device
        (settingsFolder (some (.file (.text "\x7b"))) (some (.file (.text "false"))))).1 =
          .ok { value := false, status := .recovered } ∧
      Run device (StoreEntry sampleCodec settingsPath (· = true) fun _ => True) (fun _ => True)
        (settingsFolder (some (.file (.text "\x7b"))) (some (.file (.text "false"))), none)
        (t, none) ∧
      BothUnreadable sampleCodec settingsPath t ∧
      ∀ later, ∃ e, (loadJsonRecovering sampleCodec settingsPath later).exec device t =
        (.error e, t) := by
  refine ⟨_, rfl, .tail (.tail (.tail (.tail (.tail (.tail (.tail (.tail .refl
    ⟨trivial, .start (.save ⟨7, 0, 1⟩ true rfl fun _ => trivial)⟩)
    ⟨trivial, .done⟩) ⟨trivial, .done⟩) ⟨trivial, .done⟩) ⟨trivial, .done⟩) ⟨trivial, .look⟩)
    ⟨trivial, .done⟩) ⟨trivial, .stop⟩, ?_, ?_⟩
  · refine ⟨by decide, ?_, ?_⟩
    · intro r h
      cases h
    · intro r h
      cases h
  · exact fun later => ⟨_, rfl⟩

end RoLauncher.Store
