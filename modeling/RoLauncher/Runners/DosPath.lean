import Mathlib.Data.List.Sort
import RoLauncher.Results.Except
import RoLauncher.Session.Environment

/-!
# DOS paths of executables (`utils/runner.rs`)

Proton is given the DOS path of an executable. A DOS path is checked against the
drive it names; the file that a Unix path leads to is written below the deepest
drive that contains it. The drives are the links in the prefix's `dosdevices`.
-/

namespace RoLauncher.Runners

open Files Files.FileSystem
open Session (pathOf errnoText)

/-- A file system, the names in its directories, and which of all names are text. -/
structure Disk where
  fs : FileSystem
  names : Place → List String
  listed : ∀ place name, name ∈ names place ↔ (fs.find (place ++ [name])).isSome = true
  isText : String → Bool
  ascii : ∀ name : String, (∀ c ∈ name.toList, c.toNat < 128) → isText name = true

/-! ## Drives -/

def mappingAt (prefixPath : List String) (drive : Char) : List String :=
  prefixPath ++ ["dosdevices", String.ofList [drive, ':']]

def protonDriveRoot (disk : Disk) (prefixPath : List String) (drive : Char) : Except String Place :=
  match lstat disk.fs (mappingAt prefixPath drive) with
  | .error _ => .error "La unidad DOS no es un enlace Wine existente"
  | .ok place =>
    match disk.fs.find place with
    | some (.link _) =>
      match realpath disk.fs (mappingAt prefixPath drive) with
      | .error e => .error ("La unidad Wine no se puede resolver: " ++ errnoText e)
      | .ok root =>
        if disk.fs.isDir root then .ok root else .error "La unidad Wine no apunta a un directorio"
    | _ => .error "La unidad DOS no es un enlace Wine existente"

def canonicalExecutable (disk : Disk) (path : List String) : Except String Place :=
  match realpath disk.fs path with
  | .error e => .error ("No se pudo resolver el ejecutable de Proton: " ++ errnoText e)
  | .ok place =>
    if disk.fs.find place = some .file then .ok place
    else .error "El ejecutable de Proton no es un archivo"

/-! ## Components -/

def isSeparator (c : Char) : Bool := c = '\\' || c = '/'

def isForbidden (c : Char) : Bool := c < ' ' || ['\\', '/', ':', '"', '<', '>', '|', '?', '*'].contains c

def validateDosComponent (component : List Char) : Except String Unit :=
  if component = [] ∨ component = ['.'] ∨ component = ['.', '.'] ∨ component.getLast? = some '.' ∨
      component.getLast? = some ' ' ∨ component.any isForbidden then
    .error "La ruta del ejecutable no se puede representar inequívocamente en DOS"
  else .ok ()

def dosText (drive : Char) (components : List (List Char)) : String :=
  String.ofList (drive.toUpper :: ':' :: '\\' :: List.intercalate ['\\'] components)

/-- The letter of a DOS path and what follows its colon: the second byte is a colon. -/
def dosForm (path : List Char) : Option (Char × List Char) :=
  match path with
  | letter :: ':' :: rest => if letter.toNat < 128 then some (letter, rest) else none
  | _ => none

/-! ## Paths -/

section Paths

variable (disk : Disk) (prefixPath : List String)

/-- A DOS path is checked on its own drive. -/
def fromDos (letter : Char) (rest : List Char) : Except String String :=
  if !letter.isAlpha || !(rest.head?.any isSeparator) then
    .error "El ejecutable DOS debe incluir una unidad y una ruta absoluta"
  else do
    let drive := letter.toLower
    let components := (rest.drop 1).splitOnP isSeparator
    components.forM validateDosComponent
    let root ← protonDriveRoot disk prefixPath drive
    let canonical ← canonicalExecutable disk (root ++ components.map String.ofList)
    if root <+: canonical then .ok (dosText drive components)
    else .error "La ruta DOS sale de su unidad mediante un enlace simbólico"

/-- The drive of an entry of `dosdevices`, if it contains the file. -/
def candidate (canonical : Place) (name : String) : Option (Place × Char) :=
  if !disk.isText name then none
  else
    match name.toList with
    | [letter, ':'] =>
      if !letter.isLower then none
      else
        match protonDriveRoot disk prefixPath letter with
        | .error _ => none
        | .ok root => if root <+: canonical then some (root, letter) else none
    | _ => none

/-- The deepest mapping first; equal mappings by their letters. -/
def prefers (left right : Place × Char) : Bool :=
  decide (right.1.length < left.1.length) || (left.1.length = right.1.length && decide (left.2 ≤ right.2))

def readDosdevices : Except String (List String) :=
  match realpath disk.fs (prefixPath ++ ["dosdevices"]) with
  | .error e => .error ("No se pudieron leer las unidades Wine del prefix: " ++ errnoText e)
  | .ok place =>
    if disk.fs.isDir place then .ok (disk.names place)
    else .error ("No se pudieron leer las unidades Wine del prefix: " ++ errnoText .notDirectory)

def textOf (name : String) : Except String (List Char) :=
  if disk.isText name then do
    validateDosComponent name.toList
    return name.toList
  else .error "El ejecutable de Proton no tiene una ruta UTF-8"

/-- A Unix path is written below the deepest drive that contains its file. -/
def fromUnix (exePath : String) : Except String String :=
  let executable := pathOf exePath
  if !executable.absolute then .error "El ejecutable de Proton debe ser una ruta absoluta"
  else do
    let canonical ← canonicalExecutable disk executable.segments
    let names ← readDosdevices disk prefixPath
    let candidates := (names.filterMap (candidate disk prefixPath canonical)).mergeSort prefers
    match candidates.head? with
    | none => .error "Ninguna unidad Wine existente contiene el ejecutable de Proton"
    | some (root, drive) =>
      let relative := canonical.drop root.length
      let components ← relative.mapM (textOf disk)
      let currentRoot ← protonDriveRoot disk prefixPath drive
      if currentRoot ≠ root then .error "La ruta DOS no corresponde al mismo ejecutable de Proton"
      else
        let again ← canonicalExecutable disk (currentRoot ++ relative)
        if again ≠ canonical then .error "La ruta DOS no corresponde al mismo ejecutable de Proton"
        else .ok (dosText drive components)

end Paths

def protonExecutableDosPath (disk : Disk) (prefixPath exePath : String) : Except String String :=
  let prefixAt := pathOf prefixPath
  if !prefixAt.absolute || exePath.toList.contains '\u0000' then
    .error "El prefix y el ejecutable requieren rutas absolutas válidas"
  else
    match dosForm exePath.toList with
    | some (letter, rest) => fromDos disk prefixAt.segments letter rest
    | none => fromUnix disk prefixAt.segments exePath

/-! ## Letters -/

section Letters

variable {c : Char}

def lowerLetters : List Char := (List.range 26).map fun i => Char.ofNat (97 + i)

def letters : List Char := lowerLetters ++ (List.range 26).map fun i => Char.ofNat (65 + i)

theorem mem_of_toNat {start : Nat} (low : start ≤ c.toNat) (high : c.toNat < start + 26) :
    c ∈ (List.range 26).map fun i => Char.ofNat (start + i) := by
  rw [List.mem_map]
  refine ⟨c.toNat - start, List.mem_range.mpr (by omega), ?_⟩
  rw [Nat.add_sub_cancel' low, Char.ofNat_toNat]

theorem mem_lowerLetters (lower : c.isLower = true) : c ∈ lowerLetters := by
  change (decide (c.val ≥ 'a'.val) && decide (c.val ≤ 'z'.val)) = true at lower
  have bounds : 97 ≤ c.toNat ∧ c.toNat ≤ 122 := by simpa [UInt32.le_iff_toNat_le] using lower
  exact mem_of_toNat bounds.1 (by omega)

theorem mem_letters (alpha : c.isAlpha = true) : c ∈ letters := by
  change (c.isUpper || c.isLower) = true at alpha
  rw [Bool.or_eq_true] at alpha
  rcases alpha with upper | lower
  · change decide (c.val ≥ 'A'.val ∧ c.val ≤ 'Z'.val) = true at upper
    have bounds : 65 ≤ c.toNat ∧ c.toNat ≤ 90 := by simpa [UInt32.le_iff_toNat_le] using upper
    exact List.mem_append_right _ (mem_of_toNat bounds.1 (by omega))
  · exact List.mem_append_left _ (mem_lowerLetters lower)

theorem lower_toLower (alpha : c.isAlpha = true) : c.toLower.isLower = true := by
  have all : (letters.all fun c => c.toLower.isLower) = true := by decide
  exact List.all_eq_true.mp all c (mem_letters alpha)

theorem upper_toLower (alpha : c.isAlpha = true) : c.toLower.toUpper = c.toUpper := by
  have all : (letters.all fun c => c.toLower.toUpper == c.toUpper) = true := by decide
  exact beq_iff_eq.mp (List.all_eq_true.mp all c (mem_letters alpha))

/-- A drive is found again under its uppercase letter. -/
theorem upper_letter (lower : c.isLower = true) :
    c.toUpper.toLower = c ∧ c.toUpper.isAlpha = true ∧ c.toUpper.toNat < 128 ∧ c.toNat < 128 := by
  have all : (lowerLetters.all fun c =>
      c.toUpper.toLower = c && c.toUpper.isAlpha && decide (c.toUpper.toNat < 128) && decide (c.toNat < 128)) =
        true := by decide
  have here := List.all_eq_true.mp all c (mem_lowerLetters lower)
  simpa [and_assoc] using here

end Letters

/-! ## What is done at a success -/

section Success

variable {disk : Disk} {prefixPath path : List String} {drive letter : Char} {root place : Place}
  {rest : List Char} {dos : String}

theorem protonDriveRoot_ok : protonDriveRoot disk prefixPath drive = .ok root ↔
    ∃ place target, lstat disk.fs (mappingAt prefixPath drive) = .ok place ∧
      disk.fs.find place = some (.link target) ∧ realpath disk.fs (mappingAt prefixPath drive) = .ok root ∧
        disk.fs.isDir root = true := by
  unfold protonDriveRoot
  constructor
  · intro done
    split at done
    next => cases done
    next place named =>
      split at done
      next target link =>
        split at done
        next => cases done
        next root' reached =>
          split at done
          next dir =>
            cases done
            exact ⟨place, target, named, link, reached, dir⟩
          next => cases done
      next => cases done
  · rintro ⟨place, target, named, link, reached, dir⟩
    rw [named]
    dsimp only
    rw [link]
    dsimp only
    rw [reached]
    exact if_pos dir

theorem canonicalExecutable_ok : canonicalExecutable disk path = .ok place ↔
    realpath disk.fs path = .ok place ∧ disk.fs.find place = some .file := by
  unfold canonicalExecutable
  cases realpath disk.fs path with
  | error e =>
    constructor
    · intro never
      cases never
    · rintro ⟨never, -⟩
      cases never
  | ok place' =>
    dsimp only
    constructor
    · intro done
      split at done
      next file =>
        cases done
        exact ⟨rfl, file⟩
      next => cases done
    · rintro ⟨same, file⟩
      cases same
      exact if_pos file

/-- What a DOS path names on a drive: the file that is reached through the drive's mapping, below its
root. -/
structure OnDrive (disk : Disk) (prefixPath : List String) (drive : Char) (components : List (List Char))
    (root place : Place) : Prop where
  mapping : protonDriveRoot disk prefixPath drive = .ok root
  reached : canonicalExecutable disk (root ++ components.map String.ofList) = .ok place
  inside : root <+: place

def Representable (component : List Char) : Prop := validateDosComponent component = .ok ()

theorem fromDos_ok : fromDos disk prefixPath letter rest = .ok dos ↔
    letter.isAlpha = true ∧ rest.head?.any isSeparator = true ∧
      (∀ component ∈ (rest.drop 1).splitOnP isSeparator, Representable component) ∧
      ∃ root place, OnDrive disk prefixPath letter.toLower ((rest.drop 1).splitOnP isSeparator) root place ∧
        dos = dosText letter.toLower ((rest.drop 1).splitOnP isSeparator) := by
  unfold fromDos
  constructor
  · intro done
    split at done
    next => cases done
    next form =>
      simp only [Bool.or_eq_true, Bool.not_eq_true', not_or, Bool.not_eq_false] at form
      obtain ⟨_, valid, done⟩ := Results.ok_of_bind.mp done
      obtain ⟨root, mapping, done⟩ := Results.ok_of_bind.mp done
      obtain ⟨place, reached, done⟩ := Results.ok_of_bind.mp done
      split at done
      next inside =>
        cases done
        exact ⟨form.1, form.2, Results.forM_eq_ok.mp valid, root, place, ⟨mapping, reached, inside⟩, rfl⟩
      next => cases done
  · rintro ⟨alpha, separator, valid, root, place, on, rfl⟩
    rw [if_neg (by simp [alpha, separator])]
    refine Results.ok_of_bind.mpr ⟨(), Results.forM_eq_ok.mpr valid, ?_⟩
    refine Results.ok_of_bind.mpr ⟨root, on.mapping, ?_⟩
    refine Results.ok_of_bind.mpr ⟨place, on.reached, ?_⟩
    exact if_pos on.inside

theorem candidate_some {canonical : Place} {name : String} :
    candidate disk prefixPath canonical name = some (root, drive) ↔
      name = String.ofList [drive, ':'] ∧ drive.isLower = true ∧
        protonDriveRoot disk prefixPath drive = .ok root ∧ root <+: canonical := by
  unfold candidate
  constructor
  · intro done
    split at done
    next => cases done
    next =>
      split at done
      next letter same =>
        split at done
        next => cases done
        next lower =>
          split at done
          next => cases done
          next root' mapping =>
            split at done
            next inside =>
              cases done
              refine ⟨?_, by simpa using lower, mapping, inside⟩
              rw [← same, String.ofList_toList]
            next => cases done
      next => cases done
  · rintro ⟨rfl, lower, mapping, inside⟩
    have text : disk.isText (String.ofList [drive, ':']) = true := by
      apply disk.ascii
      intro c mem
      rw [String.toList_ofList] at mem
      simp only [List.mem_cons, List.not_mem_nil, or_false] at mem
      rcases mem with rfl | rfl
      · exact (upper_letter lower).2.2.2
      · decide
    rw [text, String.toList_ofList]
    simp [lower, mapping, inside]

theorem textOf_ok {name : String} {component : List Char} (h : textOf disk name = .ok component) :
    component = name.toList ∧ Representable component := by
  unfold textOf at h
  split at h
  next =>
    obtain ⟨_, valid, same⟩ := Results.ok_of_bind.mp h
    cases same
    exact ⟨rfl, valid⟩
  next => cases h

/-- A drive that can be used is listed in `dosdevices`. -/
theorem mapping_listed (mapping : protonDriveRoot disk prefixPath drive = .ok root) :
    ∃ names, readDosdevices disk prefixPath = .ok names ∧ String.ofList [drive, ':'] ∈ names := by
  obtain ⟨place, target, named, link, -, -⟩ := protonDriveRoot_ok.mp mapping
  obtain ⟨front, name, above, left, split, -, walked, dir, rfl⟩ := lstat_link named link
  have whole : (prefixPath ++ ["dosdevices"]) ++ [String.ofList [drive, ':']] = front ++ [name] := by
    rw [← split, mappingAt, List.append_assoc]
    rfl
  obtain ⟨rfl, same⟩ := List.append_inj' whole rfl
  cases same
  refine ⟨disk.names above, ?_, ?_⟩
  · rw [readDosdevices, realpath_ok.mpr ⟨left, walked⟩]
    exact if_pos dir
  · rw [disk.listed, link]
    rfl

theorem prefers_trans (a b c : Place × Char) (first : prefers a b = true) (second : prefers b c = true) :
    prefers a c = true := by
  simp only [prefers, Bool.or_eq_true, Bool.and_eq_true, decide_eq_true_eq] at first second ⊢
  rcases first with deeper | ⟨same, le⟩
  · omega
  · rcases second with deeper | ⟨same', le'⟩
    · omega
    · exact .inr ⟨same.trans same', Char.le_trans le le'⟩

theorem prefers_total (a b : Place × Char) : (prefers a b || prefers b a) = true := by
  simp only [prefers, Bool.or_eq_true, Bool.and_eq_true, decide_eq_true_eq]
  rcases Nat.lt_trichotomy a.1.length b.1.length with lt | same | lt
  · omega
  · rcases Char.le_total a.2 b.2 with le | le
    · exact .inl (.inr ⟨same, le⟩)
    · exact .inr (.inr ⟨same.symm, le⟩)
  · omega

/-- The first candidate is preferred to every other. -/
theorem first_preferred {candidates : List (Place × Char)} {first : Place × Char}
    (h : (candidates.mergeSort prefers).head? = some first) :
    first ∈ candidates ∧ ∀ other ∈ candidates, other = first ∨ prefers first other = true := by
  have ordered := List.pairwise_mergeSort prefers_trans prefers_total candidates
  have mem (x : Place × Char) : x ∈ candidates.mergeSort prefers ↔ x ∈ candidates := List.mem_mergeSort
  cases sorted : candidates.mergeSort prefers with
  | nil =>
    rw [sorted] at h
    cases h
  | cons x rest =>
    rw [sorted] at h ordered mem
    cases h
    refine ⟨(mem first).mp List.mem_cons_self, ?_⟩
    intro other here
    rcases List.mem_cons.mp ((mem other).mpr here) with same | later
    · exact .inl same
    · exact .inr ((List.pairwise_cons.mp ordered).1 other later)

theorem texts_of_relative {relative : List String} {components : List (List Char)}
    (h : List.Forall₂ (fun name component => textOf disk name = .ok component) relative components) :
    components.map String.ofList = relative ∧ ∀ component ∈ components, Representable component := by
  induction h with
  | nil => exact ⟨rfl, fun component never => by cases never⟩
  | cons here _ ih =>
    obtain ⟨rfl, valid⟩ := textOf_ok here
    refine ⟨?_, ?_⟩
    · rw [List.map_cons, ih.1, String.ofList_toList]
    · rw [List.forall_mem_cons]
      exact ⟨valid, ih.2⟩

/-- No drive that contains the file is deeper, and none of the same depth comes before. -/
def Deepest (disk : Disk) (prefixPath : List String) (drive : Char) (root place : Place) : Prop :=
  ∀ drive' root', drive'.isLower = true → protonDriveRoot disk prefixPath drive' = .ok root' →
    root' <+: place → root'.length < root.length ∨ root'.length = root.length ∧ drive ≤ drive'

theorem fromUnix_ok {exePath : String} (h : fromUnix disk prefixPath exePath = .ok dos) :
    ∃ drive root place components, canonicalExecutable disk (pathOf exePath).segments = .ok place ∧
      drive.isLower = true ∧ OnDrive disk prefixPath drive components root place ∧
      (∀ component ∈ components, Representable component) ∧ components ≠ [] ∧
      Deepest disk prefixPath drive root place ∧ dos = dosText drive components := by
  unfold fromUnix at h
  dsimp only at h
  split at h
  next => cases h
  next =>
    obtain ⟨place, canonical, h⟩ := Results.ok_of_bind.mp h
    obtain ⟨names, listing, h⟩ := Results.ok_of_bind.mp h
    split at h
    next => cases h
    next root drive first =>
      obtain ⟨components, texts, h⟩ := Results.ok_of_bind.mp h
      obtain ⟨currentRoot, mapping, h⟩ := Results.ok_of_bind.mp h
      split at h
      next => cases h
      next same =>
        obtain ⟨again, reached, h⟩ := Results.ok_of_bind.mp h
        split at h
        next => cases h
        next same' =>
          cases h
          rw [Decidable.not_not] at same same'
          subst same same'
          obtain ⟨mem, preferred⟩ := first_preferred first
          obtain ⟨_, -, chosen⟩ := List.mem_filterMap.mp mem
          obtain ⟨-, lower, -, inside⟩ := candidate_some.mp chosen
          obtain ⟨relative, valid⟩ := texts_of_relative (Results.mapM_ok.mp texts)
          refine ⟨drive, currentRoot, again, components, canonical, lower, ⟨mapping, ?_, inside⟩, valid, ?_, ?_, rfl⟩
          · rw [relative]
            exact reached
          · rintro rfl
            obtain ⟨tail, rfl⟩ := inside
            rw [List.drop_left] at relative
            have none : tail = [] := relative.symm
            rw [none, List.append_nil] at canonical
            have file := (canonicalExecutable_ok.mp canonical).2
            obtain ⟨-, -, -, -, -, dir⟩ := protonDriveRoot_ok.mp mapping
            rw [isDir, file] at dir
            exact absurd dir (by decide)
          · intro drive' root' lower' mapping' inside'
            obtain ⟨names', listing', listed⟩ := mapping_listed mapping'
            rw [listing] at listing'
            cases listing'
            have other : (root', drive') ∈ names.filterMap (candidate disk prefixPath again) :=
              List.mem_filterMap.mpr ⟨_, listed, candidate_some.mpr ⟨rfl, lower', mapping', inside'⟩⟩
            rcases preferred _ other with same | better
            · cases same
              exact .inr ⟨rfl, Char.le_refl _⟩
            · simp only [prefers, Bool.or_eq_true, Bool.and_eq_true, decide_eq_true_eq] at better
              rcases better with deeper | ⟨same, le⟩
              · exact .inl deeper
              · exact .inr ⟨same.symm, le⟩

/-! ## The result again -/

theorem not_forbidden {component : List Char} (valid : Representable component) :
    ∀ c ∈ component, isForbidden c = false := by
  intro c mem
  unfold Representable validateDosComponent at valid
  split at valid
  next => cases valid
  next fine =>
    simp only [not_or, Bool.not_eq_true, List.any_eq_false] at fine
    exact fine.2.2.2.2.2 c mem

theorem not_separator {component : List Char} (valid : Representable component) :
    ∀ c ∈ component, isSeparator c = false := by
  intro c mem
  have allowed := not_forbidden valid c mem
  cases separator : isSeparator c with
  | false => rfl
  | true =>
    rw [isSeparator, Bool.or_eq_true, decide_eq_true_eq, decide_eq_true_eq] at separator
    rw [← allowed]
    rcases separator with rfl | rfl
    · decide
    · decide

/-- Components that hold no separator are found again. -/
theorem split_join {components : List (List Char)} (some : components ≠ [])
    (valid : ∀ component ∈ components, Representable component) :
    (List.intercalate ['\\'] components).splitOnP isSeparator = components := by
  induction components with
  | nil => exact absurd rfl some
  | cons first rest ih =>
    have plain := not_separator (valid first List.mem_cons_self)
    cases rest with
    | nil =>
      rw [List.intercalate_singleton]
      exact List.splitOnP_eq_singleton plain
    | cons second rest =>
      rw [List.intercalate_cons_cons, List.append_assoc, List.singleton_append,
        List.splitOnP_append_cons_of_forall_mem plain '\\' (by decide),
        ih (List.cons_ne_nil _ _) fun component mem => valid component (List.mem_cons_of_mem _ mem)]

end Success

section Again

variable {disk : Disk} {prefixPath exePath dos : String} {letter drive : Char} {rest : List Char}
  {components : List (List Char)} {root place : Place}

/-- What a DOS path leads to through the mapping of its drive. -/
def Resolves (disk : Disk) (prefixPath dos : String) (root place : Place) : Prop :=
  ∃ letter rest, dosForm dos.toList = some (letter, rest) ∧
    protonDriveRoot disk (pathOf prefixPath).segments letter.toLower = .ok root ∧
    realpath disk.fs (root ++ ((rest.drop 1).splitOnP isSeparator).map String.ofList) = .ok place

theorem dosForm_dosText (lower : drive.isLower = true) :
    dosForm (dosText drive components).toList = some (drive.toUpper, '\\' :: List.intercalate ['\\'] components) := by
  rw [dosText, String.toList_ofList, dosForm]
  exact if_pos (upper_letter lower).2.2.1

theorem split_dosText (valid : ∀ component ∈ components, Representable component) (some : components ≠ []) :
    (('\\' :: List.intercalate ['\\'] components).drop 1).splitOnP isSeparator = components :=
  split_join some valid

theorem not_nul {component : List Char} (valid : Representable component) : '\u0000' ∉ component := by
  intro mem
  have allowed := not_forbidden valid _ mem
  exact absurd allowed (by decide)

theorem dosText_not_nul (lower : drive.isLower = true)
    (valid : ∀ component ∈ components, Representable component) :
    (dosText drive components).toList.contains '\u0000' = false := by
  have joined : '\u0000' ∉ List.intercalate ['\\'] components := by
    clear lower
    induction components with
    | nil => exact List.not_mem_nil
    | cons first rest ih =>
      rw [List.forall_mem_cons] at valid
      cases rest with
      | nil =>
        rw [List.intercalate_singleton]
        exact not_nul valid.1
      | cons second rest =>
        rw [List.intercalate_cons_cons, List.mem_append, List.mem_append, not_or, not_or]
        exact ⟨⟨not_nul valid.1, by decide⟩, ih valid.2⟩
  have letter : '\u0000' ≠ drive.toUpper := by
    intro same
    have alpha := (upper_letter lower).2.1
    rw [← same] at alpha
    exact absurd alpha (by decide)
  rw [dosText, String.toList_ofList]
  simp [letter, joined]

/-- A file below a drive: what is written of it leads to it, and is written again. -/
theorem written_again (absolute : (pathOf prefixPath).absolute = true) (lower : drive.isLower = true)
    (valid : ∀ component ∈ components, Representable component) (some : components ≠ [])
    (on : OnDrive disk (pathOf prefixPath).segments drive components root place) :
    Resolves disk prefixPath (dosText drive components) root place ∧
      protonExecutableDosPath disk prefixPath (dosText drive components) = .ok (dosText drive components) := by
  have form : dosForm (dosText drive components).toList = _ := dosForm_dosText lower
  obtain ⟨same, alpha, -, -⟩ := upper_letter lower
  have back := split_dosText valid some
  constructor
  · refine ⟨_, _, form, ?_, ?_⟩
    · rw [same]
      exact on.mapping
    · rw [back]
      exact (canonicalExecutable_ok.mp on.reached).1
  · unfold protonExecutableDosPath
    dsimp only
    rw [absolute, dosText_not_nul lower valid, form]
    dsimp only
    rw [if_neg (by decide), fromDos_ok, back, same]
    exact ⟨alpha, rfl, valid, root, place, on, rfl⟩

end Again

/-- A DOS path that is given for an executable leads through its drive to the file that was asked for,
below the root of the drive, and is given for itself. A DOS path keeps its letter; a Unix path is
written on the deepest drive. -/
theorem dos_path_faithful {disk : Disk} {prefixPath exePath dos : String}
    (h : protonExecutableDosPath disk prefixPath exePath = .ok dos) :
    ∃ root place, Resolves disk prefixPath dos root place ∧ root <+: place ∧
      disk.fs.find place = some .file ∧
      (∀ letter rest, dosForm exePath.toList = some (letter, rest) →
        Resolves disk prefixPath exePath root place ∧
          ∃ rest', dosForm dos.toList = some (letter.toUpper, rest')) ∧
      (dosForm exePath.toList = none →
        realpath disk.fs (pathOf exePath).segments = .ok place ∧
          ∃ drive rest', dosForm dos.toList = some (drive.toUpper, rest') ∧ drive.isLower = true ∧
            protonDriveRoot disk (pathOf prefixPath).segments drive = .ok root ∧
            Deepest disk (pathOf prefixPath).segments drive root place) ∧
      protonExecutableDosPath disk prefixPath dos = .ok dos := by
  unfold protonExecutableDosPath at h
  dsimp only at h
  split at h
  next => cases h
  next given =>
    simp only [Bool.or_eq_true, Bool.not_eq_true', not_or, Bool.not_eq_false] at given
    have absolute := given.1
    split at h
    next letter rest form =>
      obtain ⟨alpha, separator, valid, root, place, on, rfl⟩ := fromDos_ok.mp h
      have lower := lower_toLower alpha
      obtain ⟨written, again⟩ := written_again absolute lower valid (List.splitOnP_ne_nil _ _) on
      refine ⟨root, place, written, on.inside, (canonicalExecutable_ok.mp on.reached).2, ?_, ?_, again⟩
      · intro letter' rest' form'
        rw [form] at form'
        cases form'
        refine ⟨⟨letter, rest, form, on.mapping, (canonicalExecutable_ok.mp on.reached).1⟩, ?_⟩
        rw [← upper_toLower alpha]
        exact ⟨_, dosForm_dosText lower⟩
      · intro never
        rw [form] at never
        cases never
    next form =>
      obtain ⟨drive, root, place, components, canonical, lower, on, valid, some, deepest, rfl⟩ := fromUnix_ok h
      obtain ⟨written, again⟩ := written_again absolute lower valid some on
      obtain ⟨reached, file⟩ := canonicalExecutable_ok.mp canonical
      refine ⟨root, place, written, on.inside, file, ?_, ?_, again⟩
      · intro letter rest form'
        rw [form] at form'
        cases form'
      · intro _
        exact ⟨reached, drive, _, dosForm_dosText lower, lower, on.mapping, deepest⟩

/-! ## A prefix with one drive -/

/-- The drive `z:` of the prefix `/p` is the root, where the executable is. -/
def oneDrive : List (Place × Found) :=
  [([], .directory), (["p"], .directory), (["p", "dosdevices"], .directory),
    (["p", "dosdevices", "z:"], .link ⟨true, [""]⟩), (["g.exe"], .file)]

theorem oneDrive_below {place : Place} {name : String} {found : Found}
    (there : oneDrive.lookup (place ++ [name]) = some found) :
    oneDrive.lookup place = some .directory ∧ IsName name := by
  have all : (oneDrive.tail.all fun entry =>
      oneDrive.lookup entry.1.dropLast = some .directory ∧ IsName (entry.1.getLast?.getD "")) = true := by
    decide
  obtain ⟨front, back, whole, -⟩ := List.lookup_eq_some_iff.mp there
  have mem : (place ++ [name], found) ∈ oneDrive := by
    rw [whole]
    exact List.mem_append_right _ List.mem_cons_self
  have later : (place ++ [name], found) ∈ oneDrive.tail := by
    rcases List.mem_cons.mp mem with root | later
    · simp at root
    · exact later
  simpa using List.all_eq_true.mp all _ later

theorem oneDrive_listed {place : Place} {name : String} :
    (name ∈ oneDrive.filterMap fun entry =>
      if entry.1.dropLast = place then entry.1.getLast? else none) ↔
        (oneDrive.lookup (place ++ [name])).isSome = true := by
  rw [List.mem_filterMap, List.lookup_isSome_iff]
  constructor
  · rintro ⟨entry, mem, last⟩
    split at last
    next above =>
      obtain ⟨front, whole⟩ := List.getLast?_eq_some_iff.mp last
      rw [whole, List.dropLast_concat] at above
      exact ⟨entry, mem, by simp [whole, above]⟩
    next => cases last
  · rintro ⟨entry, mem, same⟩
    rw [beq_iff_eq] at same
    refine ⟨entry, mem, ?_⟩
    rw [← same, List.dropLast_concat, if_pos rfl, List.getLast?_concat]

def oneDriveDisk : Disk where
  fs :=
    { find := fun place => oneDrive.lookup place
      root := rfl
      below := fun _ _ _ there => oneDrive_below there }
  names place := oneDrive.filterMap fun entry =>
    if entry.1.dropLast = place then entry.1.getLast? else none
  listed _ _ := oneDrive_listed
  isText _ := true
  ascii _ _ := rfl

theorem dos_path_of_one_drive :
    protonExecutableDosPath oneDriveDisk "/p" "/g.exe" = .ok "Z:\\g.exe" ∧
      ∃ root place, Resolves oneDriveDisk "/p" "Z:\\g.exe" root place ∧ root <+: place ∧
        oneDriveDisk.fs.find place = some .file := by
  have given : protonExecutableDosPath oneDriveDisk "/p" "/g.exe" = .ok "Z:\\g.exe" := by
    decide +kernel
  obtain ⟨root, place, resolves, inside, file, -⟩ := dos_path_faithful given
  exact ⟨given, root, place, resolves, inside, file⟩

end RoLauncher.Runners
