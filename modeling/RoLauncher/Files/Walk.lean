import Mathlib.Data.List.DropRight

/-!
# Walking a path

Directories, files and symbolic links by the place where each is, and the walk
that the system takes through a path as it is written: an empty segment or a dot
stays, two dots go up from where the walk has come to, a link is replaced by what
it says. Only so many links are followed, and the walk says how many are left.
-/

namespace RoLauncher.Files

/-- A path cut at its slashes, an absolute one behind its first slash. -/
structure Written where
  absolute : Bool
  segments : List String
  deriving DecidableEq, Repr

/-- Names from the root down. -/
abbrev Place := List String

inductive Found where
  | directory
  | file
  | link (target : Written)
  deriving DecidableEq, Repr

/-- A segment that is looked up. -/
def IsName (segment : String) : Prop := segment ≠ "" ∧ segment ≠ "." ∧ segment ≠ ".."

/-- A segment at which a walk stays. -/
def isSkip (segment : String) : Bool := segment = "" ∨ segment = "."

instance (segment : String) : Decidable (IsName segment) :=
  inferInstanceAs (Decidable (_ ∧ _ ∧ _))

theorem IsName.not_skip {segment : String} (name : IsName segment) : isSkip segment = false := by
  simp [isSkip, name.1, name.2.1]

theorem segment_cases (segment : String) :
    isSkip segment = true ∨ segment = ".." ∨ IsName segment := by
  by_cases skip : isSkip segment = true
  · exact Or.inl skip
  · by_cases up : segment = ".."
    · exact Or.inr (Or.inl up)
    · simp only [isSkip, decide_eq_true_eq, not_or] at skip
      exact Or.inr (Or.inr ⟨skip.1, skip.2, up⟩)

inductive Errno where
  | notFound
  | notDirectory
  | loop
  | alreadyExists
  deriving DecidableEq, Repr

/-- What is at each place: below a directory only, under names only. -/
structure FileSystem where
  find : Place → Option Found
  root : find [] = some .directory
  below : ∀ place name found, find (place ++ [name]) = some found →
    find place = some .directory ∧ IsName name

namespace FileSystem

def isDir (fs : FileSystem) (place : Place) : Bool := fs.find place = some .directory

section Walk

variable (fs : FileSystem) (followLast : Bool)

/-- The walk up to the next link that is followed. -/
def walkOn (links : Nat) (onLink : Place → List String → Except Errno (Place × Nat)) :
    Place → List String → Except Errno (Place × Nat)
  | here, [] => .ok (here, links)
  | here, segment :: rest =>
    if !fs.isDir here then .error .notDirectory
    else if isSkip segment then walkOn links onLink here rest
    else if segment = ".." then walkOn links onLink here.dropLast rest
    else
      match fs.find (here ++ [segment]) with
      | none => .error .notFound
      | some (.link target) =>
        if rest = [] ∧ followLast = false then .ok (here ++ [segment], links)
        else onLink (if target.absolute then [] else here) (target.segments ++ rest)
      | some _ => walkOn links onLink (here ++ [segment]) rest

/-- The walk from a place, following no more than so many links. -/
def walk : Nat → Place → List String → Except Errno (Place × Nat)
  | 0 => walkOn fs followLast 0 fun _ _ => .error .loop
  | links + 1 => walkOn fs followLast (links + 1) (walk links)

/-- What happens at a link with so many left. -/
def onward : Nat → Place → List String → Except Errno (Place × Nat)
  | 0 => fun _ _ => .error .loop
  | links + 1 => walk fs followLast links

theorem walk_eq (links : Nat) :
    walk fs followLast links = walkOn fs followLast links (onward fs followLast links) := by
  cases links <;> rfl

end Walk

/-! ## Walks put together -/

section Append

variable {fs : FileSystem} {followLast : Bool} {links : Nat} {here : Place} {segment : String}
  {rest : List String}

theorem walk_nil : walk fs followLast links here [] = .ok (here, links) := by
  rw [walk_eq]
  rfl

theorem walk_blocked (file : fs.isDir here = false) :
    walk fs followLast links here (segment :: rest) = .error .notDirectory := by
  rw [walk_eq, walkOn, if_pos (by simp [file])]

theorem walk_skip (dir : fs.isDir here = true) (skip : isSkip segment = true) :
    walk fs followLast links here (segment :: rest) = walk fs followLast links here rest := by
  rw [walk_eq, walkOn, if_neg (by simp [dir]), if_pos skip]

theorem walk_up (dir : fs.isDir here = true) :
    walk fs followLast links here (".." :: rest) = walk fs followLast links here.dropLast rest := by
  rw [walk_eq, walkOn, if_neg (by simp [dir]), if_neg (by decide), if_pos rfl]

theorem walk_missing (dir : fs.isDir here = true) (name : IsName segment)
    (missing : fs.find (here ++ [segment]) = none) :
    walk fs followLast links here (segment :: rest) = .error .notFound := by
  rw [walk_eq, walkOn, if_neg (by simp [dir]), if_neg (by simp [name.not_skip]), if_neg name.2.2,
    missing]

theorem walk_link {target : Written} (dir : fs.isDir here = true) (name : IsName segment)
    (found : fs.find (here ++ [segment]) = some (.link target))
    (followed : ¬ (rest = [] ∧ followLast = false)) :
    walk fs followLast links here (segment :: rest) =
      onward fs followLast links (if target.absolute then [] else here)
        (target.segments ++ rest) := by
  rw [walk_eq, walkOn, if_neg (by simp [dir]), if_neg (by simp [name.not_skip]), if_neg name.2.2,
    found]
  exact if_neg followed

/-- The last link of a path is not followed unless asked for. -/
theorem walk_last {target : Written} (dir : fs.isDir here = true) (name : IsName segment)
    (found : fs.find (here ++ [segment]) = some (.link target)) :
    walk fs false links here [segment] = .ok (here ++ [segment], links) := by
  rw [walk_eq, walkOn, if_neg (by simp [dir]), if_neg (by simp [name.not_skip]), if_neg name.2.2,
    found]
  exact if_pos ⟨rfl, rfl⟩

theorem walk_enter {found : Found} (dir : fs.isDir here = true) (name : IsName segment)
    (there : fs.find (here ++ [segment]) = some found) (noLink : ∀ target, found ≠ .link target) :
    walk fs followLast links here (segment :: rest) =
      walk fs followLast links (here ++ [segment]) rest := by
  rw [walk_eq, walkOn, if_neg (by simp [dir]), if_neg (by simp [name.not_skip]), if_neg name.2.2,
    there]
  cases found with
  | link target => exact absurd rfl (noLink target)
  | directory => rfl
  | file => rfl

/-- What a walk may meet at a segment: a place that is no directory, a segment
at which it stays or goes up, or a name with nothing, a link or something else
under it. -/
inductive Meets (fs : FileSystem) (here : Place) (segment : String) : Prop
  | blocked (file : fs.isDir here = false)
  | skip (dir : fs.isDir here = true) (skip : isSkip segment = true)
  | up (dir : fs.isDir here = true) (up : segment = "..")
  | missing (dir : fs.isDir here = true) (name : IsName segment)
      (missing : fs.find (here ++ [segment]) = none)
  | link (dir : fs.isDir here = true) (name : IsName segment) (target : Written)
      (found : fs.find (here ++ [segment]) = some (.link target))
  | enter (dir : fs.isDir here = true) (name : IsName segment) (found : Found)
      (there : fs.find (here ++ [segment]) = some found)
      (noLink : ∀ target, found ≠ .link target)

theorem meets (fs : FileSystem) (here : Place) (segment : String) : Meets fs here segment := by
  cases dir : fs.isDir here with
  | false => exact .blocked dir
  | true =>
    rcases segment_cases segment with skip | up | name
    · exact .skip dir skip
    · exact .up dir up
    · cases there : fs.find (here ++ [segment]) with
      | none => exact .missing dir name there
      | some found =>
        by_cases link : ∃ target, found = .link target
        · obtain ⟨target, rfl⟩ := link
          exact .link dir name target there
        · exact .enter dir name found there fun target same => link ⟨target, same⟩

theorem walk_append_of_onward {first second : List String} (nonempty : second ≠ [])
    (jump : ∀ here first, onward fs followLast links here (first ++ second) =
      onward fs true links here first >>= fun r => walk fs followLast r.2 r.1 second) :
    walk fs followLast links here (first ++ second) =
      walk fs true links here first >>= fun r => walk fs followLast r.2 r.1 second := by
  induction first generalizing here with
  | nil =>
    rw [List.nil_append, walk_nil]
    rfl
  | cons segment rest ih =>
    rw [List.cons_append]
    cases meets fs here segment with
    | blocked file =>
      rw [walk_blocked file, walk_blocked file]
      rfl
    | skip dir skip => rw [walk_skip dir skip, walk_skip dir skip, ih]
    | up dir up =>
      subst up
      rw [walk_up dir, walk_up dir, ih]
    | missing dir name missing =>
      rw [walk_missing dir name missing, walk_missing dir name missing]
      rfl
    | link dir name target found =>
      have followed : ¬ (rest ++ second = [] ∧ followLast = false) := by
        intro last
        exact nonempty (List.append_eq_nil_iff.mp last.1).2
      rw [walk_link dir name found followed, walk_link dir name found (by simp),
        ← List.append_assoc, jump]
    | enter dir name found there noLink =>
      rw [walk_enter dir name there noLink, walk_enter dir name there noLink, ih]

/-- A walk through two parts follows the last link of the first. -/
theorem walk_append {first second : List String} (nonempty : second ≠ []) :
    walk fs followLast links here (first ++ second) =
      walk fs true links here first >>= fun r => walk fs followLast r.2 r.1 second := by
  induction links generalizing here first with
  | zero => exact walk_append_of_onward nonempty fun _ _ => rfl
  | succ links ih => exact walk_append_of_onward nonempty fun _ _ => ih

theorem walk_append_ok {first second : List String} {place : Place} {left : Nat}
    (nonempty : second ≠ []) (reached : walk fs true links here first = .ok (place, left)) :
    walk fs followLast links here (first ++ second) = walk fs followLast left place second := by
  rw [walk_append nonempty, reached]
  rfl

theorem walk_append_error {first second : List String} {errno : Errno} (nonempty : second ≠ [])
    (failed : walk fs true links here first = .error errno) :
    walk fs followLast links here (first ++ second) = .error errno := by
  rw [walk_append nonempty, failed]
  rfl

/-- What a walk through the whole reaches, a walk through the first part does. -/
theorem walk_of_append {first second : List String} {r : Place × Nat}
    (reached : walk fs true links here (first ++ second) = .ok r) :
    ∃ place left, walk fs true links here first = .ok (place, left) ∧
      walk fs true left place second = .ok r := by
  by_cases nonempty : second = []
  · subst nonempty
    rw [List.append_nil] at reached
    exact ⟨r.1, r.2, reached, walk_nil⟩
  · cases walked : walk fs true links here first with
    | error errno =>
      rw [walk_append_error nonempty walked] at reached
      cases reached
    | ok middle =>
      rw [walk_append_ok nonempty walked] at reached
      exact ⟨middle.1, middle.2, rfl, reached⟩

/-! ## Plain parts -/

theorem walk_skips {skips : List String} (skip : ∀ s ∈ skips, isSkip s = true)
    (dir : fs.isDir here = true) : walk fs followLast links here skips = .ok (here, links) := by
  induction skips with
  | nil => exact walk_nil
  | cons first rest ih =>
    rw [walk_skip dir (skip first List.mem_cons_self)]
    exact ih fun s mem => skip s (List.mem_cons_of_mem _ mem)

theorem walk_skips_ok {skips : List String} {r : Place × Nat} (skip : ∀ s ∈ skips, isSkip s = true)
    (walked : walk fs followLast links here skips = .ok r) : r = (here, links) := by
  cases skips with
  | nil =>
    rw [walk_nil] at walked
    cases walked
    rfl
  | cons first rest =>
    cases dir : fs.isDir here with
    | false =>
      rw [walk_blocked dir] at walked
      cases walked
    | true =>
      rw [walk_skips skip dir] at walked
      cases walked
      rfl

/-- A directory is reached by its own names, without a link. -/
theorem walk_place {place : Place} (dir : fs.isDir place = true) :
    walk fs followLast links [] place = .ok (place, links) := by
  induction place using List.reverseRecOn generalizing followLast with
  | nil => exact walk_nil
  | append_singleton place name ih =>
    have there : fs.find (place ++ [name]) = some .directory := of_decide_eq_true dir
    obtain ⟨parent, isName⟩ := fs.below place name _ there
    have above : fs.isDir place = true := decide_eq_true parent
    rw [walk_append_ok (List.cons_ne_nil _ _) (ih above),
      walk_enter above isName there (fun _ same => by cases same), walk_nil]

end Append

/-! ## Directories that are made -/

/-- `MAXSYMLINKS`. -/
def MAXSYMLINKS : Nat := 40

/-- `realpath`: every link followed. -/
def realpath (fs : FileSystem) (segments : List String) : Except Errno Place :=
  (walk fs true MAXSYMLINKS [] segments).map Prod.fst

/-- `lstat`: what the path itself names. -/
def lstat (fs : FileSystem) (segments : List String) : Except Errno Place :=
  (walk fs false MAXSYMLINKS [] segments).map Prod.fst

/-- What is found stays, and what is new is a directory. -/
def Grows (fs fs' : FileSystem) : Prop :=
  ∀ place, fs'.find place = fs.find place ∨
    fs.find place = none ∧ fs'.find place = some .directory

section Grows

variable {fs fs' fs'' : FileSystem} {followLast : Bool} {links : Nat} {here : Place}
  {segments : List String}

theorem Grows.refl (fs : FileSystem) : Grows fs fs := fun _ => Or.inl rfl

theorem Grows.found (grows : Grows fs fs') {place : Place} {found : Found}
    (there : fs.find place = some found) : fs'.find place = some found := by
  rcases grows place with same | ⟨missing, _⟩
  · rw [same, there]
  · rw [missing] at there
    cases there

theorem Grows.isDir (grows : Grows fs fs') {place : Place} (dir : fs.isDir place = true) :
    fs'.isDir place = true :=
  decide_eq_true (grows.found (of_decide_eq_true dir))

theorem Grows.trans (first : Grows fs fs') (second : Grows fs' fs'') : Grows fs fs'' := by
  intro place
  rcases second place with same | ⟨missing, made⟩
  · rw [same]
    exact first place
  · right
    refine ⟨?_, made⟩
    cases there : fs.find place with
    | none => rfl
    | some found =>
      rw [first.found there] at missing
      cases missing

theorem Grows.walk_of_onward (grows : Grows fs fs')
    (jump : ∀ here segments r, onward fs followLast links here segments = .ok r →
      onward fs' followLast links here segments = .ok r) {r : Place × Nat}
    (reached : walk fs followLast links here segments = .ok r) :
    walk fs' followLast links here segments = .ok r := by
  induction segments generalizing here with
  | nil =>
    rw [walk_nil] at reached ⊢
    exact reached
  | cons segment rest ih =>
    cases meets fs here segment with
    | blocked file =>
      rw [walk_blocked file] at reached
      cases reached
    | skip dir skip =>
      rw [walk_skip dir skip] at reached
      rw [walk_skip (grows.isDir dir) skip, ih reached]
    | up dir up =>
      subst up
      rw [walk_up dir] at reached
      rw [walk_up (grows.isDir dir), ih reached]
    | missing dir name missing =>
      rw [walk_missing dir name missing] at reached
      cases reached
    | link dir name target found =>
      by_cases last : rest = [] ∧ followLast = false
      · obtain ⟨rfl, rfl⟩ := last
        rw [walk_last dir name found] at reached
        rw [walk_last (grows.isDir dir) name (grows.found found), reached]
      · rw [walk_link dir name found last] at reached
        rw [walk_link (grows.isDir dir) name (grows.found found) last, jump _ _ _ reached]
    | enter dir name found there noLink =>
      rw [walk_enter dir name there noLink] at reached
      rw [walk_enter (grows.isDir dir) name (grows.found there) noLink, ih reached]

/-- A walk that reaches something still does. -/
theorem Grows.walk (grows : Grows fs fs') {r : Place × Nat}
    (reached : FileSystem.walk fs followLast links here segments = .ok r) :
    FileSystem.walk fs' followLast links here segments = .ok r := by
  induction links generalizing here segments r with
  | zero => exact grows.walk_of_onward (fun _ _ _ never => by cases never) reached
  | succ links ih =>
    apply grows.walk_of_onward ?_ reached
    intro here segments r walked
    exact ih walked

end Grows

/-- The file system with one more directory. -/
def makeDir (fs : FileSystem) (parent : Place) (name : String)
    (dir : fs.find parent = some .directory) (isName : IsName name) : FileSystem where
  find place := if place = parent ++ [name] then some .directory else fs.find place
  root := by
    rw [if_neg (by simp)]
    exact fs.root
  below := by
    intro place last found there
    by_cases made : place ++ [last] = parent ++ [name]
    · obtain ⟨rfl, same⟩ := List.append_inj' made rfl
      cases same
      rw [if_neg (by simp)]
      exact ⟨dir, isName⟩
    · rw [if_neg made] at there
      obtain ⟨above, isLast⟩ := fs.below place last found there
      refine ⟨?_, isLast⟩
      split
      · rfl
      · exact above

/-- `mkdir`: slashes at the end say nothing, and the last segment is not followed. -/
def mkdir (fs : FileSystem) (segments : List String) : Except Errno FileSystem :=
  let path := segments.rdropWhile (· = "")
  match path.getLast? with
  | none => .error .alreadyExists
  | some last =>
    match realpath fs path.dropLast with
    | .error errno => .error errno
    | .ok parent =>
      if dir : fs.find parent = some .directory then
        if isName : IsName last then
          match fs.find (parent ++ [last]) with
          | some _ => .error .alreadyExists
          | none => .ok (fs.makeDir parent last dir isName)
        else .error .alreadyExists
      else .error .notDirectory

theorem mkdir_grows {fs fs' : FileSystem} {segments : List String}
    (made : mkdir fs segments = .ok fs') : Grows fs fs' := by
  simp only [mkdir] at made
  split at made
  next => cases made
  next last _ =>
    split at made
    next => cases made
    next parent _ =>
      split_ifs at made with dir isName
      split at made
      next => cases made
      next missing =>
        cases made
        intro place
        by_cases here : place = parent ++ [last]
        · subst here
          right
          exact ⟨missing, if_pos rfl⟩
        · left
          exact if_neg here

end FileSystem

/-! ## The components of a path as it is written -/

/-- What is left of a path without the segments at its end that say nothing. -/
def trimRight (segments : List String) : List String := segments.rdropWhile isSkip

inductive Component where
  | rootDir
  | parentDir
  | normal (name : String)
  deriving DecidableEq, Repr

/-- `Path::components().next_back()` of an absolute path. -/
def nextBack (segments : List String) : Component :=
  match (trimRight segments).getLast? with
  | none => .rootDir
  | some last => if last = ".." then .parentDir else .normal last

/-- `Path::parent` of an absolute path. -/
def parent (segments : List String) : Option (List String) :=
  match trimRight segments with
  | [] => none
  | first :: rest => some (trimRight (first :: rest).dropLast)

theorem parent_length {segments up : List String} (above : parent segments = some up) :
    up.length < segments.length := by
  unfold parent at above
  split at above
  next => cases above
  next first rest trimmed =>
    cases above
    have short : (first :: rest).length ≤ segments.length := by
      rw [← trimmed]
      exact (List.rdropWhile_prefix isSkip segments).length_le
    have shorter := (List.rdropWhile_prefix isSkip (first :: rest).dropLast).length_le
    rw [List.length_dropLast] at shorter
    simp only [List.length_cons] at short shorter
    unfold trimRight
    omega

/-- The names a path is made of, and its steps up. -/
def names (segments : List String) : List String := segments.filter fun s => !isSkip s

theorem names_append (first second : List String) :
    names (first ++ second) = names first ++ names second :=
  List.filter_append ..

theorem names_skips {skips : List String} (skip : ∀ s ∈ skips, isSkip s = true) :
    names skips = [] := by
  apply List.filter_eq_nil_iff.mpr
  intro s mem
  rw [skip s mem]
  decide

theorem names_cons_skip {segment : String} {rest : List String} (skip : isSkip segment = true) :
    names (segment :: rest) = names rest :=
  List.filter_cons_of_neg (by simp [skip])

theorem names_cons_name {segment : String} {rest : List String} (name : IsName segment) :
    names (segment :: rest) = segment :: names rest :=
  List.filter_cons_of_pos (by simp [name.not_skip])

theorem names_names (segments : List String) : names (names segments) = names segments := by
  simp [names]

/-- A path is what `trimRight` leaves of it and segments that say nothing. -/
theorem trimRight_append_skips (segments : List String) :
    ∃ skips, (∀ s ∈ skips, isSkip s = true) ∧ segments = trimRight segments ++ skips := by
  refine ⟨segments.rtakeWhile isSkip, ?_, (List.rdropWhile_append_rtakeWhile ..).symm⟩
  intro s mem
  exact List.mem_rtakeWhile_imp mem

theorem trimRight_trimRight (segments : List String) :
    trimRight (trimRight segments) = trimRight segments :=
  List.rdropWhile_idempotent ..

theorem trimRight_skips {skips : List String} (skip : ∀ s ∈ skips, isSkip s = true) :
    trimRight skips = [] :=
  List.rdropWhile_eq_nil_iff.mpr skip

theorem trimRight_append_of_skips {segments skips : List String}
    (skip : ∀ s ∈ skips, isSkip s = true) : trimRight (segments ++ skips) = trimRight segments := by
  induction skips using List.reverseRecOn with
  | nil => rw [List.append_nil]
  | append_singleton rest last ih =>
    rw [← List.append_assoc]
    unfold trimRight at ih ⊢
    rw [List.rdropWhile_concat_pos _ _ _ (skip last (by simp))]
    exact ih fun s mem => skip s (List.mem_append_left _ mem)

theorem trimRight_concat {segments : List String} {name : String} (isName : isSkip name = false) :
    trimRight (segments ++ [name]) = segments ++ [name] :=
  List.rdropWhile_concat_neg _ _ _ (by simp [isName])

/-- Trimming a path trims its second part, or all of it and the first. -/
theorem trimRight_append {first second : List String} (trimmed : trimRight first = first) :
    trimRight (first ++ second) = first ++ trimRight second := by
  induction second using List.reverseRecOn with
  | nil => rw [List.append_nil, trimmed, trimRight_skips (by simp), List.append_nil]
  | append_singleton rest last ih =>
    rw [← List.append_assoc]
    cases skip : isSkip last with
    | false => rw [trimRight_concat skip, trimRight_concat skip, List.append_assoc]
    | true =>
      have one : ∀ s ∈ [last], isSkip s = true := by
        intro s mem
        rw [List.mem_singleton.mp mem]
        exact skip
      rw [trimRight_append_of_skips one, trimRight_append_of_skips one, ih]

theorem names_trimRight (segments : List String) : names (trimRight segments) = names segments := by
  obtain ⟨skips, skip, split⟩ := trimRight_append_skips segments
  rw [congrArg names split, names_append, names_skips skip, List.append_nil]

theorem mem_of_mem_trimRight {segments : List String} {s : String} (mem : s ∈ trimRight segments) :
    s ∈ segments :=
  (List.rdropWhile_prefix isSkip segments).subset mem

/-- The last name of a path of plain names. -/
theorem last_name {segments : List String} (plain : ".." ∉ segments) (some : names segments ≠ []) :
    ∃ front name skips, segments = front ++ name :: skips ∧ IsName name ∧
      (∀ s ∈ skips, isSkip s = true) ∧ names segments = names front ++ [name] := by
  induction segments using List.reverseRecOn with
  | nil => exact absurd rfl some
  | append_singleton front last ih =>
    have before : ".." ∉ front := fun mem => plain (List.mem_append_left _ mem)
    rcases segment_cases last with skip | up | isName
    · have one : ∀ s ∈ [last], isSkip s = true := by
        intro s mem
        rw [List.mem_singleton.mp mem]
        exact skip
      have same : names (front ++ [last]) = names front := by
        rw [names_append, names_skips one, List.append_nil]
      rw [same] at some
      obtain ⟨first, name, skips, whole, isName, skipped, kept⟩ := ih before some
      refine ⟨first, name, skips ++ [last], ?_, isName, ?_, same.trans kept⟩
      · rw [whole, List.append_assoc, List.cons_append]
      · intro s mem
        obtain mem | mem := List.mem_append.mp mem
        · exact skipped s mem
        · exact one s mem
    · exact absurd (List.mem_append_right _ (List.mem_singleton.mpr up.symm)) plain
    · refine ⟨front, last, [], rfl, isName, by simp, ?_⟩
      rw [names_append, names_cons_name isName]
      rfl

theorem nextBack_of_name (front : List String) {skips : List String} {name : String} (isName : IsName name)
    (skip : ∀ s ∈ skips, isSkip s = true) :
    nextBack (front ++ name :: skips) = .normal name ∧
      parent (front ++ name :: skips) = some (trimRight front) := by
  have trimmed : trimRight (front ++ name :: skips) = front ++ [name] := by
    rw [← List.singleton_append, ← List.append_assoc, trimRight_append_of_skips skip,
      trimRight_concat isName.not_skip]
  constructor
  · unfold nextBack
    rw [trimmed, List.getLast?_concat]
    exact if_neg isName.2.2
  · unfold parent
    rw [trimmed]
    cases front with
    | nil => rfl
    | cons first rest =>
      rw [List.cons_append]
      simp only [← List.cons_append, List.dropLast_concat]

/-- A last component that is a name is the last segment that says something. -/
theorem nextBack_normal {segments up : List String} {name : String}
    (last : nextBack segments = .normal name) (above : parent segments = some up) :
    ∃ front skips, segments = front ++ name :: skips ∧ IsName name ∧
      (∀ s ∈ skips, isSkip s = true) ∧ up = trimRight front := by
  obtain ⟨skips, skip, split⟩ := trimRight_append_skips segments
  unfold nextBack at last
  cases ends : (trimRight segments).getLast? with
  | none =>
    rw [ends] at last
    cases last
  | some final =>
    rw [ends] at last
    obtain ⟨front, whole⟩ := List.getLast?_eq_some_iff.mp ends
    have said : isSkip final = false := by
      have twice := trimRight_trimRight segments
      rw [whole] at twice
      cases skipped : isSkip final with
      | false => rfl
      | true =>
        have one : ∀ s ∈ [final], isSkip s = true := by
          intro s mem
          rw [List.mem_singleton.mp mem]
          exact skipped
        rw [trimRight_append_of_skips one] at twice
        have shorter := (List.rdropWhile_prefix isSkip front).length_le
        have longer := congrArg List.length twice
        rw [List.length_append, List.length_singleton] at longer
        unfold trimRight at longer
        omega
    dsimp only at last
    split_ifs at last with dots
    cases last
    have isName : IsName name := by
      rcases segment_cases name with skip | up | isName
      · rw [said] at skip
        cases skip
      · exact absurd up dots
      · exact isName
    rw [whole, List.append_assoc, List.singleton_append] at split
    have ups := (nextBack_of_name front isName skip).2
    rw [← split, above] at ups
    exact ⟨front, skips, split, isName, skip, Option.some.inj ups⟩

namespace FileSystem

/-- `Path::is_dir`. -/
def pathIsDir (fs : FileSystem) (segments : List String) : Bool :=
  match realpath fs segments with
  | .ok place => fs.isDir place
  | .error _ => false

/-- `std::fs::create_dir_all`, with what is left behind when it fails. -/
def createDirAll (segments : List String) (fs : FileSystem) : Except Errno Unit × FileSystem :=
  match mkdir fs segments with
  | .ok made => (.ok (), made)
  | .error .notFound =>
    match _above : parent segments with
    | none => (.error .notFound, fs)
    | some up =>
      match createDirAll up fs with
      | (.error errno, left) => (.error errno, left)
      | (.ok (), left) =>
        match mkdir left segments with
        | .ok made => (.ok (), made)
        | .error errno => if pathIsDir left segments then (.ok (), left) else (.error errno, left)
  | .error errno => if pathIsDir fs segments then (.ok (), fs) else (.error errno, fs)
termination_by segments.length
decreasing_by exact parent_length _above

theorem createDirAll_grows (segments : List String) (fs : FileSystem) :
    Grows fs (createDirAll segments fs).2 := by
  fun_induction createDirAll segments fs with
  | case1 segments made done => exact mkdir_grows done
  | case2 | case7 | case8 => exact Grows.refl fs
  | case3 segments missing up above errno left failed ih =>
    rw [failed] at ih
    exact ih
  | case4 segments missing up above left done made later ih =>
    rw [done] at ih
    exact ih.trans (mkdir_grows later)
  | case5 segments missing up above left done errno failed dir ih
  | case6 segments missing up above left done errno failed dir ih =>
    rw [done] at ih
    exact ih

/-! ## What a path comes to -/

section Reach

variable {fs : FileSystem} {followLast : Bool} {links : Nat} {here place : Place}
  {segments rest : List String} {name : String} {errno : Errno}

theorem realpath_ok :
    realpath fs segments = .ok place ↔ ∃ left, walk fs true MAXSYMLINKS [] segments = .ok (place, left) := by
  unfold realpath
  cases walk fs true MAXSYMLINKS [] segments with
  | error errno =>
    constructor
    · intro never
      cases never
    · rintro ⟨left, never⟩
      cases never
  | ok r =>
    constructor
    · intro same
      cases same
      exact ⟨r.2, rfl⟩
    · rintro ⟨left, same⟩
      cases same
      rfl

theorem realpath_error :
    realpath fs segments = .error errno ↔ walk fs true MAXSYMLINKS [] segments = .error errno := by
  unfold realpath
  cases walk fs true MAXSYMLINKS [] segments with
  | error errno =>
    constructor
    · intro same
      cases same
      rfl
    · intro same
      cases same
      rfl
  | ok r =>
    constructor
    · intro never
      cases never
    · intro never
      cases never

theorem isDir_parent (dir : fs.isDir (place ++ [name]) = true) :
    fs.isDir place = true ∧ IsName name := by
  obtain ⟨above, isName⟩ := fs.below place name _ (of_decide_eq_true dir)
  exact ⟨decide_eq_true above, isName⟩

theorem isDir_dropLast (dir : fs.isDir place = true) : fs.isDir place.dropLast = true := by
  cases place using List.reverseRecOn with
  | nil => exact dir
  | append_singleton above name =>
    rw [List.dropLast_concat]
    exact (isDir_parent dir).1

theorem trimRight_place (dir : fs.isDir place = true) : trimRight place = place := by
  cases place using List.reverseRecOn with
  | nil => exact trimRight_skips (by simp)
  | append_singleton above name => exact trimRight_concat (isDir_parent dir).2.not_skip

/-- A walk over plain names ends at the first one that is missing. -/
theorem walk_missing_rest {more : List String} (dir : fs.isDir here = true) (plain : ".." ∉ rest)
    (first : names rest = name :: more) (missing : fs.find (here ++ [name]) = none) :
    walk fs followLast links here rest = .error .notFound := by
  induction rest with
  | nil => cases first
  | cons segment rest ih =>
    rcases segment_cases segment with skip | up | isName
    · rw [walk_skip dir skip]
      rw [names_cons_skip skip] at first
      exact ih (fun mem => plain (List.mem_cons_of_mem _ mem)) first
    · rw [up] at plain
      exact absurd List.mem_cons_self plain
    · rw [names_cons_name isName] at first
      cases first
      exact walk_missing dir isName missing

theorem realpath_append_skips {front skips : List String} (reached : realpath fs front = .ok place)
    (dir : fs.isDir place = true) (skip : ∀ s ∈ skips, isSkip s = true) :
    realpath fs (front ++ skips) = .ok place := by
  obtain ⟨left, walked⟩ := realpath_ok.mp reached
  rw [realpath_ok]
  refine ⟨left, ?_⟩
  by_cases nonempty : skips = []
  · rw [nonempty, List.append_nil]
    exact walked
  · rw [walk_append_ok nonempty walked]
    exact walk_skips skip dir

theorem realpath_of_append_skips {front skips : List String}
    (reached : realpath fs (front ++ skips) = .ok place) (skip : ∀ s ∈ skips, isSkip s = true) :
    realpath fs front = .ok place := by
  obtain ⟨left, walked⟩ := realpath_ok.mp reached
  obtain ⟨above, left', first, rest⟩ := walk_of_append walked
  have same := walk_skips_ok skip rest
  cases same
  exact realpath_ok.mpr ⟨left, first⟩

/-- What has been made is there. -/
theorem mkdir_ok {fs' : FileSystem} (made : mkdir fs segments = .ok fs') :
    pathIsDir fs' segments = true := by
  have grows := mkdir_grows made
  have blank : ∀ s ∈ segments.rtakeWhile (· = ""), isSkip s = true := by
    intro s mem
    have empty : s = "" := by simpa using List.mem_rtakeWhile_imp mem
    rw [empty]
    rfl
  have whole : segments.rdropWhile (· = "") ++ segments.rtakeWhile (· = "") = segments :=
    List.rdropWhile_append_rtakeWhile ..
  simp only [mkdir] at made
  split at made
  next => cases made
  next last ends =>
    split at made
    next => cases made
    next parent reached =>
      split_ifs at made with dir isName
      split at made
      next => cases made
      next missing =>
        cases made
        obtain ⟨front, cut⟩ := List.getLast?_eq_some_iff.mp ends
        rw [cut, List.dropLast_concat] at reached
        obtain ⟨left, walked⟩ := realpath_ok.mp reached
        have there : (fs.makeDir parent last dir isName).find (parent ++ [last]) = some .directory :=
          if_pos rfl
        have named : realpath (fs.makeDir parent last dir isName) (front ++ [last]) =
            .ok (parent ++ [last]) := by
          apply realpath_ok.mpr
          refine ⟨left, ?_⟩
          rw [walk_append_ok (List.cons_ne_nil _ _) (grows.walk walked),
            walk_enter (grows.isDir (decide_eq_true dir)) isName there (fun _ same => by cases same),
            walk_nil]
        have dir' : (fs.makeDir parent last dir isName).isDir (parent ++ [last]) = true :=
          decide_eq_true there
        have ends' := realpath_append_skips named dir' blank
        rw [← cut, whole] at ends'
        unfold pathIsDir
        rw [ends']
        exact dir'

/-- A path made with all its parents is a directory. -/
theorem createDirAll_ok {fs' : FileSystem} (done : createDirAll segments fs = (.ok (), fs')) :
    pathIsDir fs' segments = true := by
  fun_induction createDirAll segments fs with
  | case1 segments made done' =>
    cases done
    exact mkdir_ok done'
  | case2 | case3 | case6 | case8 => cases done
  | case4 segments missing up above left done' made later ih =>
    cases done
    exact mkdir_ok later
  | case5 segments missing up above left done' errno failed dir ih =>
    cases done
    exact dir
  | case7 =>
    cases done
    assumption

/-- A path that names a link ends in the name of the link. -/
theorem lstat_link {target : Written} (named : lstat fs segments = .ok place)
    (link : fs.find place = some (.link target)) :
    ∃ front name above left, segments = front ++ [name] ∧ IsName name ∧
      walk fs true MAXSYMLINKS [] front = .ok (above, left) ∧ fs.isDir above = true ∧
      place = above ++ [name] := by
  cases segments using List.reverseRecOn with
  | nil =>
    have same : lstat fs [] = .ok [] := by
      unfold lstat
      rw [walk_nil]
      rfl
    rw [same] at named
    cases named
    rw [fs.root] at link
    cases link
  | append_singleton front name =>
    unfold lstat at named
    rw [walk_append (List.cons_ne_nil _ _)] at named
    cases walked : walk fs true MAXSYMLINKS [] front with
    | error errno =>
      rw [walked] at named
      cases named
    | ok r =>
      obtain ⟨above, left⟩ := r
      rw [walked] at named
      have last : (walk fs false left above [name]).map Prod.fst = .ok place := named
      have noDir (at_ : fs.isDir place = true) : False := by
        have dir : fs.find place = some .directory := of_decide_eq_true at_
        rw [link] at dir
        cases dir
      cases meets fs above name with
      | blocked file =>
        rw [walk_blocked file] at last
        cases last
      | skip dir skip =>
        rw [walk_skip dir skip, walk_nil] at last
        cases last
        exact (noDir dir).elim
      | up dir up =>
        rw [up, walk_up dir, walk_nil] at last
        cases last
        exact (noDir (isDir_dropLast dir)).elim
      | missing dir isName missing =>
        rw [walk_missing dir isName missing] at last
        cases last
      | link dir isName target' found =>
        rw [walk_last dir isName found] at last
        cases last
        exact ⟨front, name, above, left, rfl, isName, walked, dir, rfl⟩
      | enter dir isName found there noLink =>
        rw [walk_enter dir isName there noLink, walk_nil] at last
        cases last
        rw [there] at link
        exact absurd (Option.some.inj link) (noLink target)

end Reach

end FileSystem

end RoLauncher.Files
