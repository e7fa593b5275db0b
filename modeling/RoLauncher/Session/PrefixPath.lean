import RoLauncher.Files.Walk

/-!
# The identity of a prefix (`crates/ro-session-protocol/src/lib.rs`)

`canonicalizePrefixPath` names a prefix that may not be there yet: the nearest
ancestor that is there, with its links followed, and the names below it as they
are written. `Lands` says what that is without the loop: the path splits into a
part that reaches a directory and a rest of plain names of which the first is
missing (`canonicalizeFrom_of_lands`, `lands_of_canonicalizeFrom`). A path that
names a dangling link and has a slash or a dot behind it escapes the check for
such links (`Behind`).
-/

namespace RoLauncher.Session

open Files FileSystem

/-- The loop over the ancestors, with the names that are missing below. -/
def canonicalizeFrom (fs : FileSystem) (ancestor missing : List String) : Option Place :=
  match realpath fs ancestor with
  | .ok canonical => if fs.isDir canonical then some (canonical ++ missing) else none
  | .error .notFound =>
    if (lstat fs ancestor).isOk then none
    else
      match nextBack ancestor, _above : parent ancestor with
      | .normal name, some up => canonicalizeFrom fs up (name :: missing)
      | _, _ => none
  | .error _ => none
termination_by ancestor.length
decreasing_by exact parent_length _above

def canonicalizePrefixPath (fs : FileSystem) (path : Written) : Option Place :=
  if path.absolute then canonicalizeFrom fs path.segments [] else none

/-! ## Where a path lands -/

/-- The path splits: its first part, with nothing idle at its end, reaches a
directory, and the rest is plain names of which the first is missing there. -/
structure Split (fs : FileSystem) (segments there rest : List String) (above : Place) : Prop where
  whole : segments = there ++ rest
  trimmed : trimRight there = there
  reached : realpath fs there = .ok above
  dir : fs.isDir above = true
  plain : ".." ∉ rest
  missing : ∀ name more, names rest = name :: more → fs.find (above ++ [name]) = none

/-- Where the prefix is, or will be. -/
def Lands (fs : FileSystem) (segments : List String) (place : Place) : Prop :=
  ∃ there rest above, Split fs segments there rest above ∧ place = above ++ names rest

/-- The path names a dangling link, and slashes or dots are written behind it. -/
def Behind (fs : FileSystem) (segments : List String) : Prop :=
  ∃ front skips link target, segments = front ++ skips ∧ skips ≠ [] ∧
    (∀ s ∈ skips, isSkip s = true) ∧ lstat fs front = .ok link ∧
    fs.find link = some (.link target) ∧ realpath fs front = .error .notFound

variable {fs fs' : FileSystem} {segments missing : List String} {place : Place}

theorem not_behind_of_trimmed (trimmed : trimRight segments = segments) : ¬ Behind fs segments := by
  rintro ⟨front, skips, link, target, whole, nonempty, skip, -, -, -⟩
  rw [whole, trimRight_append_of_skips skip] at trimmed
  have shorter := (List.rdropWhile_prefix isSkip front).length_le
  have longer := congrArg List.length trimmed
  have some := List.length_pos_of_ne_nil nonempty
  rw [List.length_append] at longer
  unfold trimRight at longer
  omega

section Loop

variable {ancestor : List String}

theorem canonicalizeFrom_ok (reached : realpath fs ancestor = .ok place)
    (dir : fs.isDir place = true) : canonicalizeFrom fs ancestor missing = some (place ++ missing) := by
  rw [canonicalizeFrom, reached]
  exact if_pos dir

theorem canonicalizeFrom_other {errno : Errno} (failed : realpath fs ancestor = .error errno)
    (other : errno ≠ .notFound) : canonicalizeFrom fs ancestor missing = none := by
  rw [canonicalizeFrom, failed]
  cases errno with
  | notFound => exact absurd rfl other
  | notDirectory => rfl
  | loop => rfl
  | alreadyExists => rfl

theorem canonicalizeFrom_up {name : String} {up : List String}
    (failed : realpath fs ancestor = .error .notFound) (absent : (lstat fs ancestor).isOk = false)
    (last : nextBack ancestor = .normal name) (above : parent ancestor = some up) :
    canonicalizeFrom fs ancestor missing = canonicalizeFrom fs up (name :: missing) := by
  rw [canonicalizeFrom, failed]
  simp only [absent, Bool.false_eq_true, if_false]
  rw [last]
  split
  next name' up' same above' =>
    cases same
    rw [above] at above'
    cases above'
    rfl
  next none => exact absurd above (none _ _ rfl)

end Loop

/-! ## The loop and where it lands -/

/-- Where a path with nothing missing lands. -/
theorem lands_of_realpath (reached : realpath fs segments = .ok place)
    (dir : fs.isDir place = true) : Lands fs segments place := by
  obtain ⟨skips, skip, whole⟩ := trimRight_append_skips segments
  rw [whole] at reached
  refine ⟨trimRight segments, skips, place, ⟨whole, trimRight_trimRight _,
    realpath_of_append_skips reached skip, dir, ?_, ?_⟩, ?_⟩
  · intro mem
    exact absurd (skip _ mem) (by decide)
  · intro name more first
    rw [names_skips skip] at first
    cases first
  · rw [names_skips skip, List.append_nil]

/-- The loop ends where the path lands. -/
theorem canonicalizeFrom_of_lands (lands : Lands fs segments place) :
    canonicalizeFrom fs segments missing = some (place ++ missing) := by
  obtain ⟨there, rest, above, split, rfl⟩ := lands
  obtain ⟨left, walked⟩ := realpath_ok.mp split.reached
  generalize size : segments.length = n
  induction n using Nat.strongRecOn generalizing segments rest missing with
  | ind n ih =>
    cases named : names rest with
    | nil =>
      have skip : ∀ s ∈ rest, isSkip s = true := by
        intro s mem
        have kept := List.filter_eq_nil_iff.mp named s mem
        simpa using kept
      have reached : realpath fs segments = .ok above := by
        rw [split.whole]
        exact realpath_append_skips split.reached split.dir skip
      rw [canonicalizeFrom_ok reached split.dir, List.append_nil]
    | cons first more =>
      have some : names rest ≠ [] := by simp [named]
      have nonempty : rest ≠ [] := by
        rintro rfl
        exact some rfl
      have absent := split.missing first more named
      have failed : realpath fs segments = .error .notFound := by
        rw [realpath_error, split.whole, walk_append_ok nonempty walked]
        exact walk_missing_rest split.dir split.plain named absent
      have unnamed : (lstat fs segments).isOk = false := by
        unfold lstat
        rw [split.whole, walk_append_ok nonempty walked,
          walk_missing_rest split.dir split.plain named absent]
        rfl
      obtain ⟨front, name, skips, last, isName, skip, kept⟩ := last_name split.plain some
      have whole : segments = (there ++ front) ++ name :: skips := by
        rw [split.whole, last, List.append_assoc]
      obtain ⟨back, up⟩ := nextBack_of_name (there ++ front) isName skip
      rw [← whole] at back up
      rw [trimRight_append split.trimmed] at up
      rw [canonicalizeFrom_up failed unnamed back up]
      have shorter := parent_length up
      rw [size] at shorter
      have higher : Split fs (there ++ trimRight front) there (trimRight front) above := by
        refine ⟨rfl, split.trimmed, split.reached, split.dir, ?_, ?_⟩
        · intro mem
          apply split.plain
          rw [last]
          exact List.mem_append_left _ (mem_of_mem_trimRight mem)
        · intro name' more' first'
          rw [names_trimRight] at first'
          rw [first', named] at kept
          cases kept
          exact absent
      rw [ih _ shorter _ higher rfl, names_trimRight, ← named, kept]
      simp only [List.append_assoc, List.singleton_append]

/-- A name under which nothing is found is missing, unless it is a dangling link
with something said behind it. -/
theorem missing_of_notFound {front skips : List String} {name : String} {above : Place}
    (before : realpath fs front = .ok above) (dir : fs.isDir above = true) (isName : IsName name)
    (skip : ∀ s ∈ skips, isSkip s = true)
    (failed : realpath fs (front ++ name :: skips) = .error .notFound)
    (unnamed : (lstat fs (front ++ name :: skips)).isOk = false)
    (open_ : ¬ Behind fs (front ++ name :: skips)) : fs.find (above ++ [name]) = none := by
  obtain ⟨left, walked⟩ := realpath_ok.mp before
  rw [realpath_error, walk_append_ok (List.cons_ne_nil _ _) walked] at failed
  cases there : fs.find (above ++ [name]) with
  | none => rfl
  | some found =>
    by_cases link : ∃ target, found = .link target
    · obtain ⟨target, rfl⟩ := link
      have named : lstat fs (front ++ [name]) = .ok (above ++ [name]) := by
        unfold lstat
        rw [walk_append_ok (List.cons_ne_nil _ _) walked, walk_last dir isName there]
        rfl
      by_cases nothing : skips = []
      · rw [nothing, named] at unnamed
        cases unnamed
      · apply absurd _ open_
        refine ⟨front ++ [name], skips, above ++ [name], target, by simp, nothing, skip, named,
          there, ?_⟩
        rw [realpath_error, walk_append_ok (List.cons_ne_nil _ _) walked]
        cases followed : walk fs true left above [name] with
        | error errno =>
          rw [← List.singleton_append, walk_append_error nothing followed] at failed
          exact failed
        | ok r =>
          rw [← List.singleton_append, walk_append_ok nothing followed] at failed
          cases end_ : fs.isDir r.1 with
          | true =>
            rw [walk_skips skip end_] at failed
            cases failed
          | false =>
            obtain ⟨first, more, rfl⟩ := List.exists_cons_of_ne_nil nothing
            rw [walk_blocked end_] at failed
            cases failed
    · have noLink : ∀ target, found ≠ .link target := fun target same => link ⟨target, same⟩
      rw [walk_enter dir isName there noLink] at failed
      cases end_ : fs.isDir (above ++ [name]) with
      | true =>
        rw [walk_skips skip end_] at failed
        cases failed
      | false =>
        cases skips with
        | nil =>
          rw [walk_nil] at failed
          cases failed
        | cons first more =>
          rw [walk_blocked end_] at failed
          cases failed

/-- A path lands a name below where the path before the name lands. -/
theorem lands_below {front skips : List String} {name : String}
    (whole : segments = front ++ name :: skips) (isName : IsName name)
    (skip : ∀ s ∈ skips, isSkip s = true) (lands : Lands fs (trimRight front) place)
    (failed : realpath fs segments = .error .notFound) (unnamed : (lstat fs segments).isOk = false)
    (open_ : ¬ Behind fs segments) : Lands fs segments (place ++ [name]) := by
  obtain ⟨gap, idle, split⟩ := trimRight_append_skips front
  obtain ⟨there, rest, above, parts, rfl⟩ := lands
  have kept : names (rest ++ (gap ++ name :: skips)) = names rest ++ [name] := by
    rw [names_append, names_append, names_skips idle, names_cons_name isName, names_skips skip]
    rfl
  refine ⟨there, rest ++ (gap ++ name :: skips), above,
    ⟨?_, parts.trimmed, parts.reached, parts.dir, ?_, ?_⟩, ?_⟩
  · rw [whole, split, parts.whole]
    simp only [List.append_assoc]
  · intro mem
    simp only [List.mem_append, List.mem_cons] at mem
    rcases mem with mem | mem | dots | mem
    · exact parts.plain mem
    · exact absurd (idle _ mem) (by decide)
    · exact isName.2.2 dots.symm
    · exact absurd (skip _ mem) (by decide)
  · intro first more head
    rw [kept] at head
    cases named : names rest with
    | cons first' more' =>
      rw [named] at head
      cases head
      exact parts.missing first more' named
    | nil =>
      rw [named] at head
      cases head
      have still : ∀ s ∈ rest, isSkip s = true := by
        intro s mem
        simpa using List.filter_eq_nil_iff.mp named s mem
      have before : realpath fs front = .ok above := by
        rw [split, parts.whole, List.append_assoc]
        exact realpath_append_skips parts.reached parts.dir (by
          intro s mem
          obtain mem | mem := List.mem_append.mp mem
          · exact still s mem
          · exact idle s mem)
      rw [whole] at failed unnamed open_
      exact missing_of_notFound before parts.dir isName skip failed unnamed open_
  · rw [kept, List.append_assoc]

/-- Where the loop ends the path lands, unless it says something behind a
dangling link. -/
theorem lands_of_canonicalizeFrom (found : canonicalizeFrom fs segments missing = some place)
    (open_ : ¬ Behind fs segments) :
    ∃ above, Lands fs segments above ∧ place = above ++ missing := by
  generalize size : segments.length = n
  induction n using Nat.strongRecOn generalizing segments missing with
  | ind n ih =>
    cases reached : realpath fs segments with
    | ok above =>
      cases dir : fs.isDir above with
      | true =>
        rw [canonicalizeFrom_ok reached dir] at found
        cases found
        exact ⟨above, lands_of_realpath reached dir, rfl⟩
      | false =>
        rw [canonicalizeFrom, reached] at found
        simp only [dir, Bool.false_eq_true, if_false] at found
        cases found
    | error errno =>
      by_cases other : errno ≠ .notFound
      · rw [canonicalizeFrom_other reached other] at found
        cases found
      · obtain rfl := not_not.mp other
        cases unnamed : (lstat fs segments).isOk with
        | true =>
          rw [canonicalizeFrom, reached] at found
          simp only [unnamed, if_true] at found
          cases found
        | false =>
          have last : ∃ name up, nextBack segments = .normal name ∧ parent segments = some up := by
            rw [canonicalizeFrom, reached] at found
            simp only [unnamed, Bool.false_eq_true, if_false] at found
            split at found
            next name up back above => exact ⟨name, up, back, above⟩
            next => cases found
          obtain ⟨name, up, back, up_⟩ := last
          rw [canonicalizeFrom_up reached unnamed back up_] at found
          have shorter := parent_length up_
          rw [size] at shorter
          obtain ⟨front, tail, whole, isName, skip, rfl⟩ := nextBack_normal back up_
          have trimmed := trimRight_trimRight front
          obtain ⟨above, lands, rfl⟩ := ih _ shorter found (not_behind_of_trimmed trimmed) rfl
          exact ⟨above ++ [name], lands_below whole isName skip lands reached unnamed open_, by simp⟩

/-! ## Directories made later -/

/-- Below a place with nothing there is nothing. -/
theorem find_below (absent : fs.find place = none) (more : List String) :
    fs.find (place ++ more) = none := by
  induction more using List.reverseRecOn with
  | nil => rw [List.append_nil, absent]
  | append_singleton more last ih =>
    rw [← List.append_assoc]
    cases there : fs.find (place ++ more ++ [last]) with
    | none => rfl
    | some found =>
      have parent := (fs.below _ _ _ there).1
      rw [ih] at parent
      cases parent

/-- A rest of plain names under which nothing but directories is found lands
where its names say. -/
theorem lands_of_plain (gap : List String) {there rest : List String} {above : Place}
    (trimmed : trimRight there = there) (reached : realpath fs there = .ok above)
    (dir : fs.isDir above = true) (idle : ∀ s ∈ gap, isSkip s = true) (plain : ".." ∉ rest)
    (free : ∀ front name back, names rest = front ++ name :: back →
      fs.find (above ++ front ++ [name]) = none ∨
        fs.find (above ++ front ++ [name]) = some .directory) :
    Lands fs (there ++ gap ++ rest) (above ++ names rest) := by
  induction rest generalizing there gap above with
  | nil =>
    apply lands_of_realpath _ (by simpa [names] using dir)
    rw [List.append_nil]
    simpa [names] using realpath_append_skips reached dir idle
  | cons segment rest ih =>
    have later : ".." ∉ rest := fun mem => plain (List.mem_cons_of_mem _ mem)
    rcases segment_cases segment with skip | up | isName
    · have wider : ∀ s ∈ gap ++ [segment], isSkip s = true := by
        intro s mem
        rcases List.mem_append.mp mem with mem | mem
        · exact idle s mem
        · rw [List.mem_singleton.mp mem]
          exact skip
      rw [names_cons_skip skip] at free ⊢
      have lands := ih _ trimmed reached dir wider later free
      rw [← List.append_assoc, List.append_assoc _ [segment]] at lands
      exact lands
    · rw [up] at plain
      exact absurd List.mem_cons_self plain
    · rw [names_cons_name isName] at free ⊢
      have first := free [] segment (names rest) rfl
      rw [List.append_nil] at first
      rcases first with absent | made
      · refine ⟨there, gap ++ segment :: rest, above,
          ⟨List.append_assoc .., trimmed, reached, dir, ?_, ?_⟩, ?_⟩
        · intro mem
          rcases List.mem_append.mp mem with mem | mem
          · exact absurd (idle _ mem) (by decide)
          · exact plain mem
        · intro name more head
          rw [names_append, names_skips idle, names_cons_name isName] at head
          cases head
          exact absent
        · rw [names_append, names_skips idle, names_cons_name isName, List.nil_append]
      · have entered : realpath fs (there ++ gap ++ [segment]) = .ok (above ++ [segment]) := by
          obtain ⟨left, walked⟩ := realpath_ok.mp (realpath_append_skips reached dir idle)
          apply realpath_ok.mpr
          refine ⟨left, ?_⟩
          rw [walk_append_ok (List.cons_ne_nil _ _) walked,
            walk_enter dir isName made (fun _ same => by cases same), walk_nil]
        have lands := ih [] (trimRight_concat isName.not_skip) entered
          (decide_eq_true made) (fun s mem => by cases mem) later (by
            intro front name back same
            have deeper := free (segment :: front) name back (by rw [same, List.cons_append])
            simpa using deeper)
        simpa using lands

/-- A path lands where it did when directories are made. -/
theorem Lands.grows (lands : Lands fs segments place) (grows : Grows fs fs') :
    Lands fs' segments place := by
  obtain ⟨there, rest, above, split, rfl⟩ := lands
  obtain ⟨left, walked⟩ := realpath_ok.mp split.reached
  have lands := lands_of_plain [] split.trimmed
    (realpath_ok.mpr ⟨left, grows.walk walked⟩) (grows.isDir split.dir) (fun s mem => by cases mem)
    split.plain (by
      intro front name back same
      have absent : fs.find (above ++ front ++ [name]) = none := by
        cases front with
        | nil =>
          rw [List.append_nil]
          exact split.missing name back same
        | cons first front =>
          have first_ := find_below (split.missing first (front ++ name :: back) same)
            (front ++ [name])
          simpa using first_
      rcases grows (above ++ front ++ [name]) with same | ⟨_, made⟩
      · left
        rw [same, absent]
      · right
        exact made)
  rw [List.append_nil, ← split.whole] at lands
  exact lands

/-- Where a path lands is a path that lands there. -/
theorem Lands.self (lands : Lands fs segments place) : Lands fs place place := by
  obtain ⟨there, rest, above, split, rfl⟩ := lands
  refine ⟨above, names rest, above, ⟨rfl, trimRight_place split.dir,
    realpath_ok.mpr ⟨_, walk_place split.dir⟩, split.dir, ?_, ?_⟩, ?_⟩
  · intro mem
    exact split.plain (List.mem_of_mem_filter mem)
  · intro name more first
    rw [names_names] at first
    exact split.missing name more first
  · rw [names_names]

/-! ## Paths that land nowhere -/

section Nowhere

variable {first second : List String} {errno : Errno}

/-- The first part of a path that lands leads to a directory, or ends among names
that are missing. -/
theorem Lands.front (lands : Lands fs (first ++ second) place) :
    (∃ middle above, realpath fs (first ++ middle) = .ok above ∧ fs.isDir above = true) ∨
      (∀ followLast, walk fs followLast MAXSYMLINKS [] first = .error .notFound) ∧
        ".." ∉ second := by
  obtain ⟨there, rest, above, split, -⟩ := lands
  obtain ⟨left, walked⟩ := realpath_ok.mp split.reached
  rcases List.append_eq_append_iff.mp split.whole with ⟨middle, whole, -⟩ | ⟨more, rfl, whole⟩
  · left
    refine ⟨middle, above, ?_, split.dir⟩
    rw [← whole]
    exact split.reached
  · have plain := split.plain
    have missing := split.missing
    rw [whole] at plain missing
    have some : ".." ∉ more := fun mem => plain (List.mem_append_left _ mem)
    rw [names_append] at missing
    cases named : names more with
    | nil =>
      left
      refine ⟨[], above, ?_, split.dir⟩
      rw [List.append_nil]
      apply realpath_append_skips split.reached split.dir
      intro s mem
      simpa using List.filter_eq_nil_iff.mp named s mem
    | cons name later =>
      right
      have nonempty : more ≠ [] := by
        rintro rfl
        cases named
      rw [named] at missing
      refine ⟨?_, fun mem => plain (List.mem_append_right _ mem)⟩
      intro followLast
      rw [walk_append_ok nonempty walked]
      exact walk_missing_rest split.dir some named (missing name _ rfl)

theorem realpath_front {middle : List String} (reached : realpath fs (first ++ middle) = .ok place) :
    ∃ there, realpath fs first = .ok there ∧ (fs.isDir there = false → there = place) := by
  obtain ⟨left, walked⟩ := realpath_ok.mp reached
  obtain ⟨there, left', front, back⟩ := walk_of_append walked
  refine ⟨there, realpath_ok.mpr ⟨left', front⟩, ?_⟩
  intro file
  cases middle with
  | nil =>
    rw [walk_nil] at back
    cases back
    rfl
  | cons segment middle =>
    rw [walk_blocked file] at back
    cases back

/-- No path lands below a file. -/
theorem not_lands_below_file (reached : realpath fs first = .ok place)
    (file : fs.isDir place = false) : ¬ ∃ c, Lands fs (first ++ second) c := by
  rintro ⟨c, lands⟩
  rcases lands.front with ⟨middle, above, ends, dir⟩ | ⟨failed, -⟩
  · obtain ⟨there, again, stays⟩ := realpath_front ends
    rw [reached] at again
    cases again
    rw [← stays file, file] at dir
    cases dir
  · rw [realpath_error.mpr (failed true)] at reached
    cases reached

/-- No path lands behind a name that is there and cannot be followed. -/
theorem not_lands_dangling (named : lstat fs first = .ok place)
    (failed : realpath fs first = .error errno) : ¬ ∃ c, Lands fs (first ++ second) c := by
  rintro ⟨c, lands⟩
  rcases lands.front with ⟨middle, above, ends, -⟩ | ⟨nothing, -⟩
  · obtain ⟨there, again, -⟩ := realpath_front ends
    rw [failed] at again
    cases again
  · unfold lstat at named
    rw [nothing false] at named
    cases named

/-- No path lands that goes up behind a missing name. -/
theorem not_lands_climbing (failed : realpath fs first = .error errno) (climbs : ".." ∈ second) :
    ¬ ∃ c, Lands fs (first ++ second) c := by
  rintro ⟨c, lands⟩
  rcases lands.front with ⟨middle, above, ends, -⟩ | ⟨-, plain⟩
  · obtain ⟨there, again, -⟩ := realpath_front ends
    rw [failed] at again
    cases again
  · exact plain climbs

end Nowhere

/-! ## What may be said of a prefix before it is there -/

/-- Where the loop ends for a path behind a dangling link: where the link is. -/
theorem canonicalizeFrom_of_behind (behind : Behind fs segments) :
    ∃ place, canonicalizeFrom fs segments [] = some place := by
  obtain ⟨front, skips, link, target, rfl, nonempty, skip, named, found, failed⟩ := behind
  obtain ⟨first, name, above, left, rfl, isName, walked, dir, rfl⟩ := lstat_link named found
  have failed' : realpath fs (first ++ [name] ++ skips) = .error .notFound :=
    realpath_error.mpr (walk_append_error nonempty (realpath_error.mp failed))
  have unnamed : (lstat fs (first ++ [name] ++ skips)).isOk = false := by
    unfold lstat
    rw [walk_append_error nonempty (realpath_error.mp failed)]
    rfl
  have reached : realpath fs (trimRight first) = .ok above := by
    obtain ⟨idle, skipped, whole⟩ := trimRight_append_skips first
    have reached : realpath fs (trimRight first ++ idle) = .ok above := by
      rw [← whole]
      exact realpath_ok.mpr ⟨left, walked⟩
    exact realpath_of_append_skips reached skipped
  obtain ⟨back, up⟩ := nextBack_of_name first isName skip
  rw [List.append_assoc, List.singleton_append] at failed' unnamed ⊢
  refine ⟨above ++ [name], ?_⟩
  rw [canonicalizeFrom_up failed' unnamed back up, canonicalizeFrom_ok reached dir]

/-- What is promised of one path: the prefix keeps its name when it is made, the
name is its own, and there is none below a file, through a dangling link or
behind a step up from a missing name. -/
structure StableAlone (fs : FileSystem) (path : Written) : Prop where
  created : ∀ c, canonicalizePrefixPath fs path = some c →
    canonicalizePrefixPath (createDirAll path.segments fs).2 path = some c ∧
      ((createDirAll path.segments fs).1 = .ok () →
        realpath (createDirAll path.segments fs).2 path.segments = .ok c)
  canonical : ∀ c, canonicalizePrefixPath fs path = some c →
    canonicalizePrefixPath fs ⟨true, c⟩ = some c
  belowFile : ∀ first second place, path.segments = first ++ second →
    realpath fs first = .ok place → fs.find place = some .file →
    canonicalizePrefixPath fs path = none
  dangling : ∀ first second place target errno, path.segments = first ++ second →
    lstat fs first = .ok place → fs.find place = some (.link target) →
    realpath fs first = .error errno → canonicalizePrefixPath fs path = none
  climbing : ∀ first second, path.segments = first ++ second →
    realpath fs first = .error .notFound → ".." ∈ second →
    canonicalizePrefixPath fs path = none

/-- And of two paths: if they come to one directory once it is made, they have
one name before. -/
structure Stable (fs : FileSystem) (first second : Written) : Prop where
  alone : StableAlone fs first ∧ StableAlone fs second
  sameDirectory : ∀ c d made place, canonicalizePrefixPath fs first = some c →
    canonicalizePrefixPath fs second = some d → Grows fs made →
    realpath made first.segments = .ok place → realpath made second.segments = .ok place → c = d

section Stable

variable {path : Written} {c : Place}

theorem lands_of_some (open_ : ¬ Behind fs path.segments)
    (found : canonicalizePrefixPath fs path = some c) :
    path.absolute = true ∧ Lands fs path.segments c := by
  unfold canonicalizePrefixPath at found
  split_ifs at found with absolute
  obtain ⟨above, lands, rfl⟩ := lands_of_canonicalizeFrom found open_
  rw [List.append_nil]
  exact ⟨absolute, lands⟩

theorem some_of_lands (absolute : path.absolute = true) (lands : Lands fs path.segments c) :
    canonicalizePrefixPath fs path = some c := by
  unfold canonicalizePrefixPath
  rw [if_pos absolute, canonicalizeFrom_of_lands lands, List.append_nil]

theorem none_of_not_lands (open_ : ¬ Behind fs path.segments)
    (nowhere : ¬ ∃ c, Lands fs path.segments c) : canonicalizePrefixPath fs path = none := by
  cases found : canonicalizePrefixPath fs path with
  | none => rfl
  | some c => exact absurd ⟨c, (lands_of_some open_ found).2⟩ nowhere

/-- A prefix that is there has the name under which it is found. -/
theorem Lands.of_realpath (lands : Lands fs segments c) (reached : realpath fs segments = .ok place) :
    c = place := by
  have ends : canonicalizeFrom fs segments [] = some (c ++ []) := canonicalizeFrom_of_lands lands
  rw [canonicalizeFrom, reached] at ends
  dsimp only at ends
  split_ifs at ends with dir
  simpa using ends.symm

theorem stableAlone_of_open (open_ : ¬ Behind fs path.segments) : StableAlone fs path := by
  constructor
  · intro c found
    obtain ⟨absolute, lands⟩ := lands_of_some open_ found
    have landed := lands.grows (createDirAll_grows path.segments fs)
    refine ⟨some_of_lands absolute landed, ?_⟩
    intro done
    have there := createDirAll_ok (Prod.ext done rfl)
    unfold pathIsDir at there
    cases reached : realpath (createDirAll path.segments fs).2 path.segments with
    | error errno =>
      rw [reached] at there
      cases there
    | ok place => rw [landed.of_realpath reached]
  · intro c found
    obtain ⟨-, lands⟩ := lands_of_some open_ found
    exact some_of_lands rfl lands.self
  · intro first second place whole reached file
    apply none_of_not_lands open_
    rw [whole]
    apply not_lands_below_file reached
    simp [FileSystem.isDir, file]
  · intro first second place target errno whole named _ failed
    apply none_of_not_lands open_
    rw [whole]
    exact not_lands_dangling named failed
  · intro first second whole failed climbs
    apply none_of_not_lands open_
    rw [whole]
    exact not_lands_climbing failed climbs

theorem StableAlone.open (absolute : path.absolute = true) (stable : StableAlone fs path) :
    ¬ Behind fs path.segments := by
  intro behind
  obtain ⟨place, found⟩ := canonicalizeFrom_of_behind behind
  obtain ⟨front, skips, link, target, whole, -, -, named, link_, failed⟩ := behind
  have nothing := stable.dangling front skips link target _ whole named link_ failed
  unfold canonicalizePrefixPath at nothing
  rw [if_pos absolute, found] at nothing
  cases nothing

end Stable

/-- What is promised of two absolute paths holds unless one of them names a
dangling link with nothing but slashes and dots behind it. -/
theorem stable_iff (fs : FileSystem) (first second : List String) :
    Stable fs ⟨true, first⟩ ⟨true, second⟩ ↔ ¬ Behind fs first ∧ ¬ Behind fs second := by
  constructor
  · intro stable
    exact ⟨stable.alone.1.open rfl, stable.alone.2.open rfl⟩
  · rintro ⟨open1, open2⟩
    refine ⟨⟨stableAlone_of_open open1, stableAlone_of_open open2⟩, ?_⟩
    intro c d made place found1 found2 grows reached1 reached2
    have lands1 := (lands_of_some open1 found1).2.grows grows
    have lands2 := (lands_of_some open2 found2).2.grows grows
    rw [lands1.of_realpath reached1, lands2.of_realpath reached2]

/-! ## A dangling link with a slash behind it -/

/-- One link, to nothing. -/
def danglingLink : FileSystem where
  find place :=
    if place = [] then some .directory
    else if place = ["d"] then some (.link ⟨true, ["none"]⟩)
    else none
  root := rfl
  below := by
    intro place name found there
    rw [if_neg (by simp)] at there
    split_ifs at there with link
    cases place with
    | nil =>
      cases link
      exact ⟨rfl, by decide⟩
    | cons first more => simp at link

/-- `/d/` is the prefix `/d`, which is none. -/
theorem canonicalize_behind_link :
    canonicalizePrefixPath danglingLink ⟨true, ["d", ""]⟩ = some ["d"] ∧
      canonicalizePrefixPath danglingLink ⟨true, ["d"]⟩ = none ∧
      ¬ Stable danglingLink ⟨true, ["d", ""]⟩ ⟨true, ["d"]⟩ := by
  have named : canonicalizePrefixPath danglingLink ⟨true, ["d", ""]⟩ = some ["d"] := by
    decide +kernel
  have none : canonicalizePrefixPath danglingLink ⟨true, ["d"]⟩ = none := by
    decide +kernel
  refine ⟨named, none, ?_⟩
  intro stable
  have again := stable.alone.1.canonical _ named
  rw [none] at again
  cases again

end RoLauncher.Session
