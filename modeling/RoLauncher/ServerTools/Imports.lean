import Mathlib.Data.Finset.Card
import RoLauncher.ServerTools.Pe

/-!
# The local libraries of an executable (`server_tools/pe.rs`, `utils/fs.rs`)

`collect_local_imports` follows the imports of an executable through the files of
its directory. It keeps the names it has seen in lowercase, and the paths it has
parsed, of which there may be `MAX_DEPENDENCIES`. A name leads to one file, and a
file has one lowercase name, so below that limit what it returns is what can be
reached (`local_import_closure`).

The directory does not change meanwhile, and is listed in the same order each time.
-/

namespace RoLauncher.ServerTools

open Text (toAsciiLowercase toAsciiLowercase_idem)

/-- `OsString`: UTF-8 or not. -/
inductive OsName
  | text (name : String)
  | raw (bytes : List UInt8)
  deriving DecidableEq, Repr

def OsName.toStr : OsName → Option String
  | .text name => some name
  | .raw _ => none

/-- An entry of a directory: whether it leads to a file, and what reading that gives. -/
structure DirEntry where
  fileName : OsName
  isFile : Bool
  contents : Option (List UInt8)
  deriving DecidableEq, Repr

/-- What `read_dir` lists, or none where it fails. A path in the directory is given by its last
component. -/
abbrev GameDir := Option (List DirEntry)

def eqIgnoreAsciiCase (first second : String) : Bool :=
  toAsciiLowercase first = toAsciiLowercase second

def DirEntry.isNamed (target : String) (entry : DirEntry) : Bool :=
  entry.isFile && entry.fileName.toStr.any (eqIgnoreAsciiCase · target)

def findFileCaseInsensitive (dir : GameDir) (filename : String) : Option OsName := do
  let target := toAsciiLowercase filename
  let entries ← dir
  let entry ← entries.find? (·.isNamed target)
  return entry.fileName

def parsePe (dir : GameDir) (path : OsName) : Option PeInfo := do
  let entry ← (← dir).find? (·.fileName = path)
  let bytes ← entry.contents
  if MAX_PE_SIZE < bytes.length then none else parsePeBytes bytes

/-- The names that were seen, and the paths `parse_pe` was called with. -/
structure Collected where
  imports : Finset String
  parsed : Finset OsName

/-- The loop of `collect_local_imports`. -/
def collect (dir : GameDir) (queue : List String) (imports : Finset String) (parsed : Finset OsName) :
    Collected :=
  match queue with
  | [] => ⟨imports, parsed⟩
  | name :: queue =>
    let name := toAsciiLowercase name
    if name ∈ imports ∨ MAX_DEPENDENCIES ≤ parsed.card then
      collect dir queue (insert name imports) parsed
    else
      match findFileCaseInsensitive dir name with
      | none => collect dir queue (insert name imports) parsed
      | some path =>
        if path ∈ parsed then collect dir queue (insert name imports) parsed
        else
          match parsePe dir path with
          | some info => collect dir (queue ++ info.imports) (insert name imports) (insert path parsed)
          | none => collect dir queue (insert name imports) (insert path parsed)
termination_by (MAX_DEPENDENCIES - parsed.card, queue.length)
decreasing_by
  all_goals simp_wf
  all_goals grind [MAX_DEPENDENCIES]

def collectLocalImports (dir : GameDir) (root : PeInfo) : Finset String :=
  (collect dir root.imports ∅ ∅).imports

/-! ## What can be reached -/

section Closure

variable {dir : GameDir} {root : PeInfo}

/-- The local file of the first name imports the second. -/
def Requires (dir : GameDir) (name next : String) : Prop :=
  ∃ path info, findFileCaseInsensitive dir name = some path ∧ parsePe dir path = some info ∧
    next ∈ info.imports

/-- The lowercase names that the imports of the root lead to, through local files. -/
inductive Reachable (dir : GameDir) (root : PeInfo) : String → Prop
  | root {name : String} (listed : name ∈ root.imports) : Reachable dir root (toAsciiLowercase name)
  | through {name next : String} (reached : Reachable dir root name) (requires : Requires dir name next) :
      Reachable dir root (toAsciiLowercase next)

/-- A path has one lowercase name, however it was found. -/
theorem eq_of_found {first second : String} {path : OsName}
    (found : findFileCaseInsensitive dir first = some path)
    (again : findFileCaseInsensitive dir second = some path) :
    toAsciiLowercase first = toAsciiLowercase second := by
  have named (name : String) (found : findFileCaseInsensitive dir name = some path) :
      ∃ text, path.toStr = some text ∧ toAsciiLowercase text = toAsciiLowercase name := by
    cases dir with
    | none => cases found
    | some entries =>
      obtain ⟨entry, listed, same⟩ := Option.bind_eq_some_iff.mp found
      cases same
      have matching := List.find?_some listed
      simp only [DirEntry.isNamed, Bool.and_eq_true, Option.any_eq_true, eqIgnoreAsciiCase,
        toAsciiLowercase_idem, decide_eq_true_eq] at matching
      exact matching.2
  obtain ⟨text, is, same⟩ := named first found
  obtain ⟨text', is', same'⟩ := named second again
  rw [is] at is'
  cases is'
  rw [← same, ← same']

/-- A name that has been seen or waits to be. -/
def Seen (queue : List String) (imports : Finset String) (name : String) : Prop :=
  toAsciiLowercase name ∈ imports ∨ ∃ waiting ∈ queue, toAsciiLowercase waiting = toAsciiLowercase name

/-- Nothing that the names lead to is left out. -/
structure Covers (dir : GameDir) (root : PeInfo) (queue : List String) (imports : Finset String)
    (parsed : Finset OsName) : Prop where
  roots : ∀ name ∈ root.imports, Seen queue imports name
  requires : ∀ name ∈ imports, ∀ next, Requires dir name next → Seen queue imports next
  files : ∀ name ∈ imports, ∀ path, findFileCaseInsensitive dir name = some path → path ∈ parsed

/-- What the loop keeps. -/
structure Inv (dir : GameDir) (root : PeInfo) (queue : List String) (imports : Finset String)
    (parsed : Finset OsName) : Prop where
  lower : ∀ name ∈ imports, toAsciiLowercase name = name
  reached : ∀ name ∈ imports, Reachable dir root name
  waits : ∀ name ∈ queue, Reachable dir root (toAsciiLowercase name)
  found : ∀ path ∈ parsed, ∃ name ∈ imports, findFileCaseInsensitive dir name = some path
  bounded : parsed.card ≤ MAX_DEPENDENCIES
  covers : parsed.card < MAX_DEPENDENCIES → Covers dir root queue imports parsed

theorem inv_start : Inv dir root root.imports ∅ ∅ where
  lower _ never := absurd never (Finset.notMem_empty _)
  reached _ never := absurd never (Finset.notMem_empty _)
  waits _ listed := .root listed
  found _ never := absurd never (Finset.notMem_empty _)
  bounded := Nat.zero_le _
  covers _ := {
    roots := fun name listed => .inr ⟨name, listed, rfl⟩
    requires := fun _ never => absurd never (Finset.notMem_empty _)
    files := fun _ never => absurd never (Finset.notMem_empty _) }

variable {name : String} {queue more : List String} {imports : Finset String}
  {parsed parsed' : Finset OsName}

theorem Seen.pop {next : String} (seen : Seen (name :: queue) imports next) :
    Seen (queue ++ more) (insert (toAsciiLowercase name) imports) next := by
  rcases seen with seen | ⟨waiting, mem, same⟩
  · exact .inl (Finset.mem_insert_of_mem seen)
  · rcases List.mem_cons.mp mem with rfl | mem
    · exact .inl (same ▸ Finset.mem_insert_self _ _)
    · exact .inr ⟨waiting, List.mem_append_left _ mem, same⟩

/-- **A round** of the loop takes a name from the queue, adds the files it has parsed to the paths
and their imports to the queue. -/
theorem Inv.round (h : Inv dir root (name :: queue) imports parsed)
    (paths : ∀ path ∈ parsed', path ∈ parsed ∨ findFileCaseInsensitive dir (toAsciiLowercase name) = some path)
    (grows : parsed ⊆ parsed') (bounded : parsed'.card ≤ MAX_DEPENDENCIES)
    (listed : ∀ next ∈ more, Requires dir (toAsciiLowercase name) next)
    (requires : parsed'.card < MAX_DEPENDENCIES → ∀ next, Requires dir (toAsciiLowercase name) next →
      Seen (queue ++ more) (insert (toAsciiLowercase name) imports) next)
    (files : parsed'.card < MAX_DEPENDENCIES → ∀ path,
      findFileCaseInsensitive dir (toAsciiLowercase name) = some path → path ∈ parsed') :
    Inv dir root (queue ++ more) (insert (toAsciiLowercase name) imports) parsed' := by
  have first := h.waits name List.mem_cons_self
  constructor
  · intro other mem
    rcases Finset.mem_insert.mp mem with rfl | mem
    · exact toAsciiLowercase_idem name
    · exact h.lower other mem
  · intro other mem
    rcases Finset.mem_insert.mp mem with rfl | mem
    · exact first
    · exact h.reached other mem
  · intro next mem
    rcases List.mem_append.mp mem with mem | mem
    · exact h.waits next (List.mem_cons_of_mem _ mem)
    · exact .through first (listed next mem)
  · intro path mem
    rcases paths path mem with mem | found
    · obtain ⟨other, mem, found⟩ := h.found path mem
      exact ⟨other, Finset.mem_insert_of_mem mem, found⟩
    · exact ⟨_, Finset.mem_insert_self _ _, found⟩
  · exact bounded
  · intro below
    have covers := h.covers (Nat.lt_of_le_of_lt (Finset.card_le_card grows) below)
    constructor
    · intro other mem
      exact (covers.roots other mem).pop
    · intro other mem next required
      rcases Finset.mem_insert.mp mem with rfl | mem
      · exact requires below next required
      · exact (covers.requires other mem next required).pop
    · intro other mem path found
      rcases Finset.mem_insert.mp mem with rfl | mem
      · exact files below path found
      · exact grows (covers.files other mem path found)

/-- A round that parses a file of its own. -/
theorem Inv.parse {path : OsName} (h : Inv dir root (name :: queue) imports parsed)
    (fresh : ¬ (toAsciiLowercase name ∈ imports ∨ MAX_DEPENDENCIES ≤ parsed.card))
    (found : findFileCaseInsensitive dir (toAsciiLowercase name) = some path) (new : path ∉ parsed)
    (listed : ∀ next ∈ more, Requires dir (toAsciiLowercase name) next)
    (complete : ∀ next, Requires dir (toAsciiLowercase name) next → next ∈ more) :
    Inv dir root (queue ++ more) (insert (toAsciiLowercase name) imports) (insert path parsed) := by
  have room := not_or.mp fresh
  apply h.round
  · intro other mem
    rcases Finset.mem_insert.mp mem with rfl | mem
    · exact .inr found
    · exact .inl mem
  · exact Finset.subset_insert _ _
  · rw [Finset.card_insert_of_notMem new]
    omega
  · exact listed
  · intro _ next required
    exact .inr ⟨next, List.mem_append_right _ (complete next required), rfl⟩
  · intro _ other found'
    rw [found] at found'
    cases found'
    exact Finset.mem_insert_self _ _

/-- The loop keeps what it has to keep. -/
theorem Inv.collect (h : Inv dir root queue imports parsed) :
    Inv dir root [] (collect dir queue imports parsed).imports (collect dir queue imports parsed).parsed := by
  -- a round that parses nothing
  have idle {name : String} {queue : List String} {imports : Finset String} {parsed : Finset OsName}
      (h : Inv dir root (name :: queue) imports parsed)
      (requires : parsed.card < MAX_DEPENDENCIES → ∀ next, Requires dir (toAsciiLowercase name) next →
        toAsciiLowercase name ∈ imports)
      (files : parsed.card < MAX_DEPENDENCIES → ∀ path,
        findFileCaseInsensitive dir (toAsciiLowercase name) = some path → path ∈ parsed) :
      Inv dir root queue (insert (toAsciiLowercase name) imports) parsed := by
    have kept := @Inv.round _ _ _ _ [] _ _ _ h (fun _ mem => .inl mem) (Finset.Subset.refl _) h.bounded
      (fun _ never => by cases never)
      (fun below next required =>
        ((h.covers below).requires _ (requires below next required) next required).pop)
      files
    rw [List.append_nil] at kept
    exact kept
  induction queue, imports, parsed using collect.induct dir with
  | case1 imports parsed =>
    rw [ServerTools.collect]
    exact h
  | case2 imports parsed name queue lower skip ih =>
    rw [ServerTools.collect, if_pos skip]
    apply ih
    apply idle h
    · intro below _ _
      exact skip.resolve_right (Nat.not_le.mpr below)
    · intro below path found
      exact (h.covers below).files _ (skip.resolve_right (Nat.not_le.mpr below)) path found
  | case3 imports parsed name queue lower fresh absent ih =>
    replace absent : findFileCaseInsensitive dir (toAsciiLowercase name) = none := absent
    rw [ServerTools.collect, if_neg fresh]
    simp only [absent]
    apply ih
    apply idle h
    · intro _ next required
      obtain ⟨path, _, found, _⟩ := required
      rw [absent] at found
      cases found
    · intro _ path found
      rw [absent] at found
      cases found
  | case4 imports parsed name queue lower fresh path found again ih =>
    -- the file was found for a name that was seen, and has only one
    obtain ⟨other, mem, found'⟩ := h.found path again
    have same := eq_of_found found' found
    rw [h.lower other mem, toAsciiLowercase_idem] at same
    subst same
    exact absurd (.inl mem) fresh
  | case5 imports parsed name queue lower fresh path found new info parses ih =>
    replace found : findFileCaseInsensitive dir (toAsciiLowercase name) = some path := found
    rw [ServerTools.collect, if_neg fresh]
    simp only [found, if_neg new, parses]
    apply ih
    apply h.parse fresh found new
    · intro next listed
      exact ⟨path, info, found, parses, listed⟩
    · intro next required
      obtain ⟨path', info', found', parses', listed⟩ := required
      rw [found] at found'
      cases found'
      rw [parses] at parses'
      cases parses'
      exact listed
  | case6 imports parsed name queue lower fresh path found new unreadable ih =>
    replace found : findFileCaseInsensitive dir (toAsciiLowercase name) = some path := found
    rw [ServerTools.collect, if_neg fresh]
    simp only [found, if_neg new, unreadable]
    apply ih
    have kept := @Inv.parse _ _ _ _ [] _ _ _ h fresh found new (fun _ never => by cases never) ?_
    · rw [List.append_nil] at kept
      exact kept
    · intro next required
      obtain ⟨path', info', found', parses', _⟩ := required
      rw [found] at found'
      cases found'
      rw [unreadable] at parses'
      cases parses'

theorem inv_collected (dir : GameDir) (root : PeInfo) :
    Inv dir root [] (collectLocalImports dir root) (collect dir root.imports ∅ ∅).parsed :=
  inv_start.collect

theorem seen_nil {name : String} : Seen [] imports name ↔ toAsciiLowercase name ∈ imports := by
  simp [Seen]

theorem Inv.mem_of_reachable (h : Inv dir root [] imports parsed)
    (below : parsed.card < MAX_DEPENDENCIES) (reached : Reachable dir root name) : name ∈ imports := by
  induction reached with
  | root listed => exact seen_nil.mp ((h.covers below).roots _ listed)
  | through reached requires ih => exact seen_nil.mp ((h.covers below).requires _ ih _ requires)

theorem mem_collectLocalImports
    (below : (collect dir root.imports ∅ ∅).parsed.card < MAX_DEPENDENCIES) :
    name ∈ collectLocalImports dir root ↔ Reachable dir root name :=
  ⟨(inv_collected dir root).reached name, (inv_collected dir root).mem_of_reachable below⟩

/-! ## The order of the descriptors -/

/-- The same files, whose descriptors may come in another order. -/
structure SameButOrder (dir dir' : GameDir) (root root' : PeInfo) : Prop where
  roots : root.imports.Perm root'.imports
  files : ∀ name, findFileCaseInsensitive dir name = findFileCaseInsensitive dir' name
  parses : ∀ path, Option.Rel (fun info info' => info.imports.Perm info'.imports)
    (parsePe dir path) (parsePe dir' path)

variable {dir' : GameDir} {root' : PeInfo}

theorem SameButOrder.reachable (same : SameButOrder dir dir' root root')
    (reached : Reachable dir' root' name) : Reachable dir root name := by
  induction reached with
  | root listed => exact .root (same.roots.mem_iff.mpr listed)
  | @through name next reached requires ih =>
    obtain ⟨path, info', found, parses', listed⟩ := requires
    have related := same.parses path
    rw [parses'] at related
    cases parses : parsePe dir path with
    | none =>
      rw [parses] at related
      cases related
    | some info =>
      rw [parses] at related
      cases related with
      | some reordered =>
        refine .through ih ⟨path, info, ?_, parses, reordered.mem_iff.mpr listed⟩
        rw [same.files]
        exact found

theorem SameButOrder.symm (same : SameButOrder dir dir' root root') :
    SameButOrder dir' dir root' root where
  roots := same.roots.symm
  files name := (same.files name).symm
  parses path := by
    have related := same.parses path
    revert related
    generalize parsePe dir path = first
    generalize parsePe dir' path = second
    intro related
    cases related with
    | none => exact .none
    | some reordered => exact .some reordered.symm

/-- In another order, nothing else is parsed. -/
theorem SameButOrder.parsed_subset (same : SameButOrder dir dir' root root')
    (below : (collect dir root.imports ∅ ∅).parsed.card < MAX_DEPENDENCIES) :
    (collect dir' root'.imports ∅ ∅).parsed ⊆ (collect dir root.imports ∅ ∅).parsed := by
  intro path mem
  obtain ⟨name, seen, found⟩ := (inv_collected dir' root').found path mem
  have reached := same.reachable ((inv_collected dir' root').reached name seen)
  rw [← same.files] at found
  exact ((inv_collected dir root).covers below).files name
    ((mem_collectLocalImports below).mpr reached) path found

/-- **Local imports**: no more than `MAX_DEPENDENCIES` files are parsed, and where it is fewer, the
names are those that can be reached, in whichever order the descriptors come. -/
theorem local_import_closure (dir : GameDir) (root : PeInfo) :
    (collect dir root.imports ∅ ∅).parsed.card ≤ MAX_DEPENDENCIES ∧
      ((collect dir root.imports ∅ ∅).parsed.card < MAX_DEPENDENCIES →
        (∀ name, name ∈ collectLocalImports dir root ↔ Reachable dir root name) ∧
          ∀ dir' root', SameButOrder dir dir' root root' →
            (collect dir' root'.imports ∅ ∅).parsed.card < MAX_DEPENDENCIES ∧
              collectLocalImports dir' root' = collectLocalImports dir root) := by
  refine ⟨(inv_collected dir root).bounded, fun below => ⟨fun _ => mem_collectLocalImports below, ?_⟩⟩
  intro dir' root' same
  have below' := Nat.lt_of_le_of_lt (Finset.card_le_card (same.parsed_subset below)) below
  refine ⟨below', ?_⟩
  ext name
  rw [mem_collectLocalImports below, mem_collectLocalImports below']
  exact ⟨same.reachable, same.symm.reachable⟩

/-! ## What needs WebView2 -/

/-- An executable of the directory. -/
def executableRequiresWebview2 (dir : GameDir) (executable : OsName) : Bool :=
  match parsePe dir executable with
  | some root => "webview2loader.dll" ∈ collectLocalImports dir root
  | none => false

theorem executableRequiresWebview2_iff {executable : OsName} (parses : parsePe dir executable = some root)
    (below : (collect dir root.imports ∅ ∅).parsed.card < MAX_DEPENDENCIES) :
    executableRequiresWebview2 dir executable = true ↔ Reachable dir root "webview2loader.dll" := by
  unfold executableRequiresWebview2
  rw [parses, ← mem_collectLocalImports below]
  exact decide_eq_true_iff

end Closure

end RoLauncher.ServerTools
