import Mathlib.Data.List.Dedup

/-!
# Directory entries, as a program that never follows a link sees them

The part of a filesystem that crash recovery reads: what an entry is
(`Node`), what a directory holds (`Entries`), and the few updates a
directory goes through. A directory carries the identity `ino` it was
created with, which survives renaming, and the device `dev` it lives on.

`Entries` is an association list read through `find`: a later entry of the
same name is shadowed, `names` lists each name once, and every update works
by name. So each list stands for a directory, and none of the laws below
needs a side condition on it. The order of the list is the order in which
the directory is listed; it is arbitrary, like a real directory's.

`Part` is what an interrupted recursive deletion leaves: some entries gone,
some directories thinned out, nothing new.
-/

namespace RoLauncher.Files

/-- The content of a regular file: text, when it is valid UTF-8, or bytes. -/
inductive Blob where
  | text (s : String)
  | binary (bytes : List UInt8)
  deriving DecidableEq, Repr

namespace Blob

def size : Blob → Nat
  | .text s => s.utf8ByteSize
  | .binary bytes => bytes.length

/-- `read_to_string`: only UTF-8 content has a text. -/
def text? : Blob → Option String
  | .text s => some s
  | .binary _ => none

end Blob

/-- What a name in a directory stands for. A symbolic link carries what
following it reaches; `other` is a FIFO, a socket or a device. -/
inductive Node where
  | file (data : Blob)
  | dir (ino dev : Nat) (entries : List (String × Node))
  | symlink (target : Option Node)
  | other

abbrev Entries := List (String × Node)

/-- The kinds `symlink_metadata` tells apart. -/
inductive EntryKind where
  | missing
  | directory
  | file
  | other
  deriving DecidableEq, Repr

/-- Follow every link at this name. -/
def Node.follow : Node → Option Node
  | .symlink none => none
  | .symlink (some target) => target.follow
  | node => some node

/-- The kind of an entry, never following a link. -/
def Node.kind : Node → EntryKind
  | .file _ => .file
  | .dir _ _ _ => .directory
  | _ => .other

def entryKind : Option Node → EntryKind
  | none => .missing
  | some node => node.kind

theorem entryKind_eq_missing {node : Option Node} : entryKind node = .missing ↔ node = none := by
  rcases node with _ | (_ | _ | _ | _) <;> simp [entryKind, Node.kind]

theorem entryKind_eq_file {node : Option Node} :
    entryKind node = .file ↔ ∃ data, node = some (.file data) := by
  rcases node with _ | (_ | _ | _ | _) <;> simp [entryKind, Node.kind]

theorem entryKind_eq_directory {node : Option Node} :
    entryKind node = .directory ↔ ∃ ino dev es, node = some (.dir ino dev es) := by
  rcases node with _ | (_ | _ | _ | _) <;> simp [entryKind, Node.kind]

namespace Entries

def find : Entries → String → Option Node
  | [], _ => none
  | (name', node) :: rest, name => if name' = name then some node else find rest name

/-- The listing: each name once. -/
def names (es : Entries) : List String := (es.map Prod.fst).dedup

def erase (es : Entries) (name : String) : Entries := es.filter fun e => e.1 ≠ name

/-- Bind a name, replacing what it was bound to. -/
def put (es : Entries) (name : String) (node : Node) : Entries := es.erase name ++ [(name, node)]

/-- Rename inside the directory, replacing the destination. -/
def move (es : Entries) (source destination : String) : Entries :=
  match es.find source with
  | some node => (es.erase source).put destination node
  | none => es

/-- Change the visible entry of a name in place. -/
def thin (es : Entries) (name : String) (node : Node) : Entries :=
  match es with
  | [] => []
  | e :: rest => if e.1 = name then (name, node) :: rest else e :: thin rest name node

@[simp] theorem find_nil (name : String) : find [] name = none := rfl

theorem find_cons (e : String × Node) (rest : Entries) (name : String) :
    find (e :: rest) name = if e.1 = name then some e.2 else find rest name := rfl

theorem find_filter_of_pos {es : Entries} {k : String → Bool} {name : String}
    (h : k name = true) : find (es.filter fun e => k e.1) name = es.find name := by
  induction es with
  | nil => rfl
  | cons e rest ih =>
    rw [List.filter_cons]
    by_cases hn : e.1 = name
    · rw [if_pos (by rw [hn]; exact h), find_cons, find_cons, if_pos hn, if_pos hn]
    · rw [find_cons, if_neg hn, ← ih]
      split
      · rw [find_cons, if_neg hn]
      · rfl

theorem find_filter_of_neg {es : Entries} {k : String → Bool} {name : String}
    (h : k name = false) : find (es.filter fun e => k e.1) name = none := by
  induction es with
  | nil => rfl
  | cons e rest ih =>
    rw [List.filter_cons]
    split
    next hk =>
      have hn : e.1 ≠ name := fun hn => by rw [hn, h] at hk; cases hk
      rw [find_cons, if_neg hn, ih]
    next => exact ih

@[simp] theorem find_erase_self (es : Entries) (name : String) : (es.erase name).find name = none :=
  find_filter_of_neg (k := fun n => decide (n ≠ name)) (by simp)

theorem find_erase_of_ne {es : Entries} {name other : String} (h : other ≠ name) :
    (es.erase name).find other = es.find other :=
  find_filter_of_pos (k := fun n => decide (n ≠ name)) (by simp [h])

theorem find_append (es fs : Entries) (name : String) :
    find (es ++ fs) name = (es.find name).or (find fs name) := by
  induction es with
  | nil => rfl
  | cons e rest ih =>
    simp only [List.cons_append, find_cons, ih]
    split <;> simp

@[simp] theorem find_put_self (es : Entries) (name : String) (node : Node) :
    (es.put name node).find name = some node := by
  simp [put, find_append, find_cons]

theorem find_put_of_ne {es : Entries} {name other : String} {node : Node} (h : other ≠ name) :
    (es.put name node).find other = es.find other := by
  simp [put, find_append, find_cons, find_erase_of_ne h, h.symm]

theorem find_thin_of_ne {es : Entries} {name other : String} {node : Node} (h : other ≠ name) :
    (es.thin name node).find other = es.find other := by
  induction es with
  | nil => rfl
  | cons e rest ih =>
    rw [thin]
    split
    next hn => rw [find_cons, find_cons, if_neg h.symm, if_neg (by rw [hn]; exact h.symm)]
    next => rw [find_cons, find_cons, ih]

theorem find_move_source {es : Entries} {source destination : String} {node : Node}
    (found : es.find source = some node) (h : source ≠ destination) :
    (es.move source destination).find source = none := by
  simp [move, found, find_put_of_ne h]

theorem find_move_destination {es : Entries} {source destination : String} {node : Node}
    (found : es.find source = some node) :
    (es.move source destination).find destination = some node := by
  simp [move, found]

theorem find_move_of_ne {es : Entries} {source destination other : String}
    (hs : other ≠ source) (hd : other ≠ destination) :
    (es.move source destination).find other = es.find other := by
  unfold move
  split
  · rw [find_put_of_ne hd, find_erase_of_ne hs]
  · rfl

theorem mem_names {es : Entries} {name : String} : name ∈ es.names ↔ es.find name ≠ none := by
  rw [names, List.mem_dedup]
  induction es with
  | nil => simp
  | cons e rest ih =>
    rw [List.map_cons, List.mem_cons, find_cons]
    by_cases hn : e.1 = name
    · simp [hn]
    · rw [if_neg hn, ih]
      simp [Ne.symm hn]

theorem names_eq_nil {es : Entries} : es.names = [] ↔ es = [] := by
  simp [names, List.dedup_eq_nil]

theorem find_eq_none_of_nil_names {es : Entries} (h : es.names = []) (name : String) :
    es.find name = none := by
  rw [names_eq_nil.mp h, find_nil]

/-- A directory all of whose names are `last` is empty once `last` is erased. -/
theorem erase_eq_nil {es : Entries} {last : String} (h : ∀ name ∈ es.names, name = last) :
    es.erase last = [] := by
  apply List.filter_eq_nil_iff.mpr
  intro e he
  have hm : e.1 ∈ es.names := List.mem_dedup.mpr (List.mem_map_of_mem he)
  simp [h _ hm]

theorem mem_names_erase {es : Entries} {name other : String} (h : other ∈ (es.erase name).names) :
    other ∈ es.names ∧ other ≠ name := by
  have hne : other ≠ name := by
    rintro rfl
    exact mem_names.mp h (find_erase_self _ _)
  refine ⟨mem_names.mpr ?_, hne⟩
  rw [← find_erase_of_ne hne]
  exact mem_names.mp h

/-- Erasing what is not there changes nothing. -/
theorem erase_of_find_none {es : Entries} {name : String} (h : es.find name = none) :
    es.erase name = es := by
  apply List.filter_eq_self.mpr
  intro e he
  have hm : e.1 ∈ es.names := List.mem_dedup.mpr (List.mem_map_of_mem he)
  have hne : e.1 ≠ name := by
    rintro rfl
    exact mem_names.mp hm h
  simpa using hne

/-- The entries of the names an update does not concern. -/
theorem filter_erase {es : Entries} {k : String → Bool} {name : String} (h : k name = false) :
    ((es.erase name).filter fun e => k e.1) = es.filter fun e => k e.1 := by
  rw [erase, List.filter_filter]
  apply List.filter_congr
  intro e _
  by_cases hn : e.1 = name
  · simp [hn, h]
  · simp [hn]

end Entries

/-! ## What an interrupted deletion leaves -/

mutual

/-- `Part n' n`: `n'` is `n`, or a directory `n` with some of its content deleted. -/
inductive Part : Node → Node → Prop
  | refl (n : Node) : Part n n
  | dir {ino dev : Nat} {es' es : List (String × Node)} :
      PartOf es' es → Part (.dir ino dev es') (.dir ino dev es)

/-- The entries that are left of a directory, in place. -/
inductive PartOf : List (String × Node) → List (String × Node) → Prop
  | nil : PartOf [] []
  | drop {e : String × Node} {es' es : List (String × Node)} : PartOf es' es → PartOf es' (e :: es)
  | keep {name : String} {n' n : Node} {es' es : List (String × Node)} :
      Part n' n → PartOf es' es → PartOf ((name, n') :: es') ((name, n) :: es)

end

namespace PartOf

theorem refl : ∀ es : Entries, PartOf es es
  | [] => .nil
  | (_, n) :: es => .keep (.refl n) (refl es)

theorem filter (keep : String × Node → Bool) : ∀ es : Entries, PartOf (es.filter keep) es
  | [] => .nil
  | e :: es => by
    rw [List.filter_cons]
    split
    · exact .keep (.refl e.2) (filter keep es)
    · exact .drop (filter keep es)

theorem erase (es : Entries) (name : String) : PartOf (es.erase name) es := filter _ es

theorem thin {es : Entries} {name : String} {n' n : Node} (found : es.find name = some n)
    (part : Part n' n) : PartOf (es.thin name n') es := by
  induction es with
  | nil => cases found
  | cons e rest ih =>
    obtain ⟨name', node⟩ := e
    rw [Entries.find_cons] at found
    rw [Entries.thin]
    split
    next hn =>
      rw [if_pos hn] at found
      cases found
      subst hn
      exact .keep part (refl rest)
    next hn =>
      rw [if_neg hn] at found
      exact .keep (.refl node) (ih found)

/-- A deletion adds no name. -/
theorem find_eq_none {es' es : Entries} (h : PartOf es' es) {name : String}
    (absent : es.find name = none) : es'.find name = none := by
  have notMem : name ∉ es.map Prod.fst := fun hm =>
    Entries.mem_names.mp (List.mem_dedup.mpr hm) absent
  have sublist : List.Sublist (es'.map Prod.fst) (es.map Prod.fst) := by
    clear absent notMem
    induction es generalizing es' with
    | nil => cases h; exact .slnil
    | cons e rest ih =>
      cases h with
      | drop h => exact (ih h).cons _
      | keep _ h => exact (ih h).cons_cons _
  by_contra hf
  exact notMem (sublist.subset (List.mem_dedup.mp (Entries.mem_names.mpr hf)))

end PartOf

/-- `utils::backup_path` of a file name. -/
def backupName (name : String) : String := name ++ ".bak"

/-! ## Paths through links -/

/-- `Path::exists` below a node: every component, links included, resolves. -/
def Node.reaches (node : Node) : List String → Bool
  | [] => node.follow.isSome
  | name :: rest =>
    match node.follow with
    | some (.dir _ _ es) =>
      match Entries.find es name with
      | some child => child.reaches rest
      | none => false
    | _ => false

/-- The entries a path that ends at this node lists, links followed. -/
def Node.children (node : Node) : Entries :=
  match node.follow with
  | some (.dir _ _ es) => es
  | _ => []

/-- `symlink_metadata` of `node/name`: the links on the way are followed, the last one is not. -/
def child (node : Option Node) (name : String) : Option Node :=
  match node with
  | some n => n.children.find name
  | none => none

@[simp] theorem child_none (name : String) : child none name = none := rfl

@[simp] theorem child_dir (ino dev : Nat) (es : Entries) (name : String) :
    child (some (.dir ino dev es)) name = es.find name := rfl

end RoLauncher.Files
