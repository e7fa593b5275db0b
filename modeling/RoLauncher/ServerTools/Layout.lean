import Mathlib.Data.List.Induction
import Mathlib.Data.List.Pairwise
import Mathlib.Data.List.TakeWhile
import Mathlib.Data.Option.Basic
import RoLauncher.ServerTools.Pe

/-!
# What the layout of a PE file says it imports

An image is laid out in the file: its headers, as many data directories as it declares, its
section table, and in the raw data of its sections the lists of descriptors and the
names. What it imports is read off this layout, and `parsePeBytes` is compared
with it: what it finds for a directory that the image has is exactly that
(`importsFrom_of_table`), but it also reads the places where directories that are not
declared would be.
-/

namespace RoLauncher.ServerTools

open RoLauncher.Runtime (fromLeBytes)
open Text (fromUtf8Lossy toAsciiLowercase)

/-! ## Pieces of a file -/

section Pieces

variable {bytes first second : List UInt8} {offset count : Nat}

theorem get_eq_some {piece : List UInt8} :
    get bytes offset count = some piece ↔ offset + count ≤ bytes.length ∧ (bytes.drop offset).take count = piece := by
  unfold get
  split
  next inside => simp [inside]
  next outside => simp [outside]

theorem get_append (h : get bytes offset (first.length + second.length) = some (first ++ second)) :
    get bytes offset first.length = some first ∧
      get bytes (offset + first.length) second.length = some second := by
  obtain ⟨inside, same⟩ := get_eq_some.mp h
  refine ⟨get_eq_some.mpr ⟨by omega, ?_⟩, get_eq_some.mpr ⟨by omega, ?_⟩⟩
  · have front := congrArg (List.take first.length) same
    rwa [List.take_take, Nat.min_eq_left (Nat.le_add_right _ _), List.take_left] at front
  · have back := congrArg (List.drop first.length) same
    rwa [List.drop_take, List.drop_drop, List.drop_left, Nat.add_sub_cancel_left] at back

theorem readCString_of_get {name : List UInt8} (h : get bytes offset (name.length + 1) = some (name ++ [0]))
    (no_zero : ∀ byte ∈ name, byte ≠ 0) (positive : 0 < name.length) (short : name.length ≤ 260) :
    readCString bytes offset = some (fromUtf8Lossy name) := by
  obtain ⟨inside, same⟩ := get_eq_some.mp h
  have tail : bytes.drop offset = name ++ 0 :: (bytes.drop offset).drop (name.length + 1) := by
    conv => lhs; rw [← List.take_append_drop (name.length + 1) (bytes.drop offset), same]
    simp
  have text : (bytes.drop offset).takeWhile (· ≠ 0) = name := by
    rw [tail, List.takeWhile_append_of_pos (by simpa using no_zero)]
    simp
  have longer : name.length ≠ (bytes.drop offset).length := by
    rw [List.length_drop]
    omega
  unfold readCString
  rw [if_pos (by omega)]
  dsimp only
  rw [text, if_neg longer, if_neg (by omega)]

/-- What is read is a name of ordinary length, with the zero that ends it. -/
theorem get_of_readCString {text : String} (h : readCString bytes offset = some text) :
    ∃ name, get bytes offset (name.length + 1) = some (name ++ [0]) ∧ (∀ byte ∈ name, byte ≠ 0) ∧
      0 < name.length ∧ name.length ≤ 260 := by
  unfold readCString at h
  split at h
  next inside =>
    dsimp only at h
    split at h
    next => cases h
    next longer =>
      split at h
      next => cases h
      next ordinary =>
        obtain ⟨last, rest, stop⟩ : ∃ last rest, (bytes.drop offset).dropWhile (· ≠ 0) = last :: rest := by
          refine List.exists_cons_of_ne_nil fun none => longer ?_
          conv => rhs; rw [← List.takeWhile_append_dropWhile (p := (· ≠ 0)) (l := bytes.drop offset), none]
          rw [List.append_nil]
        have zero : last = 0 := by
          have ended := List.head?_dropWhile_not (· ≠ (0 : UInt8)) (bytes.drop offset)
          rw [stop] at ended
          simpa using ended
        have tail : bytes.drop offset = (bytes.drop offset).takeWhile (· ≠ 0) ++ 0 :: rest := by
          conv => lhs; rw [← List.takeWhile_append_dropWhile (p := (· ≠ 0)) (l := bytes.drop offset), stop, zero]
        have no_zero : ∀ byte ∈ (bytes.drop offset).takeWhile (· ≠ 0), byte ≠ 0 := fun byte mem => by
          simpa using List.mem_takeWhile_imp mem
        generalize (bytes.drop offset).takeWhile (· ≠ 0) = name at *
        have length := congrArg List.length tail
        rw [List.length_append, List.length_cons, List.length_drop] at length
        refine ⟨name, get_eq_some.mpr ⟨by omega, ?_⟩, no_zero, by omega, by omega⟩
        rw [tail, List.take_append, List.take_of_length_le (by omega), Nat.add_sub_cancel_left]
        rfl
  next => cases h

end Pieces

/-! ## Sections -/

/-- The addresses a section takes up, in memory and with its raw data. -/
def Section.stop (s : Section) : Nat := s.virtualAddress + max s.virtualSize s.rawSize

def Section.Apart (s s' : Section) : Prop := s.stop ≤ s'.virtualAddress ∨ s'.stop ≤ s.virtualAddress

/-- These bytes are at an address, in the raw data of a section. -/
structure Stored (bytes : List UInt8) (s : Section) (rva : Nat) (data : List UInt8) : Prop where
  low : s.virtualAddress ≤ rva
  inside : rva - s.virtualAddress + data.length ≤ s.rawSize
  data : get bytes (s.rawOffset + (rva - s.virtualAddress)) data.length = some data

theorem rvaToOffset_of_mem {sections : List Section} {s : Section} {rva : Nat}
    (apart : sections.Pairwise Section.Apart)
    (fits : ∀ s ∈ sections, s.stop < 2 ^ 32 ∧ s.rawOffset + s.rawSize < 2 ^ 32) (mem : s ∈ sections)
    (low : s.virtualAddress ≤ rva) (inside : rva - s.virtualAddress < s.rawSize) :
    rvaToOffset rva sections = some (s.rawOffset + (rva - s.virtualAddress)) := by
  induction sections with
  | nil => cases mem
  | cons first rest ih =>
    obtain ⟨stop, raw⟩ := fits first List.mem_cons_self
    have finish : checkedAdd first.virtualAddress (max first.virtualSize first.rawSize) = some first.stop :=
      if_pos stop
    rw [rvaToOffset]
    dsimp only
    rw [finish]
    change (if _ then _ else _) = _
    rcases List.mem_cons.mp mem with rfl | mem
    · have here : s.virtualAddress ≤ rva ∧ rva < s.stop := by
        unfold Section.stop
        omega
      rw [if_pos here, if_neg (by omega)]
      exact if_pos (by omega)
    · have elsewhere : ¬ (first.virtualAddress ≤ rva ∧ rva < first.stop) := by
        have apart := (List.pairwise_cons.mp apart).1 s mem
        unfold Section.Apart at apart
        unfold Section.stop at apart ⊢
        omega
      rw [if_neg elsewhere]
      exact ih (List.pairwise_cons.mp apart).2 (fun s mem => fits s (List.mem_cons_of_mem _ mem)) mem

/-! ## Lists of descriptors -/

/-- The loops over the two kinds of descriptors: how large one is, and what its name is. -/
def tableImports (bytes : List UInt8) (size : Nat) (nameOf : List UInt8 → Option String) :
    Nat → Nat → Option (List String)
  | 0, _ => some []
  | left + 1, descriptor => do
    let entry ← get bytes descriptor size
    if entry.all (· = 0) then return []
    else
      let names ← tableImports bytes size nameOf left (descriptor + size)
      return (nameOf entry).toList ++ names

section Tables

variable {bytes : List UInt8} {sections : List Section}

def normalName (bytes : List UInt8) (sections : List Section) (entry : List UInt8) : Option String :=
  nameAt bytes sections (fromLeBytes ((entry.drop 12).take 4))

def delayName (bytes : List UInt8) (sections : List Section) (imageBase : Nat) (entry : List UInt8) :
    Option String :=
  (delayNameRva imageBase entry).bind (nameAt bytes sections)

theorem normalImports_eq (left descriptor : Nat) :
    normalImports bytes sections left descriptor =
      tableImports bytes 20 (normalName bytes sections) left descriptor := by
  induction left generalizing descriptor with
  | zero => rfl
  | succ left ih =>
    rw [normalImports, tableImports]
    simp only [ih]
    rfl

theorem delayImports_eq (imageBase left descriptor : Nat) :
    delayImports bytes sections imageBase left descriptor =
      tableImports bytes 32 (delayName bytes sections imageBase) left descriptor := by
  induction left generalizing descriptor with
  | zero => rfl
  | succ left ih =>
    rw [delayImports, tableImports]
    simp only [ih]
    rfl

/-- A descriptor, and the name it leads to. -/
structure Descriptor where
  entry : List UInt8
  name : List UInt8

def Descriptor.lower (d : Descriptor) : String := toAsciiLowercase (fromUtf8Lossy d.name)

/-- The bytes of a list of descriptors; one of zeros ends it. -/
def table (size : Nat) (descriptors : List Descriptor) : List UInt8 :=
  descriptors.flatMap Descriptor.entry ++ List.replicate size 0

theorem tableImports_of_table {size left descriptor : Nat} {nameOf : List UInt8 → Option String}
    {descriptors : List Descriptor}
    (stored : get bytes descriptor (table size descriptors).length = some (table size descriptors))
    (each : ∀ d ∈ descriptors, d.entry.length = size ∧ (∃ byte ∈ d.entry, byte ≠ 0) ∧ nameOf d.entry = some d.lower)
    (few : descriptors.length < left) :
    tableImports bytes size nameOf left descriptor = some (descriptors.map Descriptor.lower) := by
  induction descriptors generalizing left descriptor with
  | nil =>
    obtain ⟨left, rfl⟩ := Nat.exists_eq_succ_of_ne_zero (Nat.ne_of_gt few)
    have zeros : get bytes descriptor size = some (List.replicate size 0) := by
      have stored' := stored
      rw [table, List.flatMap_nil, List.nil_append, List.length_replicate] at stored'
      exact stored'
    rw [tableImports, zeros]
    simp
  | cons d rest ih =>
    obtain ⟨left, rfl⟩ := Nat.exists_eq_succ_of_ne_zero (Nat.ne_of_gt (Nat.zero_lt_of_lt few))
    obtain ⟨length, some, name⟩ := each d List.mem_cons_self
    have whole : table size (d :: rest) = d.entry ++ table size rest := by
      rw [table, List.flatMap_cons, List.append_assoc]
      rfl
    rw [whole, List.length_append] at stored
    obtain ⟨first, others⟩ := get_append stored
    rw [length] at first others
    have names := ih others (fun d mem => each d (List.mem_cons_of_mem _ mem)) (Nat.lt_of_succ_lt_succ few)
    rw [tableImports, first]
    simp only [Option.bind_eq_bind, Option.bind_some, names, name, List.map_cons]
    rw [if_neg]
    · rfl
    · obtain ⟨byte, mem, nonzero⟩ := some
      intro zeros
      exact nonzero (of_decide_eq_true (List.all_eq_true.mp zeros byte mem))

/-- A name of ordinary length at an address, with the zero that ends it. -/
structure NameAt (bytes : List UInt8) (sections : List Section) (rva : Nat) (name : List UInt8) : Prop where
  stored : ∃ s ∈ sections, Stored bytes s rva (name ++ [0])
  no_zero : ∀ byte ∈ name, byte ≠ 0
  positive : 0 < name.length
  short : name.length ≤ 260

/-- The sections do not overlap, and their addresses and raw data are of 32 bits. -/
structure Placed (sections : List Section) : Prop where
  apart : sections.Pairwise Section.Apart
  fits : ∀ s ∈ sections, s.stop < 2 ^ 32 ∧ s.rawOffset + s.rawSize < 2 ^ 32

theorem Stored.offset {s : Section} {rva : Nat} {data : List UInt8} (placed : Placed sections)
    (h : Stored bytes s rva data) (mem : s ∈ sections) (nonempty : data ≠ []) :
    rvaToOffset rva sections = some (s.rawOffset + (rva - s.virtualAddress)) := by
  have positive := List.length_pos_iff.mpr nonempty
  have inside := h.inside
  exact rvaToOffset_of_mem placed.apart placed.fits mem h.low (by omega)

theorem nameAt_of_name {rva : Nat} {name : List UInt8} (placed : Placed sections)
    (h : NameAt bytes sections rva name) :
    nameAt bytes sections rva = some (toAsciiLowercase (fromUtf8Lossy name)) := by
  obtain ⟨s, mem, stored⟩ := h.stored
  have data := stored.data
  rw [List.length_append, List.length_singleton] at data
  rw [nameAt, stored.offset placed mem (by simp)]
  simp only [Option.bind_eq_bind, Option.bind_some, readCString_of_get data h.no_zero h.positive h.short]
  rfl

/-- Where in the file an address is: in the raw data of its section, or, outside all sections, at
itself. -/
def FileOffset (sections : List Section) (rva offset : Nat) : Prop :=
  (∃ s ∈ sections, s.virtualAddress ≤ rva ∧ rva - s.virtualAddress < s.rawSize ∧
    offset = s.rawOffset + (rva - s.virtualAddress)) ∨
  (∀ s ∈ sections, rva < s.virtualAddress ∨ s.stop ≤ rva) ∧ offset = rva

theorem rvaToOffset_outside {rva : Nat} (fits : ∀ s ∈ sections, s.stop < 2 ^ 32)
    (outside : ∀ s ∈ sections, rva < s.virtualAddress ∨ s.stop ≤ rva) :
    rvaToOffset rva sections = some rva := by
  induction sections with
  | nil => rfl
  | cons first rest ih =>
    have finish : checkedAdd first.virtualAddress (max first.virtualSize first.rawSize) = some first.stop :=
      if_pos (fits first List.mem_cons_self)
    rw [rvaToOffset]
    dsimp only
    rw [finish]
    change (if _ then _ else _) = _
    have elsewhere := outside first List.mem_cons_self
    rw [if_neg (by omega)]
    exact ih (fun s mem => fits s (List.mem_cons_of_mem _ mem)) fun s mem => outside s (List.mem_cons_of_mem _ mem)

theorem fileOffset_of_rvaToOffset {rva offset : Nat} (fits : ∀ s ∈ sections, s.stop < 2 ^ 32)
    (h : rvaToOffset rva sections = some offset) : FileOffset sections rva offset := by
  induction sections with
  | nil =>
    cases h
    exact .inr ⟨fun s never => absurd never List.not_mem_nil, rfl⟩
  | cons first rest ih =>
    have finish : checkedAdd first.virtualAddress (max first.virtualSize first.rawSize) = some first.stop :=
      if_pos (fits first List.mem_cons_self)
    rw [rvaToOffset] at h
    dsimp only at h
    rw [finish] at h
    change (if _ then _ else _) = _ at h
    split at h
    next within =>
      split at h
      next => cases h
      next inside =>
        refine .inl ⟨first, List.mem_cons_self, within.1, by omega, ?_⟩
        unfold checkedAdd at h
        split at h
        · exact (Option.some.inj h).symm
        · cases h
    next beside =>
      refine (ih (fun s mem => fits s (List.mem_cons_of_mem _ mem)) h).imp ?_ ?_
      · rintro ⟨s, mem, found⟩
        exact ⟨s, List.mem_cons_of_mem _ mem, found⟩
      · rintro ⟨outside, same⟩
        refine ⟨fun s mem => ?_, same⟩
        rcases List.mem_cons.mp mem with rfl | mem
        · omega
        · exact outside s mem

theorem rvaToOffset_eq_some {rva offset : Nat} (placed : Placed sections) :
    rvaToOffset rva sections = some offset ↔ FileOffset sections rva offset := by
  refine ⟨fileOffset_of_rvaToOffset fun s mem => (placed.fits s mem).1, ?_⟩
  rintro (⟨s, mem, low, inside, rfl⟩ | ⟨outside, rfl⟩)
  · exact rvaToOffset_of_mem placed.apart placed.fits mem low inside
  · exact rvaToOffset_outside (fun s mem => (placed.fits s mem).1) outside

/-- A name of ordinary length can be read at an address. -/
structure Readable (bytes : List UInt8) (sections : List Section) (rva : Nat) (name : List UInt8) : Prop where
  stored : ∃ offset, FileOffset sections rva offset ∧ get bytes offset (name.length + 1) = some (name ++ [0])
  no_zero : ∀ byte ∈ name, byte ≠ 0
  positive : 0 < name.length
  short : name.length ≤ 260

theorem nameAt_eq_none {rva : Nat} (placed : Placed sections) :
    nameAt bytes sections rva = none ↔ ∀ name, ¬ Readable bytes sections rva name := by
  constructor
  · intro unread name h
    obtain ⟨offset, located, stored⟩ := h.stored
    rw [nameAt, (rvaToOffset_eq_some placed).mpr located] at unread
    simp only [Option.bind_eq_bind, Option.bind_some,
      readCString_of_get stored h.no_zero h.positive h.short] at unread
    cases unread
  · intro unread
    rw [Option.eq_none_iff_forall_ne_some]
    intro text found
    obtain ⟨offset, located, found⟩ := Option.bind_eq_some_iff.mp found
    obtain ⟨text, read, -⟩ := Option.bind_eq_some_iff.mp found
    obtain ⟨name, stored, no_zero, positive, short⟩ := get_of_readCString read
    exact unread name ⟨⟨offset, (rvaToOffset_eq_some placed).mp located, stored⟩, no_zero, positive, short⟩

/-- Descriptors of one kind in their table, fewer than are read. -/
structure TableAt (bytes : List UInt8) (sections : List Section) (size rva : Nat)
    (address : List UInt8 → Nat → Prop) (descriptors : List Descriptor) : Prop where
  stored : ∃ s ∈ sections, Stored bytes s rva (table size descriptors)
  entries : ∀ d ∈ descriptors, d.entry.length = size ∧ (∃ byte ∈ d.entry, byte ≠ 0) ∧
    ∃ rva, address d.entry rva ∧ NameAt bytes sections rva d.name
  few : descriptors.length < MAX_DEPENDENCIES

/-- The address of the name in a normal descriptor. -/
def NormalAddress (entry : List UInt8) (rva : Nat) : Prop := fromLeBytes ((entry.drop 12).take 4) = rva

/-- The address of the name in a delay-import descriptor, which says whether it counts from the image
base. -/
def DelayAddress (imageBase : Nat) (entry : List UInt8) (rva : Nat) : Prop :=
  fromLeBytes ((entry.drop 4).take 4) = if fromLeBytes (entry.take 4) % 2 = 1 then rva else imageBase + rva

theorem delayNameRva_of_address {imageBase rva : Nat} {entry : List UInt8} (h : DelayAddress imageBase entry rva) :
    delayNameRva imageBase entry = some rva := by
  unfold DelayAddress at h
  unfold delayNameRva
  dsimp only
  rw [h]
  by_cases relative : fromLeBytes (entry.take 4) % 2 = 1
  · rw [if_pos relative, if_pos (by omega)]
  · rw [if_neg relative, if_neg (by omega), if_pos (Nat.le_add_right _ _), Nat.add_sub_cancel_left]

theorem address_of_delayNameRva {imageBase rva : Nat} {entry : List UInt8}
    (h : delayNameRva imageBase entry = some rva) : DelayAddress imageBase entry rva := by
  unfold delayNameRva at h
  dsimp only at h
  unfold DelayAddress
  split at h
  next relative =>
    rw [if_pos (by omega)]
    exact Option.some.inj h
  next absolute =>
    split at h
    next above =>
      have same := Option.some.inj h
      rw [if_neg (by omega)]
      omega
    next => cases h

/-- A list of descriptors at an address, of which none has a name that can be read: those before the
one of zeros, or before the limit, are all in the file. -/
def Nameless (bytes : List UInt8) (sections : List Section) (size : Nat)
    (address : List UInt8 → Nat → Prop) (rva : Nat) : Prop :=
  ∃ offset count, FileOffset sections rva offset ∧ count ≤ MAX_DEPENDENCIES ∧
    (∀ i < count, ∃ entry, get bytes (offset + i * size) size = some entry ∧ (∃ byte ∈ entry, byte ≠ 0) ∧
      ∀ rva name, address entry rva → ¬ Readable bytes sections rva name) ∧
    (count = MAX_DEPENDENCIES ∨ get bytes (offset + count * size) size = some (List.replicate size 0))

theorem all_zero_iff {size descriptor : Nat} {entry : List UInt8} (h : get bytes descriptor size = some entry) :
    entry.all (· = 0) = true ↔ entry = List.replicate size 0 := by
  obtain ⟨inside, rfl⟩ := get_eq_some.mp h
  rw [List.eq_replicate_iff, List.length_take, List.length_drop, List.all_eq_true]
  constructor
  · intro zeros
    exact ⟨by omega, fun byte mem => of_decide_eq_true (zeros byte mem)⟩
  · rintro ⟨-, zeros⟩ byte mem
    exact decide_eq_true (zeros byte mem)

/-- The loop finds nothing exactly in a list without names. -/
theorem tableImports_eq_nil {size left descriptor : Nat} {nameOf : List UInt8 → Option String} :
    tableImports bytes size nameOf left descriptor = some [] ↔ ∃ count ≤ left,
      (∀ i < count, ∃ entry, get bytes (descriptor + i * size) size = some entry ∧
        (∃ byte ∈ entry, byte ≠ 0) ∧ nameOf entry = none) ∧
      (count = left ∨ get bytes (descriptor + count * size) size = some (List.replicate size 0)) := by
  induction left generalizing descriptor with
  | zero => exact iff_of_true rfl ⟨0, Nat.le_refl _, fun _ never => absurd never (Nat.not_lt_zero _), .inl rfl⟩
  | succ left ih =>
    have shift (i : Nat) : descriptor + (i + 1) * size = descriptor + size + i * size := by
      rw [Nat.succ_mul, Nat.add_assoc, Nat.add_comm (i * size)]
    rw [tableImports]
    cases read : get bytes descriptor size with
    | none =>
      refine iff_of_false (fun found => by cases found) ?_
      rintro ⟨count, -, entries, ended⟩
      have first : get bytes (descriptor + 0 * size) size = none := by rw [Nat.zero_mul, Nat.add_zero, read]
      cases count with
      | zero =>
        rw [first] at ended
        simp at ended
      | succ count =>
        obtain ⟨entry, here, -⟩ := entries 0 (Nat.succ_pos _)
        rw [first] at here
        cases here
    | some entry =>
      have first : get bytes (descriptor + 0 * size) size = some entry := by rw [Nat.zero_mul, Nat.add_zero, read]
      simp only [Option.bind_eq_bind, Option.bind_some]
      by_cases zeros : entry.all (· = 0) = true
      · rw [if_pos zeros]
        refine iff_of_true rfl ⟨0, Nat.zero_le _, fun _ never => absurd never (Nat.not_lt_zero _), .inr ?_⟩
        rw [first, (all_zero_iff read).mp zeros]
      rw [if_neg zeros]
      have nonzero : ∃ byte ∈ entry, byte ≠ 0 := by
        simpa [List.all_eq_true] using zeros
      constructor
      · intro found
        obtain ⟨names, rest, found⟩ := Option.bind_eq_some_iff.mp found
        obtain ⟨unnamed, rfl⟩ := List.append_eq_nil_iff.mp (Option.some.inj found)
        obtain ⟨count, bounded, entries, ended⟩ := ih.mp rest
        refine ⟨count + 1, Nat.succ_le_succ bounded, fun i below => ?_, ended.imp (congrArg Nat.succ) fun here => ?_⟩
        · cases i with
          | zero => exact ⟨entry, first, nonzero, Option.toList_eq_nil_iff.mp unnamed⟩
          | succ i =>
            rw [shift]
            exact entries i (Nat.lt_of_succ_lt_succ below)
        · rwa [shift]
      · rintro ⟨count, bounded, entries, ended⟩
        cases count with
        | zero =>
          rcases ended with ended | ended
          · cases ended
          · rw [first] at ended
            exact absurd ((all_zero_iff read).mpr (Option.some.inj ended)) zeros
        | succ count =>
          obtain ⟨entry', here, -, unnamed⟩ := entries 0 (Nat.succ_pos _)
          rw [first] at here
          cases here
          have rest : tableImports bytes size nameOf left (descriptor + size) = some [] := by
            refine ih.mpr ⟨count, Nat.le_of_succ_le_succ bounded, fun i below => ?_, ended.imp Nat.succ.inj fun last => ?_⟩
            · rw [← shift]
              exact entries (i + 1) (Nat.succ_lt_succ below)
            · rwa [← shift]
          rw [rest, unnamed]
          rfl

/-- What is found at an address is nothing exactly when no name can be read there. -/
theorem importsFrom_eq_nil {size rva : Nat} {address : List UInt8 → Nat → Prop}
    {loop : Nat → Nat → Option (List String)} {nameOf : List UInt8 → Option String} (placed : Placed sections)
    (loop_eq : ∀ left descriptor, loop left descriptor = tableImports bytes size nameOf left descriptor)
    (unnamed : ∀ entry, nameOf entry = none ↔ ∀ rva, address entry rva → nameAt bytes sections rva = none) :
    importsFrom sections loop rva = some [] ↔ rva = 0 ∨ Nameless bytes sections size address rva := by
  by_cases zero : rva = 0
  · rw [importsFrom, if_neg (not_not.mpr zero)]
    exact iff_of_true rfl (.inl zero)
  rw [importsFrom, if_pos zero, or_iff_right zero, Option.bind_eq_bind, Option.bind_eq_some_iff]
  have silent (entry : List UInt8) : nameOf entry = none ↔
      ∀ rva name, address entry rva → ¬ Readable bytes sections rva name := by
    rw [unnamed]
    refine forall_congr' fun rva => ?_
    rw [forall_comm]
    refine forall_congr' fun _ => nameAt_eq_none placed
  constructor
  · rintro ⟨offset, located, found⟩
    rw [loop_eq, tableImports_eq_nil] at found
    obtain ⟨count, bounded, entries, ended⟩ := found
    refine ⟨offset, count, (rvaToOffset_eq_some placed).mp located, bounded, fun i below => ?_, ended⟩
    obtain ⟨entry, here, nonzero, none⟩ := entries i below
    exact ⟨entry, here, nonzero, (silent entry).mp none⟩
  · rintro ⟨offset, count, located, bounded, entries, ended⟩
    refine ⟨offset, (rvaToOffset_eq_some placed).mpr located, ?_⟩
    rw [loop_eq, tableImports_eq_nil]
    refine ⟨count, bounded, fun i below => ?_, ended⟩
    obtain ⟨entry, here, nonzero, unread⟩ := entries i below
    exact ⟨entry, here, nonzero, (silent entry).mpr unread⟩

/-- What is found for a directory is what its table lists. -/
theorem importsFrom_of_table {size rva : Nat} {address : List UInt8 → Nat → Prop} {descriptors : List Descriptor}
    {loop : Nat → Nat → Option (List String)} {nameOf : List UInt8 → Option String} (placed : Placed sections)
    (loop_eq : ∀ left descriptor, loop left descriptor = tableImports bytes size nameOf left descriptor)
    (name : ∀ entry rva, address entry rva → nameOf entry = nameAt bytes sections rva) (positive : 0 < size)
    (present : rva ≠ 0) (h : TableAt bytes sections size rva address descriptors) :
    importsFrom sections loop rva = some (descriptors.map Descriptor.lower) := by
  obtain ⟨s, mem, stored⟩ := h.stored
  have data : table size descriptors ≠ [] := by
    intro none
    have zeros := (List.append_eq_nil_iff.mp none).2
    rw [List.replicate_eq_nil_iff] at zeros
    exact Nat.ne_of_gt positive zeros
  rw [importsFrom, if_pos present, stored.offset placed mem data]
  simp only [Option.bind_eq_bind, Option.bind_some, loop_eq]
  apply tableImports_of_table stored.data _ h.few
  intro d mem
  obtain ⟨length, nonzero, rva, address, named⟩ := h.entries d mem
  refine ⟨length, nonzero, ?_⟩
  rw [name _ _ address, nameAt_of_name placed named]
  rfl

end Tables

/-! ## Images -/

/-- Where the data directories of an optional header start. -/
def directoriesAt (pe : Nat) (wide : Bool) : Nat := pe + 24 + if wide then 112 else 96

/-- An image in a file: its headers, the directories it declares, its sections, and what is listed
in them. -/
structure Image (bytes : List UInt8) where
  pe : Nat
  machine : Nat
  wide : Bool
  imageBase : Nat
  directories : Nat
  optionalSize : Nat
  sections : List Section
  normal : List Descriptor
  delayed : List Descriptor
  dos : get bytes 0 2 = some [0x4D, 0x5A]
  header : readU32 bytes 0x3c = some pe
  signature : get bytes pe 4 = some [0x50, 0x45, 0, 0]
  machineAt : readU16 bytes (pe + 4) = some machine
  count : readU16 bytes (pe + 4 + 2) = some sections.length
  sizeAt : readU16 bytes (pe + 4 + 16) = some optionalSize
  magic : readU16 bytes (pe + 24) = some (if wide then 0x20b else 0x10b)
  base : (if wide then readU64 bytes (pe + 24 + 24) else readU32 bytes (pe + 24 + 28)) = some imageBase
  declared : readU32 bytes (directoriesAt pe wide - 4) = some directories
  few : directories ≤ 16
  room : directoriesAt pe wide + 8 * directories ≤ pe + 24 + optionalSize
  inFile : pe + 24 + optionalSize ≤ bytes.length
  sectionCount : sections.length ≤ 96
  sectionAt : ∀ i s, sections[i]? = some s → parseSection bytes (pe + 24 + optionalSize + i * 40) = some s
  placed : Placed sections
  normalAt : ∀ rva, 1 < directories → readU32 bytes (directoriesAt pe wide + 1 * 8) = some rva → rva ≠ 0 →
    TableAt bytes sections 20 rva NormalAddress normal
  delayedAt : ∀ rva, 13 < directories → readU32 bytes (directoriesAt pe wide + 13 * 8) = some rva → rva ≠ 0 →
    TableAt bytes sections 32 rva (DelayAddress imageBase) delayed

namespace Image

variable {bytes : List UInt8} (image : Image bytes)

/-- The address in a directory; one that is not declared, or is empty, has none. -/
def directory (i : Nat) : Nat :=
  if i < image.directories then (readU32 bytes (directoriesAt image.pe image.wide + i * 8)).getD 0 else 0

/-- The names the image lists, in order. -/
def names : List String :=
  (if image.directory 1 = 0 then [] else image.normal.map Descriptor.lower) ++
    if image.directory 13 = 0 then [] else image.delayed.map Descriptor.lower

def managed : Bool := image.directory 14 ≠ 0

/-- The bytes where a directory would be that the image does not declare are zeros, or the address of
descriptors without names. Those of the import directory are there. -/
structure NothingUndeclared : Prop where
  normal : image.directories ≤ 1 → ∃ rva, readU32 bytes (directoriesAt image.pe image.wide + 1 * 8) = some rva ∧
    (rva = 0 ∨ Nameless bytes image.sections 20 NormalAddress rva)
  delayed : image.directories ≤ 13 → ∀ rva, readU32 bytes (directoriesAt image.pe image.wide + 13 * 8) = some rva →
    rva = 0 ∨ Nameless bytes image.sections 32 (DelayAddress image.imageBase) rva
  managed : image.directories ≤ 14 → ∀ rva, readU32 bytes (directoriesAt image.pe image.wide + 14 * 8) = some rva →
    rva = 0

theorem mapM_range {α : Type} {f : Nat → Option α} {xs : List α} (h : ∀ i x, xs[i]? = some x → f i = some x) :
    (List.range xs.length).mapM f = some xs := by
  induction xs using List.reverseRecOn with
  | nil => rfl
  | append_singleton xs x ih =>
    have last : f xs.length = some x := h _ _ (by simp)
    have front := ih fun i y found => h i y (by
      have inside := (List.getElem?_eq_some_iff.mp found).1
      rw [List.getElem?_append_left inside, found])
    rw [List.length_append, List.length_singleton, List.range_succ, List.mapM_append, front]
    simp [last]

theorem parseSections_eq :
    parseSections bytes (image.pe + 24 + image.optionalSize) image.sections.length = some image.sections := by
  have sectionCount := image.sectionCount
  rw [parseSections, if_neg (by omega)]
  exact mapM_range image.sectionAt

/-- A declared directory can be read. -/
theorem readU32_declared {i : Nat} (declared : i < image.directories) :
    readU32 bytes (directoriesAt image.pe image.wide + i * 8) = some (image.directory i) := by
  have room := image.room
  have inFile := image.inFile
  rw [directory, if_pos declared, readU32, get, if_pos (by omega)]
  rfl

theorem optionalHeader_eq : ∃ architecture, optionalHeader bytes (image.pe + 24) =
    some (directoriesAt image.pe image.wide, architecture, image.imageBase) := by
  have magic := image.magic
  have base := image.base
  unfold optionalHeader directoriesAt
  cases wide : image.wide with
  | false =>
    rw [wide] at magic base
    simp only [Bool.false_eq_true, if_false] at magic base
    simp only [magic, base]
    exact ⟨_, rfl⟩
  | true =>
    rw [wide] at magic base
    simp only [if_true] at magic base
    simp only [magic, base]
    exact ⟨_, rfl⟩

/-- What is left of the parser when the headers are those of the image. -/
theorem parse_eq : ∃ architecture, parsePeBytes bytes = do
    let importRva ← readU32 bytes (directoriesAt image.pe image.wide + 8)
    let normal ← importsFrom image.sections (normalImports bytes image.sections) importRva
    let delayed ← importsFrom image.sections (delayImports bytes image.sections image.imageBase)
      ((readU32 bytes (directoriesAt image.pe image.wide + 13 * 8)).getD 0)
    return ⟨some architecture, normal ++ delayed,
      (readU32 bytes (directoriesAt image.pe image.wide + 14 * 8)).getD 0 ≠ 0⟩ := by
  obtain ⟨fallback, optional⟩ := image.optionalHeader_eq
  refine ⟨architectureOf image.machine fallback, ?_⟩
  have optional' : optionalHeader bytes (image.pe + 4 + 20) = _ := optional
  have sections : parseSections bytes (image.pe + 4 + 20 + image.optionalSize) image.sections.length = _ :=
    image.parseSections_eq
  unfold parsePeBytes
  simp only [image.dos, image.header, image.signature, image.machineAt, image.count, image.sizeAt, optional',
    sections, Option.bind_eq_bind, Option.bind_some, guard_true, Option.pure_def]

/-- What is found for the import directory. -/
theorem normal_found {rva : Nat} (declared : 1 < image.directories)
    (h : readU32 bytes (directoriesAt image.pe image.wide + 1 * 8) = some rva) :
    importsFrom image.sections (normalImports bytes image.sections) rva =
      some (if image.directory 1 = 0 then [] else image.normal.map Descriptor.lower) := by
  have same : image.directory 1 = rva := by
    rw [image.readU32_declared declared] at h
    exact Option.some.inj h
  rw [same]
  by_cases none : rva = 0
  · rw [none, if_pos rfl]
    rfl
  · rw [if_neg none]
    apply importsFrom_of_table image.placed normalImports_eq _ (by decide) none (image.normalAt rva declared h none)
    rintro entry rva rfl
    rfl

theorem delayed_found (declared : 13 < image.directories) :
    importsFrom image.sections (delayImports bytes image.sections image.imageBase)
        ((readU32 bytes (directoriesAt image.pe image.wide + 13 * 8)).getD 0) =
      some (if image.directory 13 = 0 then [] else image.delayed.map Descriptor.lower) := by
  have h := image.readU32_declared declared
  rw [h, Option.getD_some]
  by_cases none : image.directory 13 = 0
  · rw [if_pos none, none]
    rfl
  · rw [if_neg none]
    apply importsFrom_of_table image.placed (delayImports_eq image.imageBase) _ (by decide) none
      (image.delayedAt _ declared h none)
    intro entry rva address
    rw [delayName, delayNameRva_of_address address]
    rfl

theorem directory_undeclared {i : Nat} (undeclared : image.directories ≤ i) : image.directory i = 0 :=
  if_neg (Nat.not_lt.mpr undeclared)

/-- Nothing is found in what lies at the place of the import directory. -/
theorem normal_eq_nil {rva : Nat} : importsFrom image.sections (normalImports bytes image.sections) rva = some [] ↔
    rva = 0 ∨ Nameless bytes image.sections 20 NormalAddress rva := by
  refine importsFrom_eq_nil image.placed normalImports_eq fun entry => ⟨?_, fun h => h _ rfl⟩
  rintro none rva rfl
  exact none

theorem delayed_eq_nil {read : Option Nat} :
    importsFrom image.sections (delayImports bytes image.sections image.imageBase) (read.getD 0) = some [] ↔
      ∀ rva, read = some rva → rva = 0 ∨ Nameless bytes image.sections 32 (DelayAddress image.imageBase) rva := by
  have unnamed (entry : List UInt8) : delayName bytes image.sections image.imageBase entry = none ↔
      ∀ rva, DelayAddress image.imageBase entry rva → nameAt bytes image.sections rva = none := by
    rw [delayName, Option.bind_eq_none_iff]
    exact forall_congr' fun rva => ⟨fun none address => none (delayNameRva_of_address address),
      fun none located => none (address_of_delayNameRva located)⟩
  rw [importsFrom_eq_nil image.placed (delayImports_eq image.imageBase) unnamed]
  cases read with
  | none => exact iff_of_true (.inl rfl) fun _ never => absurd never (Option.some_ne_none _).symm
  | some rva => simp

/-- The parser's result, part by part. -/
theorem parse_names {names : List String} {managed : Bool} :
    (parsePeBytes bytes).map (fun info => (info.imports, info.managed)) = some (names, managed) ↔
      ∃ rva normal delayed, readU32 bytes (directoriesAt image.pe image.wide + 1 * 8) = some rva ∧
        importsFrom image.sections (normalImports bytes image.sections) rva = some normal ∧
        importsFrom image.sections (delayImports bytes image.sections image.imageBase)
          ((readU32 bytes (directoriesAt image.pe image.wide + 13 * 8)).getD 0) = some delayed ∧
        normal ++ delayed = names ∧
        decide ((readU32 bytes (directoriesAt image.pe image.wide + 14 * 8)).getD 0 ≠ 0) = managed := by
  obtain ⟨architecture, parsed⟩ := image.parse_eq
  rw [parsed, Option.map_eq_some_iff]
  constructor
  · rintro ⟨info, found, same⟩
    obtain ⟨rva, at_rva, found⟩ := Option.bind_eq_some_iff.mp found
    obtain ⟨normal, at_normal, found⟩ := Option.bind_eq_some_iff.mp found
    obtain ⟨delayed, at_delayed, found⟩ := Option.bind_eq_some_iff.mp found
    cases found
    cases same
    exact ⟨rva, normal, delayed, at_rva, at_normal, at_delayed, rfl, rfl⟩
  · rintro ⟨rva, normal, delayed, at_rva, at_normal, at_delayed, rfl, rfl⟩
    rw [Nat.one_mul] at at_rva
    refine ⟨⟨some architecture, normal ++ delayed,
      (readU32 bytes (directoriesAt image.pe image.wide + 14 * 8)).getD 0 ≠ 0⟩, ?_, rfl⟩
    rw [at_rva]
    simp only [Option.bind_eq_bind, Option.bind_some, at_normal, at_delayed]
    rfl

/-- **The parser finds what an image imports** exactly when nothing is found where the directories
would be that the image does not declare. -/
theorem imports_complete_iff :
    (parsePeBytes bytes).map (fun info => (info.imports, info.managed)) = some (image.names, image.managed) ↔
      image.NothingUndeclared := by
  rw [parse_names]
  constructor
  · rintro ⟨rva, normal, delayed, at_rva, at_normal, at_delayed, names, managed⟩
    refine ⟨?_, ?_, ?_⟩
    · intro undeclared
      have none : normal ++ delayed = [] := by
        rw [names, Image.names, image.directory_undeclared undeclared,
          image.directory_undeclared (Nat.le_trans undeclared (by decide))]
        rfl
      rw [(List.append_eq_nil_iff.mp none).1] at at_normal
      exact ⟨rva, at_rva, image.normal_eq_nil.mp at_normal⟩
    · intro undeclared
      refine image.delayed_eq_nil.mp ?_
      rw [at_delayed]
      rw [Image.names, image.directory_undeclared undeclared, if_pos rfl, List.append_nil] at names
      by_cases declared : 1 < image.directories
      · rw [image.normal_found declared at_rva] at at_normal
        rw [← names] at at_normal
        have none : delayed = [] := by simpa using Option.some.inj at_normal
        rw [none]
      · rw [image.directory_undeclared (Nat.le_of_not_lt declared), if_pos rfl] at names
        rw [(List.append_eq_nil_iff.mp names).2]
    · intro undeclared
      rw [Image.managed, image.directory_undeclared undeclared] at managed
      intro rva found
      rw [found] at managed
      simpa using managed
  · intro nothing
    have normal_found : ∃ rva, readU32 bytes (directoriesAt image.pe image.wide + 1 * 8) = some rva ∧
        importsFrom image.sections (normalImports bytes image.sections) rva =
          some (if image.directory 1 = 0 then [] else image.normal.map Descriptor.lower) := by
      by_cases declared : 1 < image.directories
      · have found := image.readU32_declared declared
        exact ⟨_, found, image.normal_found declared found⟩
      · have undeclared := Nat.le_of_not_lt declared
        rw [image.directory_undeclared undeclared]
        obtain ⟨rva, found, nameless⟩ := nothing.normal undeclared
        exact ⟨rva, found, image.normal_eq_nil.mpr nameless⟩
    have delayed_found : importsFrom image.sections (delayImports bytes image.sections image.imageBase)
        ((readU32 bytes (directoriesAt image.pe image.wide + 13 * 8)).getD 0) =
          some (if image.directory 13 = 0 then [] else image.delayed.map Descriptor.lower) := by
      by_cases declared : 13 < image.directories
      · exact image.delayed_found declared
      · have undeclared := Nat.le_of_not_lt declared
        rw [image.directory_undeclared undeclared]
        exact image.delayed_eq_nil.mpr (nothing.delayed undeclared)
    obtain ⟨rva, at_rva, at_normal⟩ := normal_found
    refine ⟨rva, _, _, at_rva, at_normal, delayed_found, rfl, ?_⟩
    rw [Image.managed]
    congr 2
    by_cases declared : 14 < image.directories
    · rw [image.readU32_declared declared, Option.getD_some]
    · have undeclared := Nat.le_of_not_lt declared
      rw [image.directory_undeclared undeclared]
      cases found : readU32 bytes (directoriesAt image.pe image.wide + 14 * 8) with
      | none => rfl
      | some rva => exact nothing.managed undeclared rva found

end Image

/-! ## An image with two directories and three sections -/

def sectionHeader (virtualAddress rawOffset : List UInt8) : List UInt8 :=
  List.replicate 8 0 ++ [8, 0, 0, 0] ++ virtualAddress ++ [8, 0, 0, 0] ++ rawOffset ++ List.replicate 16 0

def threeSections : List UInt8 :=
  [0x4D, 0x5A] ++ List.replicate 58 0 ++ [0x40, 0, 0, 0] ++ [0x50, 0x45, 0, 0] ++
    ([0x4C, 0x01, 3, 0] ++ List.replicate 12 0 ++ [112, 0, 0, 0]) ++
    ([0x0B, 0x01] ++ List.replicate 26 0 ++ [0, 0, 0x40, 0] ++ List.replicate 60 0 ++ [2, 0, 0, 0] ++
      List.replicate 16 0) ++
    sectionHeader [0, 0x10, 0, 0] [0x40, 1, 0, 0] ++ sectionHeader [0, 0x20, 0, 0] [0x48, 1, 0, 0] ++
    sectionHeader [0, 0x30, 0, 0] [0x50, 1, 0, 0] ++ List.replicate 24 0

def threeSectionHeaders : List Section :=
  [⟨0x1000, 8, 0x140, 8⟩, ⟨0x2000, 8, 0x148, 8⟩, ⟨0x3000, 8, 0x150, 8⟩]

theorem threeSections_headers :
    get threeSections 0 2 = some [0x4D, 0x5A] ∧ readU32 threeSections 0x3c = some 0x40 ∧
      get threeSections 0x40 4 = some [0x50, 0x45, 0, 0] ∧ readU16 threeSections 0x44 = some 0x14c ∧
      readU16 threeSections 0x46 = some 3 ∧ readU16 threeSections 0x54 = some 112 ∧
      readU16 threeSections 0x58 = some 0x10b ∧ readU32 threeSections 0x74 = some 0x400000 ∧
      readU32 threeSections 0xB4 = some 2 ∧ readU32 threeSections 0xC0 = some 0 ∧
      threeSections.length = 344 ∧ parseSection threeSections 0xC8 = threeSectionHeaders[0]? ∧
      parseSection threeSections 0xF0 = threeSectionHeaders[1]? ∧
      parseSection threeSections 0x118 = threeSectionHeaders[2]? ∧
      (parsePeBytes threeSections).map (fun info => (info.imports, info.managed)) = some ([], true) := by
  decide +kernel

def threeSectionsImage : Image threeSections where
  pe := 0x40
  machine := 0x14c
  wide := false
  imageBase := 0x400000
  directories := 2
  optionalSize := 112
  sections := threeSectionHeaders
  normal := []
  delayed := []
  dos := threeSections_headers.1
  header := threeSections_headers.2.1
  signature := threeSections_headers.2.2.1
  machineAt := threeSections_headers.2.2.2.1
  count := threeSections_headers.2.2.2.2.1
  sizeAt := threeSections_headers.2.2.2.2.2.1
  magic := threeSections_headers.2.2.2.2.2.2.1
  base := threeSections_headers.2.2.2.2.2.2.2.1
  declared := threeSections_headers.2.2.2.2.2.2.2.2.1
  few := by decide
  room := by decide
  inFile := by
    rw [threeSections_headers.2.2.2.2.2.2.2.2.2.2.1]
    decide
  sectionCount := by decide
  sectionAt := by
    intro i s found
    obtain ⟨-, -, -, -, -, -, -, -, -, -, -, first, second, third, -⟩ := threeSections_headers
    rcases i with _ | _ | _ | i
    · exact first.trans found
    · exact second.trans found
    · exact third.trans found
    · cases found
  placed := by
    refine ⟨?_, ?_⟩
    · unfold Section.Apart Section.stop
      decide
    · unfold Section.stop
      decide
  normalAt := by
    intro rva _ found nonzero
    have zero : readU32 threeSections (directoriesAt 0x40 false + 1 * 8) = some 0 :=
      threeSections_headers.2.2.2.2.2.2.2.2.2.1
    rw [zero] at found
    exact absurd (Option.some.inj found).symm nonzero
  delayedAt := by
    intro rva never
    exact absurd never (by decide)

/-- The size of the third section is taken for a directory. -/
theorem managed_by_section_size :
    (parsePeBytes threeSections).map (fun info => (info.imports, info.managed)) = some ([], true) ∧
      (threeSectionsImage.names, threeSectionsImage.managed) = ([], false) := by
  obtain ⟨-, -, -, -, -, -, -, -, -, empty, -, -, -, -, parsed⟩ := threeSections_headers
  refine ⟨parsed, ?_⟩
  have imports : threeSectionsImage.directory 1 = 0 := by
    rw [Image.directory, if_pos (by decide)]
    exact congrArg (Option.getD · 0) empty
  have delayed : threeSectionsImage.directory 13 = 0 := threeSectionsImage.directory_undeclared (by decide)
  have managed : threeSectionsImage.directory 14 = 0 := threeSectionsImage.directory_undeclared (by decide)
  rw [Image.names, Image.managed, imports, delayed, managed]
  rfl

end RoLauncher.ServerTools
