import Mathlib.Data.List.Destutter
import Mathlib.Data.List.Perm.Subperm
import Mathlib.Data.List.Sort
import RoLauncher.Memory.ProcMemory
import RoLauncher.Results.Collects

/-!
# Searching the memory of a client (`proc_memory.rs`)

The writable regions of a client are read in chunks, and each chunk may be
delivered whole, in part, not at all, or fail. A search for bytes keeps the last bytes it has
read of a region, for the needles that span two chunks; a search for a word
looks at the addresses that are multiples of four.

What the bytes kept before a chunk are does not depend on what they are: `keptAfter` says
at which addresses they were read. Every hit of the search is a window of these and
the addresses of the chunk.
-/

namespace RoLauncher.Memory

open Results (Collects gather mem_gather gather_append gather_const)

def scanChunkSize : Nat := 1024 * 1024
def maxScanCandidates : Nat := 2000000

/-- A region of the address space of 32 bits. -/
structure Region where
  start : Nat
  stop : Nat
  nonempty : start < stop
  below : stop ≤ 2 ^ 32
  aligned : 4096 ∣ start ∧ 4096 ∣ stop

/-- The writable regions, as the kernel lists them: in order, and apart from each other. -/
structure Regions where
  regions : List Region
  ordered : regions.Pairwise fun r r' => r.stop ≤ r'.start

/-- The bytes of the client. -/
abbrev Bytes := Nat → UInt8

/-- How many bytes the reader delivers of the chunk at an address, at most. -/
abbrev Deliveries := Nat → Except ToolsError Nat

/-- The text of an error. -/
def ToolsError.text : ToolsError → String
  | .memoryRead address message =>
    "memory read failed at 0x" ++ String.ofList (Nat.toDigits 16 address.toNat) ++ ": " ++ message
  | .other message => message

structure Chunk where
  address : Nat
  requested : Nat

/-- What a region is read in. -/
def chunksFrom (address remaining : Nat) : List Chunk :=
  if remaining = 0 then []
  else
    let requested := min remaining scanChunkSize
    ⟨address, requested⟩ :: chunksFrom (address + requested) (remaining - requested)
termination_by remaining
decreasing_by
  have : 0 < scanChunkSize := by decide
  omega

def Region.chunks (region : Region) : List Chunk := chunksFrom region.start (region.stop - region.start)

/-- The addresses of the bytes that are delivered of a chunk. -/
def delivered (deliveries : Deliveries) (chunk : Chunk) : Except ToolsError (List Nat) :=
  (deliveries chunk.address).map fun count => List.range' chunk.address (min count chunk.requested)

def readChunk (deliveries : Deliveries) (memory : Bytes) (chunk : Chunk) : Except ToolsError (List UInt8) :=
  (delivered deliveries chunk).map (List.map memory)

/-- `find_all_subslices`. -/
def findAllSubslices (haystack needle : List UInt8) : List Nat :=
  if needle = [] ∨ haystack.length < needle.length then []
  else (List.range (haystack.length + 1 - needle.length)).filter fun offset =>
    (haystack.drop offset).take needle.length = needle

structure Search where
  overlap : List UInt8
  successfulReads : Nat
  lastError : Option String
  found : List Nat

def tooManyError : ToolsError :=
  .other ("la cadena aparece en más de " ++ toString maxScanCandidates ++ " direcciones")

section Searching

variable (deliveries : Deliveries) (memory : Bytes) (needle : List UInt8)

/-- The last bytes, fewer than the needle has. -/
def keep {α : Type} (length : Nat) (combined : List α) : List α :=
  combined.drop (combined.length - min (length - 1) combined.length)

/-- The bytes that are delivered of a chunk are searched after those that are kept. -/
def searchBytes (search : Search) (address : Nat) (bytes : List UInt8) : Except ToolsError Search :=
  let combined := search.overlap ++ bytes
  let hits := (findAllSubslices combined needle).map fun offset => address - search.overlap.length + offset
  let found := search.found ++ hits.filter (· < 2 ^ 32)
  -- the search ends with the hit that is one too many
  if maxScanCandidates < found.length then .error tooManyError
  else .ok { search with
    overlap := keep needle.length combined
    successfulReads := search.successfulReads + 1
    found := found }

def searchChunk (search : Search) (chunk : Chunk) : Except ToolsError Search :=
  match readChunk deliveries memory chunk with
  | .error e => .ok { search with overlap := [], lastError := some e.text }
  | .ok [] => .ok { search with overlap := [] }
  | .ok (byte :: bytes) => searchBytes needle search chunk.address (byte :: bytes)

def searchRegion (search : Search) (region : Region) : Except ToolsError Search :=
  region.chunks.foldlM (searchChunk deliveries memory needle) { search with overlap := [] }

def noRegionsError : ToolsError :=
  .other "el proceso no expone regiones de memoria legibles y escribibles"

def noReadError (lastError : Option String) : ToolsError :=
  .other (lastError.getD "no se pudo leer ninguna región escribible del cliente")

/-- `sort_unstable` and `dedup`. -/
def sorted (found : List Nat) : List Nat := (found.mergeSort (· ≤ ·)).destutter (· ≠ ·)

/-- `find_all_writable_bytes_with_reader`. -/
def findAllWritableBytes (regions : List Region) : Except ToolsError (List Nat) :=
  if needle = [] then .error (.other "la cadena buscada no puede estar vacía")
  else if regions = [] then .error noRegionsError
  else do
    let search ← regions.foldlM (searchRegion deliveries memory needle) ⟨[], 0, none, []⟩
    if search.successfulReads = 0 then .error (noReadError search.lastError)
    else .ok (sorted search.found)

/-- `scan_aligned_chunk`. -/
def scanAlignedChunk (start : Nat) (bytes : List UInt8) : List Nat :=
  let alignment := (4 - start % 4) % 4
  if bytes.length < alignment + 4 then []
  else
    let offsets := (List.range ((bytes.length - 4 - alignment) / 4 + 1)).map fun i => alignment + 4 * i
    ((offsets.filter fun offset => (bytes.drop offset).take 4 = needle).map (start + ·)).filter (· < 2 ^ 32)

structure Scan where
  candidates : List Nat
  successfulReads : Nat
  lastError : Option String

def tooManyCandidatesError : ToolsError :=
  .other ("el valor aparece en más de " ++ toString maxScanCandidates ++
    " direcciones; usa un HP actual distinto de cero")

def scanChunk (scan : Scan) (chunk : Chunk) : Except ToolsError Scan :=
  match readChunk deliveries memory chunk with
  | .error e => .ok { scan with lastError := some e.text }
  | .ok bytes =>
    if bytes.length < 4 then .ok scan
    else
      let candidates := scan.candidates ++ scanAlignedChunk needle chunk.address bytes
      if maxScanCandidates < candidates.length then .error tooManyCandidatesError
      else .ok { scan with candidates := candidates, successfulReads := scan.successfulReads + 1 }

/-- `scan_writable_u32_with_reader`, of the bytes of the word. -/
def scanWritableU32 (regions : List Region) : Except ToolsError (List Nat) :=
  if regions = [] then .error noRegionsError
  else do
    let scan ← (regions.flatMap Region.chunks).foldlM (scanChunk deliveries memory needle) ⟨[], 0, none⟩
    if scan.successfulReads = 0 then .error (noReadError scan.lastError) else .ok scan.candidates

end Searching

/-! ## What a reader delivers -/

theorem stored_same (memory : Bytes) (t : Nat) (identity : ProcessIdentity) (address len : Nat) :
    stored (fun _ _ => memory) t identity address len = (List.range' address len).map memory := by
  induction len generalizing address with
  | zero => rfl
  | succ len ih =>
    rw [stored, ih, List.range'_succ]
    rfl

/-- Where nothing changes in memory, a read of a chunk fails or delivers a part of it. -/
theorem read_delivers (s : Schedule) (reader : ProcMemoryReader) (memory : Bytes) (t : Nat) (address : UInt32)
    (len : Nat) :
    ∃ delivery : Except ToolsError Nat,
      (readBytesAt s (fun _ _ => memory) reader t address len).1.map (fun buffer => buffer.1.take buffer.2) =
        delivery.map fun count => (List.range' address.toNat (min count len)).map memory := by
  have gives := (readBytesAt_gives s (fun _ _ => memory) reader t address len).2
  cases found : (answer s reader t address len).1 with
  | none =>
    rw [found] at gives
    obtain ⟨e, failed⟩ := gives
    refine ⟨.error e, ?_⟩
    rw [failed]
    rfl
  | some a =>
    rw [found] at gives
    refine ⟨.ok a.count, ?_⟩
    have size : ((List.range' address.toNat a.count).map memory).length = a.count := by
      rw [List.length_map, List.length_range']
    rw [gives, stored_same, Except.map, Except.map, Nat.min_eq_left (answered found).count_le, filled]
    dsimp only
    rw [List.take_left' size]

/-! ## The hits of a search -/

section Hits

variable {deliveries : Deliveries} {memory : Bytes} {needle : List UInt8} {chunk : Chunk}
  {done chunks : List Chunk} {kept : List Nat} {search : Search} {found : List Nat}

def Delivers (deliveries : Deliveries) (chunk : Chunk) : Prop :=
  ∃ first rest, delivered deliveries chunk = .ok (first :: rest)

/-- The addresses of the bytes that are kept after a chunk. -/
def keptAfter (deliveries : Deliveries) (length : Nat) (kept : List Nat) (chunk : Chunk) : List Nat :=
  match delivered deliveries chunk with
  | .error _ => []
  | .ok [] => []
  | .ok (first :: rest) => keep length (kept ++ first :: rest)

/-- The addresses of the bytes that are kept after the first chunks of a region. -/
def keptAt (deliveries : Deliveries) (length : Nat) (done : List Chunk) : List Nat :=
  done.foldl (keptAfter deliveries length) []

/-- What is found with a chunk. -/
def hitsOf (deliveries : Deliveries) (memory : Bytes) (needle : List UInt8) (done : List Chunk)
    (chunk : Chunk) : List Nat :=
  match delivered deliveries chunk with
  | .error _ => []
  | .ok [] => []
  | .ok (first :: rest) =>
    let kept := keptAt deliveries needle.length done
    ((findAllSubslices ((kept ++ first :: rest).map memory) needle).map fun offset =>
      chunk.address - kept.length + offset).filter (· < 2 ^ 32)

def hits (deliveries : Deliveries) (memory : Bytes) (needle : List UInt8) (chunks : List Chunk) : List Nat :=
  gather (hitsOf deliveries memory needle) [] chunks

theorem map_keep {α β : Type} (f : α → β) (length : Nat) (combined : List α) :
    (keep length combined).map f = keep length (combined.map f) := by
  rw [keep, keep, List.map_drop, List.length_map]

/-- What a search has become after some chunks of a region. -/
structure Searched (deliveries : Deliveries) (memory : Bytes) (length : Nat) (before : Prop)
    (done : List Chunk) (found : List Nat) (search : Search) : Prop where
  overlap : search.overlap = (keptAt deliveries length done).map memory
  found : search.found = found
  reads : search.successfulReads ≠ 0 ↔ before ∨ ∃ chunk ∈ done, Delivers deliveries chunk

/-- A chunk adds its hits, unless they are too many. -/
theorem searchChunk_collects {before : Prop}
    (few : found.length ≤ maxScanCandidates)
    (h : Searched deliveries memory needle.length before done found search) :
    Collects maxScanCandidates tooManyError found (hitsOf deliveries memory needle done chunk)
      (Searched deliveries memory needle.length before (done ++ [chunk]))
      (searchChunk deliveries memory needle search chunk) := by
  obtain ⟨overlap, rfl, reads⟩ := h
  have kept : keptAt deliveries needle.length (done ++ [chunk]) =
      keptAfter deliveries needle.length (keptAt deliveries needle.length done) chunk := by
    rw [keptAt, List.foldl_append]
    rfl
  have some (P : Chunk → Prop) : (∃ c ∈ done ++ [chunk], P c) ↔ (∃ c ∈ done, P c) ∨ P chunk := by
    simp [or_and_right, exists_or]
  unfold searchChunk readChunk hitsOf
  cases positions : delivered deliveries chunk with
  | error e =>
    apply Collects.nothing few
    refine ⟨?_, rfl, ?_⟩
    · rw [kept, keptAfter, positions]
      rfl
    · rw [reads, some, Delivers, positions]
      simp
  | ok addresses =>
    cases addresses with
    | nil =>
      apply Collects.nothing few
      refine ⟨?_, rfl, ?_⟩
      · rw [kept, keptAfter, positions]
        rfl
      · rw [reads, some, Delivers, positions]
        simp
    | cons first rest =>
      change Collects _ _ _ _ _ (searchBytes needle search chunk.address ((first :: rest).map memory))
      unfold searchBytes
      rw [overlap, List.length_map, ← List.map_append]
      dsimp only
      split
      next many => exact .inl ⟨many, rfl⟩
      next few =>
        refine .inr ⟨Nat.le_of_not_lt few, _, rfl, ?_, rfl, ?_⟩
        · rw [kept, keptAfter, positions]
          exact (map_keep _ _ _).symm
        · rw [some, Delivers, positions]
          simp

/-- What a search has become after some regions. -/
structure SearchedRegions (deliveries : Deliveries) (done : List Region) (found : List Nat)
    (search : Search) : Prop where
  found : search.found = found
  reads : search.successfulReads ≠ 0 ↔ ∃ region ∈ done, ∃ chunk ∈ region.chunks, Delivers deliveries chunk

theorem searchRegion_collects {done : List Region} {region : Region}
    (few : found.length ≤ maxScanCandidates) (h : SearchedRegions deliveries done found search) :
    Collects maxScanCandidates tooManyError found (hits deliveries memory needle region.chunks)
      (SearchedRegions deliveries (done ++ [region]))
      (searchRegion deliveries memory needle search region) := by
  have start : Searched deliveries memory needle.length
      (∃ region ∈ done, ∃ chunk ∈ region.chunks, Delivers deliveries chunk) [] found
      { search with overlap := [] } := by
    refine ⟨rfl, h.found, ?_⟩
    rw [h.reads]
    simp
  have run := Collects.foldlM region.chunks few start
    fun done chunk found search few h => searchChunk_collects few h
  apply run.weaken
  intro all next searched
  refine ⟨searched.found, ?_⟩
  rw [searched.reads]
  simp [or_and_right, exists_or]

/-- What the search of some regions finds. -/
def allHits (deliveries : Deliveries) (memory : Bytes) (needle : List UInt8) (regions : List Region) :
    List Nat :=
  regions.flatMap fun region => hits deliveries memory needle region.chunks

theorem findAllWritableBytes_ok {regions : List Region} (some : needle ≠ []) (regions_some : regions ≠ [])
    {result : List Nat} :
    findAllWritableBytes deliveries memory needle regions = .ok result ↔
      (allHits deliveries memory needle regions).length ≤ maxScanCandidates ∧
      (∃ region ∈ regions, ∃ chunk ∈ region.chunks, Delivers deliveries chunk) ∧
      result = sorted (allHits deliveries memory needle regions) := by
  have start : SearchedRegions deliveries [] [] ⟨[], 0, none, []⟩ := by
    refine ⟨rfl, ?_⟩
    simp
  have run : Collects maxScanCandidates tooManyError [] _ _
      (regions.foldlM (searchRegion deliveries memory needle) ⟨[], 0, none, []⟩) :=
    Collects.foldlM regions (Nat.zero_le _) start
      fun done region found search few h => searchRegion_collects few h
  rw [gather_const] at run
  unfold findAllWritableBytes
  rw [if_neg some, if_neg regions_some]
  obtain ⟨many, failed⟩ | ⟨few, search, done, searched⟩ := run
  · rw [failed]
    constructor
    · intro never
      cases never
    · rintro ⟨few, _⟩
      exact absurd few (Nat.not_le.mpr many)
  · rw [done]
    have reads := searched.reads
    change (if search.successfulReads = 0 then _ else _) = _ ↔ _
    split
    next none =>
      constructor
      · intro never
        cases never
      · rintro ⟨_, delivers, _⟩
        exact absurd none (reads.mpr delivers)
    next read =>
      rw [searched.found]
      constructor
      · intro same
        exact ⟨few, reads.mp read, (Except.ok.inj same).symm⟩
      · rintro ⟨_, _, rfl⟩
        rfl

/-! ## Chunks and the addresses that are kept -/

/-- The chunks are one after the other, from an address to another. -/
def Tiles : Nat → List Chunk → Nat → Prop
  | a, [], b => a = b
  | a, chunk :: rest, b => chunk.address = a ∧ 0 < chunk.requested ∧ Tiles (a + chunk.requested) rest b

theorem tiles_chunksFrom (address remaining : Nat) :
    Tiles address (chunksFrom address remaining) (address + remaining) := by
  induction address, remaining using chunksFrom.induct with
  | case1 address =>
    rw [chunksFrom, if_pos rfl]
    rfl
  | case2 address remaining some requested ih =>
    rw [chunksFrom, if_neg some]
    have size : 0 < scanChunkSize := by decide
    have whole : address + requested + (remaining - requested) = address + remaining := by omega
    rw [whole] at ih
    exact ⟨rfl, Nat.lt_min.mpr ⟨Nat.pos_of_ne_zero some, size⟩, ih⟩

theorem Region.tiles (region : Region) : Tiles region.start region.chunks region.stop := by
  have tiles := tiles_chunksFrom region.start (region.stop - region.start)
  have whole : region.start + (region.stop - region.start) = region.stop := by
    have := region.nonempty
    omega
  rwa [whole] at tiles

theorem Tiles.append {a b : Nat} {xs ys : List Chunk} (h : Tiles a (xs ++ ys) b) :
    ∃ m, Tiles a xs m ∧ Tiles m ys b := by
  induction xs generalizing a with
  | nil => exact ⟨a, rfl, h⟩
  | cons x xs ih =>
    obtain ⟨start, some, rest⟩ := h
    obtain ⟨m, first, second⟩ := ih rest
    exact ⟨m, ⟨start, some, first⟩, second⟩

theorem Tiles.concat {a b : Nat} (h : Tiles a chunks b) (some : 0 < chunk.requested) (here : chunk.address = b) :
    Tiles a (chunks ++ [chunk]) (b + chunk.requested) := by
  induction chunks generalizing a with
  | nil =>
    cases h
    exact ⟨here, some, rfl⟩
  | cons c rest ih =>
    obtain ⟨start, positive, rest⟩ := h
    exact ⟨start, positive, ih rest⟩

theorem Tiles.le {a b : Nat} (h : Tiles a chunks b) : a ≤ b := by
  induction chunks generalizing a with
  | nil => exact Nat.le_of_eq h
  | cons c rest ih =>
    obtain ⟨rfl, some, rest⟩ := h
    exact Nat.le_trans (Nat.le_add_right _ _) (ih rest)

/-- Each chunk is between the ends. -/
theorem Tiles.mem {a b : Nat} (h : Tiles a chunks b) (mem : chunk ∈ chunks) :
    a ≤ chunk.address ∧ chunk.address + chunk.requested ≤ b := by
  obtain ⟨before, after, rfl⟩ := List.append_of_mem mem
  obtain ⟨m, first, rfl, some, second⟩ := h.append
  exact ⟨first.le, second.le⟩

/-- What is delivered of a chunk begins with its address. -/
theorem delivered_some {first : Nat} {rest : List Nat}
    (h : delivered deliveries chunk = .ok (first :: rest)) :
    ∃ count, 0 < count ∧ count ≤ chunk.requested ∧ first :: rest = List.range' chunk.address count := by
  obtain ⟨count, -, same⟩ := Results.ok_of_map h
  refine ⟨min count chunk.requested, ?_, Nat.min_le_right _ _, same.symm⟩
  rw [Nat.pos_iff_ne_zero]
  intro none
  rw [none] at same
  cases same

theorem keptAfter_of_delivered {length count : Nat} (positive : 0 < count)
    (h : delivered deliveries chunk = .ok (List.range' chunk.address count)) :
    keptAfter deliveries length kept chunk = keep length (kept ++ List.range' chunk.address count) := by
  obtain ⟨more, rfl⟩ := Nat.exists_eq_succ_of_ne_zero (Nat.ne_of_gt positive)
  rw [keptAfter, h]
  rfl

theorem hitsOf_of_delivered {count : Nat} (positive : 0 < count)
    (h : delivered deliveries chunk = .ok (List.range' chunk.address count)) :
    hitsOf deliveries memory needle done chunk =
      ((findAllSubslices
          ((keptAt deliveries needle.length done ++ List.range' chunk.address count).map memory) needle).map
        (chunk.address - (keptAt deliveries needle.length done).length + ·)).filter (· < 2 ^ 32) := by
  obtain ⟨more, rfl⟩ := Nat.exists_eq_succ_of_ne_zero (Nat.ne_of_gt positive)
  rw [hitsOf, h]
  rfl

/-- Addresses in order, between two. -/
def Between (a b : Nat) (addresses : List Nat) : Prop :=
  addresses.Pairwise (· < ·) ∧ ∀ x ∈ addresses, a ≤ x ∧ x < b

theorem Between.append {a m b : Nat} {xs ys : List Nat} (first : Between a m xs) (second : Between m b ys)
    (le : a ≤ m) (le' : m ≤ b) : Between a b (xs ++ ys) := by
  refine ⟨List.pairwise_append.mpr ⟨first.1, second.1, ?_⟩, ?_⟩
  · intro x mem y mem'
    exact Nat.lt_of_lt_of_le (first.2 x mem).2 (second.2 y mem').1
  · intro x mem
    rcases List.mem_append.mp mem with mem | mem
    · have := first.2 x mem
      omega
    · have := second.2 x mem
      omega

theorem Between.sublist {a b : Nat} {xs ys : List Nat} (h : Between a b ys) (sub : xs.Sublist ys) :
    Between a b xs := ⟨h.1.sublist sub, fun x mem => h.2 x (sub.subset mem)⟩

theorem between_range' {a b address count : Nat} (le : a ≤ address) (le' : address + count ≤ b) :
    Between a b (List.range' address count) := by
  refine ⟨List.pairwise_lt_range', ?_⟩
  intro x mem
  rw [List.mem_range'_1] at mem
  omega

/-- What is kept was read of the chunks so far. -/
theorem between_kept {length lo a b : Nat} (h : Tiles a chunks b) (le : lo ≤ a) (start : Between lo a kept) :
    Between lo b (chunks.foldl (keptAfter deliveries length) kept) := by
  induction chunks generalizing a kept with
  | nil =>
    cases h
    exact start
  | cons c rest ih =>
    obtain ⟨rfl, some, rest⟩ := h
    apply ih rest (Nat.le_trans le (Nat.le_add_right _ _))
    have none : Between lo (c.address + c.requested) [] := ⟨.nil, fun x never => by cases never⟩
    unfold keptAfter
    split
    next => exact none
    next => exact none
    next first more h =>
      obtain ⟨count, -, small, same⟩ := delivered_some h
      rw [same]
      apply Between.sublist _ (List.drop_sublist _ _)
      exact start.append (between_range' (Nat.le_refl _) (by omega)) le (by omega)

theorem between_keptAt {length a b : Nat} (h : Tiles a chunks b) :
    Between a b (keptAt deliveries length chunks) :=
  between_kept h (Nat.le_refl a) ⟨.nil, fun x never => by cases never⟩

/-! ## Windows -/

/-- The needle is at an address. -/
def At (memory : Bytes) (needle : List UInt8) (address : Nat) : Prop :=
  (List.range' address needle.length).map memory = needle

instance (memory : Bytes) (needle : List UInt8) (address : Nat) : Decidable (At memory needle address) :=
  inferInstanceAs (Decidable (_ = _))

theorem mem_findAllSubslices {haystack : List UInt8} {offset : Nat} (some : needle ≠ []) :
    offset ∈ findAllSubslices haystack needle ↔
      offset + needle.length ≤ haystack.length ∧ (haystack.drop offset).take needle.length = needle := by
  have positive := List.length_pos_iff.mpr some
  unfold findAllSubslices
  split
  next short =>
    have short := short.resolve_left some
    constructor
    · intro never
      cases never
    · rintro ⟨le, -⟩
      omega
  next =>
    rw [List.mem_filter, List.mem_range, decide_eq_true_eq]
    constructor
    · rintro ⟨lt, same⟩
      exact ⟨by omega, same⟩
    · rintro ⟨le, same⟩
      exact ⟨by omega, same⟩

/-- A hit is a window of the addresses that were read. -/
structure Hit (deliveries : Deliveries) (memory : Bytes) (needle : List UInt8) (kept : List Nat)
    (chunk : Chunk) (count offset : Nat) : Prop where
  delivered : delivered deliveries chunk = .ok (List.range' chunk.address count)
  positive : 0 < count
  small : count ≤ chunk.requested
  fits : offset + needle.length ≤ kept.length + count
  same : (((kept ++ List.range' chunk.address count).drop offset).take needle.length).map memory = needle

theorem mem_hitsOf {address : Nat} (some : needle ≠ []) :
    address ∈ hitsOf deliveries memory needle done chunk ↔
      ∃ count offset, Hit deliveries memory needle (keptAt deliveries needle.length done) chunk count offset ∧
        address = chunk.address - (keptAt deliveries needle.length done).length + offset ∧
        address < 2 ^ 32 := by
  unfold hitsOf
  constructor
  · intro mem
    split at mem
    next => cases mem
    next => cases mem
    next first rest h =>
      obtain ⟨count, positive, small, same⟩ := delivered_some h
      rw [List.mem_filter, List.mem_map, decide_eq_true_eq] at mem
      obtain ⟨⟨offset, mem, rfl⟩, below⟩ := mem
      rw [same] at mem h
      obtain ⟨fits, found⟩ := (mem_findAllSubslices some).mp mem
      rw [List.length_map, List.length_append, List.length_range'] at fits
      rw [← List.map_drop, ← List.map_take] at found
      exact ⟨count, offset, ⟨h, positive, small, fits, found⟩, rfl, below⟩
  · rintro ⟨count, offset, hit, rfl, below⟩
    split
    next failed =>
      rw [hit.delivered] at failed
      cases failed
    next none =>
      rw [hit.delivered] at none
      have positive := hit.positive
      rw [← List.length_eq_zero_iff.mpr (Except.ok.inj none), List.length_range'] at positive
      exact absurd positive (Nat.lt_irrefl _)
    next first rest h =>
      rw [hit.delivered] at h
      rw [← Except.ok.inj h, List.mem_filter, List.mem_map, decide_eq_true_eq]
      refine ⟨⟨offset, (mem_findAllSubslices some).mpr ⟨?_, ?_⟩, rfl⟩, below⟩
      · rw [List.length_map, List.length_append, List.length_range']
        exact hit.fits
      · rw [← List.map_drop, ← List.map_take]
        exact hit.same

/-- The window of a run of addresses. -/
theorem window_range' {address count offset length : Nat} (fits : offset + length ≤ count) :
    ((List.range' address count).drop offset).take length = List.range' (address + offset) length := by
  rw [List.drop_range', List.take_range'_of_length_ge (by omega), Nat.mul_one]

/-- The addresses end right before another. -/
def EndsAt (address : Nat) (kept : List Nat) : Prop :=
  kept = List.range' (address - kept.length) kept.length

theorem EndsAt.append {a address count : Nat} (h : EndsAt address kept) (between : Between a address kept)
    (le : a ≤ address) :
    a + kept.length ≤ address ∧
      kept ++ List.range' address count = List.range' (address - kept.length) (kept.length + count) := by
  rcases Nat.eq_zero_or_pos kept.length with none | some
  · have empty := List.length_eq_zero_iff.mp none
    rw [empty]
    refine ⟨le, ?_⟩
    simp
  · have mem (x : Nat) : x ∈ kept ↔ x ∈ List.range' (address - kept.length) kept.length := by
      rw [← show kept = _ from h]
    have first : address - kept.length ∈ kept := by
      rw [mem, List.mem_range'_1]
      omega
    have last : address - kept.length + (kept.length - 1) ∈ kept := by
      rw [mem, List.mem_range'_1]
      omega
    have low := between.2 _ first
    have high := between.2 _ last
    refine ⟨by omega, ?_⟩
    rw [← List.range'_append_1]
    have whole : address - kept.length + kept.length = address := by omega
    rw [whole]
    exact congrArg (· ++ _) h

/-- The needle is in a region. -/
def Occurs (memory : Bytes) (needle : List UInt8) (regions : List Region) (address : Nat) : Prop :=
  ∃ region ∈ regions, region.start ≤ address ∧ address + needle.length ≤ region.stop ∧ At memory needle address

/-- What is kept before a chunk that completes a needle was read right before it. -/
def KeptRight (deliveries : Deliveries) (length : Nat) (regions : List Region) : Prop :=
  ∀ region ∈ regions, ∀ before chunk after, region.chunks = before ++ chunk :: after →
    ∀ first rest, delivered deliveries chunk = .ok (first :: rest) →
      length ≤ (keptAt deliveries length before).length + (first :: rest).length →
        EndsAt chunk.address (keptAt deliveries length before)

theorem mem_allHits {regions : List Region} {address : Nat} :
    address ∈ allHits deliveries memory needle regions ↔
      ∃ region ∈ regions, ∃ before chunk after, region.chunks = before ++ chunk :: after ∧
        address ∈ hitsOf deliveries memory needle before chunk := by
  unfold allHits hits
  simp only [List.mem_flatMap, mem_gather, List.nil_append]

/-- What a search finds is there. -/
theorem occurs_of_hit {regions : List Region} {address : Nat} (some : needle ≠ [])
    (right : KeptRight deliveries needle.length regions)
    (mem : address ∈ allHits deliveries memory needle regions) : Occurs memory needle regions address := by
  obtain ⟨region, listed, before, chunk, after, split, found⟩ := mem_allHits.mp mem
  obtain ⟨count, offset, hit, rfl, -⟩ := (mem_hitsOf some).mp found
  have tiles := region.tiles
  rw [split] at tiles
  obtain ⟨m, first, rfl, -, second⟩ := tiles.append
  have between : Between region.start chunk.address (keptAt deliveries needle.length before) :=
    between_keptAt first
  have ends : EndsAt chunk.address (keptAt deliveries needle.length before) := by
    have positive := hit.positive
    have fits := hit.fits
    have delivered := hit.delivered
    cases addresses : List.range' chunk.address count with
    | nil =>
      rw [← List.length_eq_zero_iff, List.length_range'] at addresses
      omega
    | cons x xs =>
      rw [addresses] at delivered
      apply right region listed before chunk after split x xs delivered
      rw [← addresses, List.length_range']
      omega
  obtain ⟨low, combined⟩ := ends.append between first.le
  have fits := hit.fits
  have small := hit.small
  have stop := second.le
  refine ⟨region, listed, by omega, by omega, ?_⟩
  have same := hit.same
  rw [combined, window_range' fits] at same
  exact same

/-! ## A needle that is found where it is not -/

theorem Between.eq_of_subset {a b c d : Nat} {xs ys : List Nat} (first : Between a b xs)
    (second : Between c d ys) (sub : ∀ x ∈ xs, x ∈ ys) (length : ys.length ≤ xs.length) : xs = ys := by
  have nodup : xs.Nodup := first.1.imp Nat.ne_of_lt
  have perm := (List.Nodup.subperm nodup sub).perm_of_length_le length
  apply perm.eq_of_pairwise _ first.1 second.1
  intro x y _ _ lt gt
  exact absurd lt (Nat.lt_asymm gt)

/-- Ones at these addresses, and zeros elsewhere. -/
def planted (addresses : List Nat) : Bytes := fun x => if x ∈ addresses then 1 else 0

def ones (length : Nat) : List UInt8 := List.replicate length 1

theorem size_ones (length : Nat) : (ones length).length = length := List.length_replicate

theorem mem_of_planted {addresses window : List Nat} {length : Nat}
    (same : window.map (planted addresses) = ones length) : ∀ x ∈ window, x ∈ addresses := by
  intro x mem
  have one : planted addresses x ∈ ones length := by
    rw [← same]
    exact List.mem_map_of_mem mem
  have value := List.eq_of_mem_replicate one
  unfold planted at value
  split at value
  next here => exact here
  next => exact absurd value (by decide)

/-- The window of a hit is where the ones are. -/
theorem Hit.window {addresses : List Nat} {a c d count offset : Nat}
    (hit : Hit deliveries (planted addresses) (ones addresses.length) kept chunk count offset)
    (between : Between a chunk.address kept) (le : a ≤ chunk.address) (known : Between c d addresses) :
    ((kept ++ List.range' chunk.address count).drop offset).take addresses.length = addresses := by
  have fits := hit.fits
  have same := hit.same
  rw [size_ones] at fits same
  have whole : Between a (chunk.address + count) (kept ++ List.range' chunk.address count) :=
    between.append (between_range' (Nat.le_refl _) (Nat.le_refl _)) le (Nat.le_add_right _ _)
  apply (whole.sublist ((List.take_sublist _ _).trans (List.drop_sublist _ _))).eq_of_subset known
  · exact mem_of_planted same
  · rw [List.length_take, List.length_drop, List.length_append, List.length_range']
    omega

theorem Hit.covers {addresses : List Nat} {a c d count offset : Nat}
    (hit : Hit deliveries (planted addresses) (ones addresses.length) kept chunk count offset)
    (between : Between a chunk.address kept) (le : a ≤ chunk.address) (known : Between c d addresses) :
    ∀ x ∈ addresses, x ∈ kept ∨ chunk.address ≤ x ∧ x < chunk.address + chunk.requested := by
  intro x mem
  rw [← hit.window between le known] at mem
  rcases List.mem_append.mp (List.drop_subset _ _ (List.take_subset _ _ mem)) with mem | mem
  · exact .inl mem
  · rw [List.mem_range'_1] at mem
    have := hit.small
    exact .inr ⟨mem.1, by omega⟩

theorem ones_ne_nil {length : Nat} (some : 0 < length) : ones length ≠ [] := by
  intro none
  have size := List.length_eq_zero_iff.mpr none
  rw [ones, List.length_replicate] at size
  omega

/-- A hit with a chunk has read all of the ones. -/
theorem covers_of_hit {addresses : List Nat} {a b c d x length : Nat} {before after : List Chunk}
    (tiles : Tiles a (before ++ chunk :: after) b) (known : Between c d addresses)
    (size : addresses.length = length) (some : 0 < length)
    (mem : x ∈ hitsOf deliveries (planted addresses) (ones length) before chunk) :
    ∀ p ∈ addresses, p ∈ keptAt deliveries length before ∨
      chunk.address ≤ p ∧ p < chunk.address + chunk.requested := by
  subst size
  obtain ⟨count, offset, hit, -, -⟩ := (mem_hitsOf (ones_ne_nil some)).mp mem
  obtain ⟨m, first, rfl, -, -⟩ := tiles.append
  rw [size_ones] at hit
  exact hit.covers (between_keptAt first) first.le known

theorem nodup_hitsOf : (hitsOf deliveries memory needle done chunk).Nodup := by
  unfold hitsOf
  split
  next => exact .nil
  next => exact .nil
  next =>
    apply List.Nodup.filter
    apply List.Nodup.map
    · intro x y same
      exact Nat.add_left_cancel same
    · unfold findAllSubslices
      split
      next => exact .nil
      next => exact List.nodup_range.filter _

theorem length_le_one {xs : List Nat} {x : Nat} (nodup : xs.Nodup) (all : ∀ y ∈ xs, y = x) :
    xs.length ≤ 1 := by
  have sub : xs ⊆ [x] := fun y mem => List.mem_singleton.mpr (all y mem)
  exact (List.Nodup.subperm nodup sub).length_le

theorem length_keep (length : Nat) (combined : List Nat) : (keep length combined).length ≤ length - 1 := by
  rw [keep, List.length_drop]
  omega

theorem length_keptAt (deliveries : Deliveries) (length : Nat) (chunks : List Chunk) :
    (keptAt deliveries length chunks).length ≤ length - 1 := by
  rcases List.eq_nil_or_concat chunks with rfl | ⟨before, chunk, rfl⟩
  · exact Nat.zero_le _
  · rw [keptAt, List.concat_eq_append, List.foldl_append, List.foldl_cons, List.foldl_nil, keptAfter]
    split
    next => exact Nat.zero_le _
    next => exact Nat.zero_le _
    next => exact length_keep _ _

end Hits

section Gaps

variable {deliveries : Deliveries}

/-- A place where the bytes that are kept were not read right before the chunk. -/
structure Gap (deliveries : Deliveries) (length : Nat) (regions : Regions) where
  region : Region
  mem : region ∈ regions.regions
  before : List Chunk
  chunk : Chunk
  after : List Chunk
  split : region.chunks = before ++ chunk :: after
  count : Nat
  delivered : delivered deliveries chunk = .ok (List.range' chunk.address count)
  positive : 0 < count
  small : count ≤ chunk.requested
  enough : length ≤ (keptAt deliveries length before).length + count
  apart : ¬ EndsAt chunk.address (keptAt deliveries length before)

namespace Gap

variable {length : Nat} {regions : Regions} (gap : Gap deliveries length regions)

def keptBefore : List Nat := keptAt deliveries length gap.before

/-- Where the needle is found. -/
def addresses : List Nat := (gap.keptBefore ++ List.range' gap.chunk.address gap.count).take length

theorem tiles : Tiles gap.region.start (gap.before ++ gap.chunk :: gap.after) gap.region.stop := by
  rw [← gap.split]
  exact gap.region.tiles

theorem first : Tiles gap.region.start gap.before gap.chunk.address := by
  obtain ⟨m, first, rfl, -, -⟩ := gap.tiles.append
  exact first

theorem rest : Tiles (gap.chunk.address + gap.chunk.requested) gap.after gap.region.stop := by
  obtain ⟨m, -, rfl, -, rest⟩ := gap.tiles.append
  exact rest

theorem between_kept : Between gap.region.start gap.chunk.address gap.keptBefore := between_keptAt gap.first

theorem kept_some : ∃ p more, gap.keptBefore = p :: more := by
  cases same : gap.keptBefore with
  | nil =>
    apply absurd _ gap.apart
    rw [show keptAt deliveries length gap.before = [] from same]
    rfl
  | cons p more => exact ⟨p, more, rfl⟩

theorem kept_short : gap.keptBefore.length < length := by
  obtain ⟨p, more, same⟩ := gap.kept_some
  have short := length_keptAt deliveries length gap.before
  have size : gap.keptBefore.length = more.length + 1 := by rw [same, List.length_cons]
  change gap.keptBefore.length ≤ length - 1 at short
  omega

theorem length_addresses : gap.addresses.length = length := by
  have enough := gap.enough
  rw [addresses, List.length_take, List.length_append, List.length_range']
  change length ≤ gap.keptBefore.length + gap.count at enough
  omega

theorem between_combined : Between gap.region.start (gap.chunk.address + gap.count)
    (gap.keptBefore ++ List.range' gap.chunk.address gap.count) :=
  gap.between_kept.append (between_range' (Nat.le_refl _) (Nat.le_refl _)) gap.first.le (Nat.le_add_right _ _)

theorem between_addresses : Between gap.region.start (gap.chunk.address + gap.count) gap.addresses :=
  gap.between_combined.sublist (List.take_sublist _ _)

theorem chunk_mem : gap.chunk.address ∈ gap.addresses := by
  have short := gap.kept_short
  have positive := gap.positive
  obtain ⟨more, count⟩ := Nat.exists_eq_succ_of_ne_zero (Nat.ne_of_gt positive)
  obtain ⟨left, length⟩ := Nat.exists_eq_succ_of_ne_zero (Nat.sub_ne_zero_of_lt short)
  rw [addresses, List.take_append, length, count, List.range'_succ, List.take_succ_cons, List.mem_append]
  exact .inr List.mem_cons_self

/-- The address that was kept first is not kept any more. -/
theorem lost : ∃ p ∈ gap.addresses, p < gap.chunk.address ∧ gap.region.start ≤ p ∧
    Between (p + 1) (gap.chunk.address + gap.chunk.requested)
      (keptAt deliveries length (gap.before ++ [gap.chunk])) := by
  obtain ⟨p, more, same⟩ := gap.kept_some
  have between := gap.between_combined
  have low := gap.between_kept.2 p (by rw [same]; exact List.mem_cons_self)
  have short := gap.kept_short
  have length_kept : gap.keptBefore.length = more.length + 1 := by rw [same, List.length_cons]
  have enough : length ≤ gap.keptBefore.length + gap.count := gap.enough
  refine ⟨p, ?_, low.2, low.1, ?_⟩
  · rw [addresses, same, List.cons_append, List.take_cons (Nat.zero_lt_of_lt short)]
    exact List.mem_cons_self
  · have after : keptAt deliveries length (gap.before ++ [gap.chunk]) =
        keep length (gap.keptBefore ++ List.range' gap.chunk.address gap.count) := by
      rw [keptAt, List.foldl_append, List.foldl_cons, List.foldl_nil,
        keptAfter_of_delivered gap.positive gap.delivered]
      rfl
    rw [after, keep, List.length_append, List.length_range']
    obtain ⟨d, drops⟩ : ∃ d, gap.keptBefore.length + gap.count -
        min (length - 1) (gap.keptBefore.length + gap.count) = d + 1 := ⟨gap.keptBefore.length + gap.count - length, by omega⟩
    rw [drops, same, List.cons_append, List.drop_succ_cons]
    rw [same, List.cons_append] at between
    have small := gap.small
    refine ⟨(List.pairwise_cons.mp between.1).2.sublist (List.drop_sublist _ _), ?_⟩
    intro x mem
    have mem := List.drop_subset _ _ mem
    have above := (List.pairwise_cons.mp between.1).1 x mem
    have below := (between.2 x (List.mem_cons_of_mem _ mem)).2
    omega

/-! The ones are found with the chunk, and nowhere else. -/

theorem hits_other {region : Region} (apart : region.stop ≤ gap.region.start ∨ gap.region.stop ≤ region.start) :
    hits deliveries (planted gap.addresses) (ones length) region.chunks = [] := by
  rw [List.eq_nil_iff_forall_not_mem]
  intro x mem
  obtain ⟨before, chunk, after, split, mem⟩ := mem_gather.mp mem
  have tiles := region.tiles
  rw [split] at tiles
  obtain ⟨m, first, rfl, -, rest⟩ := tiles.append
  rw [List.nil_append] at mem
  have := first.le
  have := rest.le
  have := gap.first.le
  have := gap.rest.le
  have := gap.positive
  have := gap.small
  rcases covers_of_hit tiles gap.between_addresses gap.length_addresses (Nat.zero_lt_of_lt gap.kept_short) mem _
    gap.chunk_mem with kept | read
  · have := (between_keptAt first).2 _ kept
    omega
  · omega

theorem hits_before : gather (hitsOf deliveries (planted gap.addresses) (ones length)) [] gap.before = [] := by
  rw [List.eq_nil_iff_forall_not_mem]
  intro x mem
  obtain ⟨before, chunk, after, split, mem⟩ := mem_gather.mp mem
  have tiles := gap.first
  rw [split] at tiles
  obtain ⟨m, first, rfl, -, rest⟩ := tiles.append
  rw [List.nil_append] at mem
  have := rest.le
  rcases covers_of_hit tiles gap.between_addresses gap.length_addresses (Nat.zero_lt_of_lt gap.kept_short) mem _
    gap.chunk_mem with kept | read
  · have := (between_keptAt first).2 _ kept
    omega
  · omega

theorem hits_after : gather (hitsOf deliveries (planted gap.addresses) (ones length))
    (gap.before ++ [gap.chunk]) gap.after = [] := by
  rw [List.eq_nil_iff_forall_not_mem]
  intro x mem
  obtain ⟨p, p_mem, p_low, -, p_lost⟩ := gap.lost
  obtain ⟨before, chunk, after, split, mem⟩ := mem_gather.mp mem
  have tiles := gap.tiles
  have rest := gap.rest
  rw [split] at tiles rest
  obtain ⟨m, first, rfl, -, -⟩ := rest.append
  have whole : gap.before ++ gap.chunk :: (before ++ chunk :: after) =
      (gap.before ++ [gap.chunk] ++ before) ++ chunk :: after := by simp
  rw [whole] at tiles
  have := first.le
  rcases covers_of_hit tiles gap.between_addresses gap.length_addresses (Nat.zero_lt_of_lt gap.kept_short) mem _
    p_mem with kept | read
  · rw [keptAt, List.foldl_append] at kept
    have := (RoLauncher.Memory.between_kept first (by omega) p_lost).2 p kept
    omega
  · omega

/-- The window begins with the address that was kept first. -/
theorem mem_hits_chunk {x : Nat} :
    x ∈ hitsOf deliveries (planted gap.addresses) (ones length) gap.before gap.chunk ↔
      x = gap.chunk.address - gap.keptBefore.length := by
  have size := gap.length_addresses
  have short := gap.kept_short
  obtain ⟨p, more, same⟩ := gap.kept_some
  rw [mem_hitsOf (ones_ne_nil (Nat.zero_lt_of_lt short)), size_ones]
  constructor
  · rintro ⟨count, offset, hit, rfl, -⟩
    have window : ((gap.keptBefore ++ List.range' gap.chunk.address count).drop offset).take length =
        gap.addresses := by
      have window : Hit deliveries (planted gap.addresses) (ones gap.addresses.length) gap.keptBefore gap.chunk
          count offset := by
        rw [size]
        exact hit
      have all := window.window gap.between_kept gap.first.le gap.between_addresses
      rwa [size] at all
    cases offset with
    | zero => rfl
    | succ offset =>
      have whole : Between gap.region.start (gap.chunk.address + count)
          (gap.keptBefore ++ List.range' gap.chunk.address count) :=
        gap.between_kept.append (between_range' (Nat.le_refl _) (Nat.le_refl _)) gap.first.le
          (Nat.le_add_right _ _)
      have first : p ∈ gap.addresses := by
        rw [addresses, same, List.cons_append, List.take_cons (Nat.zero_lt_of_lt short)]
        exact List.mem_cons_self
      rw [← window, same, List.cons_append, List.drop_succ_cons] at first
      rw [same, List.cons_append] at whole
      have later := (List.pairwise_cons.mp whole.1).1 p (List.drop_subset _ _ (List.take_subset _ _ first))
      exact absurd later (Nat.lt_irrefl p)
  · rintro rfl
    refine ⟨gap.count, 0, ⟨gap.delivered, gap.positive, gap.small, ?_, ?_⟩, rfl, ?_⟩
    · rw [size_ones, Nat.zero_add]
      exact gap.enough
    · rw [size_ones, List.drop_zero]
      change gap.addresses.map (planted gap.addresses) = List.replicate length 1
      rw [List.eq_replicate_iff, List.length_map, size]
      refine ⟨rfl, ?_⟩
      intro b mem
      obtain ⟨x, here, rfl⟩ := List.mem_map.mp mem
      exact if_pos here
    · have := gap.region.below
      have := gap.rest.le
      have := gap.positive
      have := gap.small
      omega

/-- The search finds the ones once, at an address where they are not. -/
theorem allHits_planted : (allHits deliveries (planted gap.addresses) (ones length) regions.regions).length ≤ 1 ∧
    gap.chunk.address - gap.keptBefore.length ∈
      allHits deliveries (planted gap.addresses) (ones length) regions.regions := by
  obtain ⟨pre, post, listed⟩ := List.append_of_mem gap.mem
  have ordered := regions.ordered
  rw [listed, List.pairwise_append, List.pairwise_cons] at ordered
  obtain ⟨-, ⟨later, -⟩, earlier⟩ := ordered
  have none (others : List Region)
      (apart : ∀ region ∈ others, region.stop ≤ gap.region.start ∨ gap.region.stop ≤ region.start) :
      allHits deliveries (planted gap.addresses) (ones length) others = [] := by
    rw [allHits, List.flatMap_eq_nil_iff]
    exact fun region mem => gap.hits_other (apart region mem)
  have whole : allHits deliveries (planted gap.addresses) (ones length) regions.regions =
      hitsOf deliveries (planted gap.addresses) (ones length) gap.before gap.chunk := by
    have first := none pre fun region mem => .inl (earlier region mem gap.region List.mem_cons_self)
    have last := none post fun region mem => .inr (later region mem)
    unfold allHits at first last ⊢
    rw [listed, List.flatMap_append, List.flatMap_cons, first, last, hits, gap.split, gather_append,
      gap.hits_before, gather, List.nil_append, List.nil_append, List.nil_append, gap.hits_after,
      List.append_nil, List.append_nil]
  rw [whole]
  exact ⟨length_le_one nodup_hitsOf fun x mem => gap.mem_hits_chunk.mp mem, gap.mem_hits_chunk.mpr rfl⟩

/-- The ones are not where they are found. -/
theorem not_at : ¬ At (planted gap.addresses) (ones length) (gap.chunk.address - gap.keptBefore.length) := by
  intro here
  unfold At at here
  rw [size_ones] at here
  have same : List.range' (gap.chunk.address - gap.keptBefore.length) length = gap.addresses := by
    apply (between_range' (Nat.le_refl _) (Nat.le_refl _)).eq_of_subset gap.between_addresses
    · exact mem_of_planted here
    · rw [gap.length_addresses, List.length_range']
  apply gap.apart
  have front := congrArg (List.take gap.keptBefore.length) same
  rw [List.take_range'_of_length_ge (Nat.le_of_lt gap.kept_short), addresses, List.take_take,
    Nat.min_eq_left (Nat.le_of_lt gap.kept_short), List.take_left] at front
  exact front.symm

end Gap

end Gaps

/-! ## When all is read -/

section Full

variable {deliveries : Deliveries} {memory : Bytes} {needle : List UInt8} {chunk : Chunk}
  {done chunks : List Chunk}

def Full (deliveries : Deliveries) (chunk : Chunk) : Prop :=
  ∃ count, deliveries chunk.address = .ok count ∧ chunk.requested ≤ count

def AllFull (deliveries : Deliveries) (regions : List Region) : Prop :=
  ∀ region ∈ regions, ∀ chunk ∈ region.chunks, Full deliveries chunk

/-- Where the needle is in the regions. -/
def occurrences (memory : Bytes) (needle : List UInt8) (regions : List Region) : List Nat :=
  regions.flatMap fun region =>
    (List.range' region.start (region.stop + 1 - needle.length - region.start)).filter (At memory needle ·)

theorem mem_occurrences {regions : List Region} {address : Nat} (some : needle ≠ []) :
    address ∈ occurrences memory needle regions ↔ Occurs memory needle regions address := by
  have positive := List.length_pos_iff.mpr some
  unfold occurrences Occurs
  rw [List.mem_flatMap]
  apply exists_congr
  intro region
  rw [List.mem_filter, List.mem_range'_1, decide_eq_true_eq]
  have := region.nonempty
  constructor
  · rintro ⟨mem, low, here⟩
    exact ⟨mem, by omega, by omega, here⟩
  · rintro ⟨mem, low, high, here⟩
    exact ⟨mem, by omega, here⟩

theorem delivered_full (full : Full deliveries chunk) :
    delivered deliveries chunk = .ok (List.range' chunk.address chunk.requested) := by
  obtain ⟨count, same, enough⟩ := full
  rw [delivered, same, Except.map, Nat.min_eq_right enough]

theorem findAllSubslices_range' {address count : Nat} (some : needle ≠ []) :
    (findAllSubslices ((List.range' address count).map memory) needle).map (address + ·) =
      (List.range' address (count + 1 - needle.length)).filter (At memory needle ·) := by
  have positive := List.length_pos_iff.mpr some
  unfold findAllSubslices
  rw [List.length_map, List.length_range', List.range'_eq_map_range, List.range'_eq_map_range, List.filter_map]
  split
  next short =>
    have none : count + 1 - needle.length = 0 := by
      have := short.resolve_left some
      omega
    rw [none]
    rfl
  next =>
    congr 1
    apply List.filter_congr
    intro offset mem
    rw [List.mem_range] at mem
    have window := @window_range' address _ _ _ (show offset + needle.length ≤ count by omega)
    rw [← List.range'_eq_map_range, ← List.map_drop, ← List.map_take, window]
    rfl

/-- What is kept when all is read: as much as there is, and fewer than the needle has. -/
def keptLength (length a m : Nat) : Nat := min (length - 1) (m - a)

theorem combined_full {length a m count : Nat} (le : a ≤ m) :
    List.range' (m - keptLength length a m) (keptLength length a m) ++ List.range' m count =
      List.range' (m - keptLength length a m) (keptLength length a m + count) := by
  rw [← List.range'_append_1]
  congr 2
  unfold keptLength
  omega

theorem keptAt_full {length a m : Nat} (tiles : Tiles a done m) (full : ∀ chunk ∈ done, Full deliveries chunk) :
    keptAt deliveries length done = List.range' (m - keptLength length a m) (keptLength length a m) := by
  induction done using List.reverseRecOn generalizing m with
  | nil =>
    cases tiles
    rw [keptLength, Nat.sub_self, Nat.min_zero]
    rfl
  | append_singleton done chunk ih =>
    obtain ⟨m, first, rfl, some, rfl⟩ := tiles.append
    have before := ih first fun chunk mem => full chunk (List.mem_append_left _ mem)
    have whole := delivered_full (full chunk (List.mem_append_right _ (List.mem_singleton_self _)))
    have le := first.le
    rw [keptAt, List.foldl_append, List.foldl_cons, List.foldl_nil, keptAfter_of_delivered some whole]
    change keep length (keptAt deliveries length done ++ _) = _
    rw [before, combined_full le, keep, List.length_range', List.drop_range']
    unfold keptLength
    congr 1
    · omega
    · omega

/-- What is found of a region, from a chunk on. -/
theorem gather_full {a m b : Nat} (some : needle ≠ []) (below : b ≤ 2 ^ 32) (before : Tiles a done m)
    (after : Tiles m chunks b) (full : ∀ chunk ∈ done, Full deliveries chunk)
    (full' : ∀ chunk ∈ chunks, Full deliveries chunk) :
    gather (hitsOf deliveries memory needle) done chunks =
      (List.range' (m - keptLength needle.length a m)
        (b + 1 - needle.length - (m - keptLength needle.length a m))).filter (At memory needle ·) := by
  have positive := List.length_pos_iff.mpr some
  induction chunks generalizing done m with
  | nil =>
    cases after
    have none : b + 1 - needle.length - (b - keptLength needle.length a b) = 0 := by
      have := before.le
      unfold keptLength
      omega
    rw [none]
    rfl
  | cons chunk rest ih =>
    obtain ⟨rfl, some', rest_tiles⟩ := after
    have whole := full' chunk List.mem_cons_self
    have le := before.le
    have stop := rest_tiles.le
    have rest_hits := ih (before.concat some' rfl) rest_tiles
      (by
        intro c mem
        rcases List.mem_append.mp mem with mem | mem
        · exact full c mem
        · rw [List.mem_singleton.mp mem]
          exact whole)
      fun c mem => full' c (List.mem_cons_of_mem _ mem)
    rw [gather, hitsOf_of_delivered some' (delivered_full whole), keptAt_full before full, List.length_range',
      combined_full le, findAllSubslices_range' some, rest_hits]
    have low : ((List.range' (chunk.address - keptLength needle.length a chunk.address)
        (keptLength needle.length a chunk.address + chunk.requested + 1 - needle.length)).filter
          (At memory needle ·)).filter (· < 2 ^ 32) =
        (List.range' (chunk.address - keptLength needle.length a chunk.address)
          (keptLength needle.length a chunk.address + chunk.requested + 1 - needle.length)).filter
            (At memory needle ·) := by
      rw [List.filter_eq_self]
      intro x mem
      have mem := (List.mem_filter.mp mem).1
      rw [List.mem_range'_1] at mem
      rw [decide_eq_true_eq]
      unfold keptLength at mem
      omega
    rw [low, ← List.filter_append]
    congr 1
    have next : chunk.address + chunk.requested - keptLength needle.length a (chunk.address + chunk.requested) =
        chunk.address - keptLength needle.length a chunk.address +
          (keptLength needle.length a chunk.address + chunk.requested + 1 - needle.length) := by
      unfold keptLength
      omega
    rw [next, List.range'_append_1]
    congr 1
    unfold keptLength
    omega

theorem allHits_full {regions : List Region} (some : needle ≠ []) (full : AllFull deliveries regions) :
    allHits deliveries memory needle regions = occurrences memory needle regions := by
  unfold allHits occurrences
  apply List.flatMap_congr
  intro region mem
  have found : hits deliveries memory needle region.chunks = _ :=
    gather_full some region.below (show Tiles region.start [] region.start from rfl) region.tiles
      (fun chunk never => by cases never) (full region mem)
  have none : keptLength needle.length region.start region.start = 0 := by
    rw [keptLength, Nat.sub_self, Nat.min_zero]
  rw [none] at found
  exact found

end Full


/-! ## The search -/

section Sorting

theorem mem_destutter' {xs : List Nat} {x y : Nat} : y ∈ xs.destutter' (· ≠ ·) x ↔ y = x ∨ y ∈ xs := by
  induction xs generalizing x with
  | nil => rw [List.destutter'_nil, List.mem_singleton]; simp
  | cons a xs ih =>
    rw [List.destutter'_cons]
    split
    next => rw [List.mem_cons, ih, List.mem_cons]
    next same =>
      rw [Decidable.not_not] at same
      rw [ih, same, List.mem_cons]
      simp

theorem mem_sorted {found : List Nat} {address : Nat} : address ∈ sorted found ↔ address ∈ found := by
  have mem (xs : List Nat) : address ∈ xs.destutter (· ≠ ·) ↔ address ∈ xs := by
    cases xs with
    | nil => rfl
    | cons x xs => rw [List.destutter_cons', mem_destutter', List.mem_cons]
  rw [sorted, mem, List.mem_mergeSort]

theorem pairwise_lt_of_chain {xs : List Nat} (le : xs.Pairwise (· ≤ ·)) (ne : xs.IsChain (· ≠ ·)) :
    xs.Pairwise (· < ·) := by
  rw [← List.isChain_iff_pairwise] at le ⊢
  induction xs with
  | nil => exact .nil
  | cons x xs ih =>
    cases xs with
    | nil => exact .singleton x
    | cons y xs =>
      rw [List.isChain_cons_cons] at le ne ⊢
      exact ⟨Nat.lt_of_le_of_ne le.1 ne.1, ih le.2 ne.2⟩

theorem pairwise_sorted (found : List Nat) : (sorted found).Pairwise (· < ·) := by
  apply pairwise_lt_of_chain _ (List.isChain_destutter _ _)
  have le : (found.mergeSort (· ≤ ·)).Pairwise (· ≤ ·) := List.pairwise_mergeSort' (· ≤ ·) found
  exact le.sublist (List.destutter_sublist _ _)

end Sorting

section Right

variable {deliveries : Deliveries} {memory : Bytes} {needle : List UInt8} {regions : Regions} {length : Nat}

/-- The search reports only places of the needle, in order and each once; and all of them, if all is
read and they are not too many. -/
structure SearchRight (deliveries : Deliveries) (memory : Bytes) (needle : List UInt8)
    (regions : List Region) : Prop where
  sound : ∀ result, findAllWritableBytes deliveries memory needle regions = .ok result →
    result.Pairwise (· < ·) ∧ ∀ address ∈ result, Occurs memory needle regions address
  complete : AllFull deliveries regions → regions ≠ [] →
    (occurrences memory needle regions).length ≤ maxScanCandidates →
      ∃ result, findAllWritableBytes deliveries memory needle regions = .ok result ∧
        ∀ address, Occurs memory needle regions address → address ∈ result

theorem searchRight_of_kept {regions : List Region} (some : needle ≠ [])
    (right : KeptRight deliveries needle.length regions) : SearchRight deliveries memory needle regions where
  sound := by
    intro result done
    have some_regions : regions ≠ [] := by
      rintro rfl
      rw [findAllWritableBytes, if_neg some, if_pos rfl] at done
      cases done
    obtain ⟨-, -, rfl⟩ := (findAllWritableBytes_ok some some_regions).mp done
    refine ⟨pairwise_sorted _, ?_⟩
    intro address mem
    exact occurs_of_hit some right (mem_sorted.mp mem)
  complete := by
    intro full some_regions few
    refine ⟨sorted (allHits deliveries memory needle regions),
      (findAllWritableBytes_ok some some_regions).mpr ⟨?_, ?_, rfl⟩, ?_⟩
    · rwa [allHits_full some full]
    · obtain ⟨region, rest, rfl⟩ := List.exists_cons_of_ne_nil some_regions
      have tiles := region.tiles
      cases chunks : region.chunks with
      | nil =>
        rw [chunks] at tiles
        exact absurd tiles (Nat.ne_of_lt region.nonempty)
      | cons chunk more =>
        rw [chunks] at tiles
        have mem : chunk ∈ region.chunks := by
          rw [chunks]
          exact List.mem_cons_self
        refine ⟨region, List.mem_cons_self, chunk, mem, ?_⟩
        have whole := delivered_full (full region List.mem_cons_self chunk mem)
        obtain ⟨n, positive⟩ := Nat.exists_eq_succ_of_ne_zero (Nat.ne_of_gt tiles.2.1)
        rw [positive, List.range'_succ] at whole
        exact ⟨_, _, whole⟩
    · intro address occurs
      rw [mem_sorted, allHits_full some full]
      exact (mem_occurrences some).mpr occurs

/-- **The search is right** for every content and every needle of a length exactly when what is kept
before a chunk was read right before it. -/
theorem searchRight_iff (positive : 0 < length) :
    (∀ memory needle, needle.length = length → SearchRight deliveries memory needle regions.regions) ↔
      KeptRight deliveries length regions.regions := by
  constructor
  · intro right
    by_contra wrong
    unfold KeptRight at wrong
    push Not at wrong
    obtain ⟨region, mem, before, chunk, after, split, first, rest, delivers, enough, apart⟩ := wrong
    obtain ⟨count, some, small, same⟩ := delivered_some delivers
    rw [same] at delivers enough
    rw [List.length_range'] at enough
    let gap : Gap deliveries length regions :=
      ⟨region, mem, before, chunk, after, split, count, delivers, some, small, enough, apart⟩
    have ones_some : ones length ≠ [] := ones_ne_nil positive
    obtain ⟨few, found⟩ := gap.allHits_planted
    have done : findAllWritableBytes deliveries (planted gap.addresses) (ones length) regions.regions =
        .ok (sorted (allHits deliveries (planted gap.addresses) (ones length) regions.regions)) := by
      apply (findAllWritableBytes_ok ones_some (List.ne_nil_of_mem mem)).mpr
      refine ⟨Nat.le_trans few (by decide), ⟨region, mem, chunk, ?_, ?_⟩, rfl⟩
      · rw [split]
        exact List.mem_append_right _ List.mem_cons_self
      · exact ⟨first, rest, by rw [delivers, same]⟩
    obtain ⟨-, occurs⟩ := (right _ _ (size_ones length)).sound _ done
    obtain ⟨-, -, -, -, here⟩ := occurs _ (mem_sorted.mpr found)
    apply gap.not_at here
  · rintro right memory needle rfl
    exact searchRight_of_kept (List.length_pos_iff.mp positive) right

end Right

/-! ## The scan -/

section Scanning

variable {deliveries : Deliveries} {memory : Bytes} {needle : List UInt8} {chunk : Chunk}

/-- What a chunk adds to the candidates. -/
def candidatesOf (deliveries : Deliveries) (memory : Bytes) (needle : List UInt8) (chunk : Chunk) : List Nat :=
  match delivered deliveries chunk with
  | .error _ => []
  | .ok addresses =>
    if addresses.length < 4 then [] else scanAlignedChunk needle chunk.address (addresses.map memory)

/-- Four bytes of a chunk are delivered. -/
def DeliversWord (deliveries : Deliveries) (chunk : Chunk) : Prop :=
  ∃ addresses, delivered deliveries chunk = .ok addresses ∧ 4 ≤ addresses.length

structure Scanned (deliveries : Deliveries) (done : List Chunk) (candidates : List Nat) (scan : Scan) : Prop where
  candidates : scan.candidates = candidates
  reads : scan.successfulReads ≠ 0 ↔ ∃ chunk ∈ done, DeliversWord deliveries chunk

theorem scanChunk_collects {done : List Chunk} {candidates : List Nat} {scan : Scan}
    (few : candidates.length ≤ maxScanCandidates) (h : Scanned deliveries done candidates scan) :
    Collects maxScanCandidates tooManyCandidatesError candidates (candidatesOf deliveries memory needle chunk)
      (Scanned deliveries (done ++ [chunk])) (scanChunk deliveries memory needle scan chunk) := by
  obtain ⟨rfl, reads⟩ := h
  have some (P : Chunk → Prop) : (∃ c ∈ done ++ [chunk], P c) ↔ (∃ c ∈ done, P c) ∨ P chunk := by
    simp [or_and_right, exists_or]
  unfold scanChunk readChunk candidatesOf
  cases addresses : delivered deliveries chunk with
  | error e =>
    apply Collects.nothing few
    refine ⟨rfl, ?_⟩
    rw [reads, some, DeliversWord, addresses]
    simp
  | ok addresses' =>
    dsimp only [Except.map]
    rw [List.length_map]
    split
    next short =>
      apply Collects.nothing few
      refine ⟨rfl, ?_⟩
      rw [reads, some, DeliversWord, addresses]
      simp
      omega
    next enough =>
      split
      next many => exact .inl ⟨many, rfl⟩
      next few =>
        refine .inr ⟨Nat.le_of_not_lt few, _, rfl, rfl, ?_⟩
        rw [some, DeliversWord, addresses]
        simp
        omega

/-- What the scan of some regions finds. -/
def allCandidates (deliveries : Deliveries) (memory : Bytes) (needle : List UInt8) (regions : List Region) :
    List Nat :=
  (regions.flatMap Region.chunks).flatMap (candidatesOf deliveries memory needle)

theorem scanWritableU32_cases (deliveries : Deliveries) (memory : Bytes) (needle : List UInt8)
    {regions : List Region} (some : regions ≠ []) :
    (maxScanCandidates < (allCandidates deliveries memory needle regions).length ∧
      scanWritableU32 deliveries memory needle regions = .error tooManyCandidatesError) ∨
    (∃ e, scanWritableU32 deliveries memory needle regions = .error e ∧
      ∀ chunk ∈ regions.flatMap Region.chunks, ¬ DeliversWord deliveries chunk) ∨
    scanWritableU32 deliveries memory needle regions = .ok (allCandidates deliveries memory needle regions) := by
  have start : Scanned deliveries [] [] ⟨[], 0, none⟩ := by
    refine ⟨rfl, ?_⟩
    simp
  have run : Collects maxScanCandidates tooManyCandidatesError [] _ _
      ((regions.flatMap Region.chunks).foldlM (scanChunk deliveries memory needle) ⟨[], 0, none⟩) :=
    Collects.foldlM (regions.flatMap Region.chunks) (Nat.zero_le _) start
      fun done chunk candidates scan few h => scanChunk_collects few h
  rw [gather_const] at run
  unfold scanWritableU32
  rw [if_neg some]
  obtain ⟨many, failed⟩ | ⟨few, scan, done, scanned⟩ := run
  · rw [failed]
    exact .inl ⟨many, rfl⟩
  · right
    rw [done]
    change (∃ e, (if scan.successfulReads = 0 then _ else _) = _ ∧ _) ∨ (if scan.successfulReads = 0 then _ else _) = _
    split
    next none =>
      left
      refine ⟨_, rfl, ?_⟩
      intro chunk mem delivers
      exact absurd none (scanned.reads.mpr ⟨chunk, mem, delivers⟩)
    next =>
      right
      rw [scanned.candidates]
      rfl

theorem mem_scanAlignedChunk {start address : Nat} {bytes : List UInt8} (below : start + bytes.length ≤ 2 ^ 32) :
    address ∈ scanAlignedChunk needle start bytes ↔
      4 ∣ address ∧ start ≤ address ∧ address + 4 ≤ start + bytes.length ∧
        (bytes.drop (address - start)).take 4 = needle := by
  unfold scanAlignedChunk
  dsimp only
  split
  next short =>
    constructor
    · intro never
      cases never
    · rintro ⟨aligned, low, high, -⟩
      omega
  next enough =>
    simp only [List.mem_filter, List.mem_map, List.mem_range, decide_eq_true_eq]
    constructor
    · rintro ⟨⟨_, ⟨⟨i, inside, rfl⟩, same⟩, rfl⟩, -⟩
      refine ⟨by omega, by omega, by omega, ?_⟩
      rwa [Nat.add_sub_cancel_left]
    · rintro ⟨aligned, low, high, same⟩
      refine ⟨⟨address - start, ⟨⟨(address - start - (4 - start % 4) % 4) / 4, by omega, by omega⟩, same⟩, ?_⟩, ?_⟩
      · omega
      · omega

theorem nodup_scanAlignedChunk {start : Nat} {bytes : List UInt8} :
    (scanAlignedChunk needle start bytes).Nodup := by
  unfold scanAlignedChunk
  dsimp only
  split
  next => exact .nil
  next =>
    apply List.Nodup.filter
    apply List.Nodup.map fun x y same => Nat.add_left_cancel same
    apply List.Nodup.filter
    apply List.Nodup.map _ List.nodup_range
    intro x y same
    dsimp only at same
    omega

theorem delivered_ok {addresses : List Nat} (h : delivered deliveries chunk = .ok addresses) :
    ∃ count, count ≤ chunk.requested ∧ addresses = List.range' chunk.address count := by
  obtain ⟨count, -, same⟩ := Results.ok_of_map h
  exact ⟨min count chunk.requested, Nat.min_le_right _ _, same.symm⟩

theorem mem_candidatesOf {address : Nat} (word : needle.length = 4)
    (below : chunk.address + chunk.requested ≤ 2 ^ 32) :
    address ∈ candidatesOf deliveries memory needle chunk ↔
      4 ∣ address ∧ At memory needle address ∧
        ∃ addresses, delivered deliveries chunk = .ok addresses ∧ address ∈ addresses ∧ address + 3 ∈ addresses := by
  unfold candidatesOf
  cases delivers : delivered deliveries chunk with
  | error e =>
    constructor
    · intro never
      cases never
    · rintro ⟨-, -, addresses, never, -⟩
      cases never
  | ok addresses =>
    obtain ⟨count, small, rfl⟩ := delivered_ok delivers
    dsimp only
    have size : ((List.range' chunk.address count).map memory).length = count := by
      rw [List.length_map, List.length_range']
    have window (low : chunk.address ≤ address) (high : address + 4 ≤ chunk.address + count) :
        ((((List.range' chunk.address count).map memory).drop (address - chunk.address)).take 4 = needle ↔
          At memory needle address) := by
      rw [← List.map_drop, ← List.map_take, window_range' (by omega), Nat.add_sub_cancel' low, At, word]
    split
    next short =>
      rw [List.length_range'] at short
      constructor
      · intro never
        cases never
      · rintro ⟨-, -, addresses, same, first, last⟩
        cases same
        rw [List.mem_range'_1] at first last
        omega
    next =>
      rw [mem_scanAlignedChunk (by rw [size]; omega), size]
      constructor
      · rintro ⟨aligned, low, high, same⟩
        refine ⟨aligned, (window low high).mp same, _, rfl, ?_, ?_⟩
        · rw [List.mem_range'_1]
          omega
        · rw [List.mem_range'_1]
          omega
      · rintro ⟨aligned, here, addresses, same, first, last⟩
        cases same
        rw [List.mem_range'_1] at first last
        have high : address + 4 ≤ chunk.address + count := by omega
        exact ⟨aligned, first.1, high, (window first.1 high).mpr here⟩

theorem nodup_candidatesOf : (candidatesOf deliveries memory needle chunk).Nodup := by
  unfold candidatesOf
  split
  next => exact .nil
  next =>
    split
    next => exact .nil
    next => exact nodup_scanAlignedChunk

end Scanning

section Chunks

variable {deliveries : Deliveries} {memory : Bytes} {needle : List UInt8}

theorem Tiles.apart {chunks : List Chunk} {a b : Nat} (h : Tiles a chunks b) :
    chunks.Pairwise fun c c' => c.address + c.requested ≤ c'.address := by
  induction chunks generalizing a with
  | nil => exact .nil
  | cons c rest ih =>
    obtain ⟨rfl, -, rest⟩ := h
    rw [List.pairwise_cons]
    exact ⟨fun c' mem => (rest.mem mem).1, ih rest⟩

/-- The chunks of all regions. -/
def Regions.allChunks (regions : Regions) : List Chunk := regions.regions.flatMap Region.chunks

theorem Regions.apart (regions : Regions) :
    regions.allChunks.Pairwise fun c c' => c.address + c.requested ≤ c'.address := by
  rw [allChunks, List.pairwise_flatMap]
  refine ⟨fun region _ => region.tiles.apart, ?_⟩
  apply regions.ordered.imp
  intro region region' apart c mem c' mem'
  have := (region.tiles.mem mem).2
  have := (region'.tiles.mem mem').1
  omega

theorem chunksFrom_aligned {address remaining : Nat} (start : 4096 ∣ address) (size : 4096 ∣ remaining) :
    ∀ chunk ∈ chunksFrom address remaining, 4 ∣ chunk.address ∧ 4 ∣ chunk.requested := by
  induction address, remaining using chunksFrom.induct with
  | case1 address =>
    rw [chunksFrom, if_pos rfl]
    intro chunk never
    cases never
  | case2 address remaining some requested ih =>
    rw [chunksFrom, if_neg some]
    have whole : 4096 ∣ requested := by
      have : scanChunkSize = 1048576 := rfl
      show 4096 ∣ min remaining scanChunkSize
      rcases Nat.le_total remaining scanChunkSize with le | le
      · rw [Nat.min_eq_left le]
        exact size
      · rw [Nat.min_eq_right le]
        decide
    intro chunk mem
    rcases List.mem_cons.mp mem with rfl | mem
    · exact ⟨Nat.dvd_trans (by decide) start, Nat.dvd_trans (by decide) whole⟩
    · exact ih (Nat.dvd_add start whole) (Nat.dvd_sub size whole) chunk mem

theorem Regions.mem_allChunks {regions : Regions} {chunk : Chunk} (mem : chunk ∈ regions.allChunks) :
    4 ∣ chunk.address ∧ 4 ∣ chunk.requested ∧ chunk.address + chunk.requested ≤ 2 ^ 32 := by
  obtain ⟨region, listed, mem⟩ := List.mem_flatMap.mp mem
  obtain ⟨first, second⟩ :=
    chunksFrom_aligned region.aligned.1 (Nat.dvd_sub region.aligned.2 region.aligned.1) chunk mem
  exact ⟨first, second, Nat.le_trans (region.tiles.mem mem).2 region.below⟩

def Chunk.Apart (c c' : Chunk) : Prop :=
  c.address + c.requested ≤ c'.address ∨ c'.address + c'.requested ≤ c.address

instance : Std.Symm Chunk.Apart := ⟨fun _ _ => Or.symm⟩

/-- A byte is read. -/
def Read (deliveries : Deliveries) (regions : Regions) (address : Nat) : Prop :=
  ∃ chunk ∈ regions.allChunks, ∃ addresses, delivered deliveries chunk = .ok addresses ∧ address ∈ addresses

/-- A word at a multiple of four that is read is read with one chunk. -/
theorem read_once {regions : Regions} {address : Nat} (aligned : 4 ∣ address)
    (first : Read deliveries regions address) (last : Read deliveries regions (address + 3)) :
    ∃ chunk ∈ regions.allChunks, ∃ addresses, delivered deliveries chunk = .ok addresses ∧ address ∈ addresses ∧
      address + 3 ∈ addresses := by
  obtain ⟨chunk, mem, addresses, delivers, here⟩ := first
  obtain ⟨chunk', mem', addresses', delivers', here'⟩ := last
  obtain ⟨count, small, rfl⟩ := delivered_ok delivers
  obtain ⟨count', small', rfl⟩ := delivered_ok delivers'
  have bounds := List.mem_range'_1.mp here
  have bounds' := List.mem_range'_1.mp here'
  obtain ⟨start, size, -⟩ := Regions.mem_allChunks mem
  have same : chunk = chunk' := by
    by_contra different
    have apart : regions.allChunks.Pairwise Chunk.Apart := regions.apart.imp fun le => .inl le
    have := apart.forall mem mem' different
    unfold Chunk.Apart at this
    omega
  subst same
  rw [delivers] at delivers'
  rw [← Except.ok.inj delivers'] at here'
  exact ⟨chunk, mem, _, delivers, here, here'⟩

/-- The word is at a multiple of four, and all of it is read. -/
def ReadWord (deliveries : Deliveries) (memory : Bytes) (needle : List UInt8) (regions : Regions)
    (address : Nat) : Prop :=
  4 ∣ address ∧ At memory needle address ∧ ∀ x, address ≤ x → x < address + 4 → Read deliveries regions x

theorem mem_allCandidates {regions : Regions} {address : Nat} (word : needle.length = 4) :
    address ∈ allCandidates deliveries memory needle regions.regions ↔
      ReadWord deliveries memory needle regions address := by
  unfold allCandidates
  change address ∈ regions.allChunks.flatMap _ ↔ _
  rw [List.mem_flatMap]
  constructor
  · rintro ⟨chunk, mem, found⟩
    obtain ⟨aligned, here, addresses, delivers, first, last⟩ :=
      (mem_candidatesOf word (Regions.mem_allChunks mem).2.2).mp found
    obtain ⟨count, -, rfl⟩ := delivered_ok delivers
    rw [List.mem_range'_1] at first last
    refine ⟨aligned, here, ?_⟩
    intro x low high
    refine ⟨chunk, mem, _, delivers, ?_⟩
    rw [List.mem_range'_1]
    omega
  · rintro ⟨aligned, here, read⟩
    obtain ⟨chunk, mem, addresses, delivers, first, last⟩ :=
      read_once aligned (read address (Nat.le_refl _) (by omega)) (read (address + 3) (by omega) (by omega))
    exact ⟨chunk, mem, (mem_candidatesOf word (Regions.mem_allChunks mem).2.2).mpr
      ⟨aligned, here, addresses, delivers, first, last⟩⟩

theorem nodup_allCandidates {regions : Regions} (word : needle.length = 4) :
    (allCandidates deliveries memory needle regions.regions).Nodup := by
  unfold allCandidates
  change (regions.allChunks.flatMap _).Nodup
  rw [List.nodup_flatMap]
  refine ⟨fun chunk _ => nodup_candidatesOf, ?_⟩
  have apart := regions.apart
  rw [List.pairwise_iff_forall_sublist] at apart ⊢
  intro c c' sub
  have mem := sub.subset List.mem_cons_self
  have mem' := sub.subset (List.mem_cons_of_mem _ List.mem_cons_self)
  have le := apart sub
  intro x found found'
  obtain ⟨-, -, addresses, delivers, first, -⟩ := (mem_candidatesOf word (Regions.mem_allChunks mem).2.2).mp found
  obtain ⟨-, -, addresses', delivers', first', -⟩ :=
    (mem_candidatesOf word (Regions.mem_allChunks mem').2.2).mp found'
  obtain ⟨count, small, rfl⟩ := delivered_ok delivers
  obtain ⟨count', small', rfl⟩ := delivered_ok delivers'
  rw [List.mem_range'_1] at first first'
  omega

end Chunks


/-! ## Both searches -/

section Exact

variable {deliveries : Deliveries} {memory : Bytes} {needle : List UInt8} {regions : Regions}

/-- The scan finds each aligned word that is read exactly once; it fails only where these are too many,
or none are read. -/
structure ScanRight (deliveries : Deliveries) (memory : Bytes) (needle : List UInt8) (regions : Regions) :
    Prop where
  exact : ∀ candidates, scanWritableU32 deliveries memory needle regions.regions = .ok candidates →
    candidates.Nodup ∧ ∀ address, address ∈ candidates ↔ ReadWord deliveries memory needle regions address
  fails : ∀ e, scanWritableU32 deliveries memory needle regions.regions = .error e →
    (∃ candidates : List Nat, candidates.Nodup ∧ maxScanCandidates < candidates.length ∧
      ∀ address ∈ candidates, ReadWord deliveries memory needle regions address) ∨
    ∀ address, ¬ ReadWord deliveries memory needle regions address

theorem scanRight (word : needle.length = 4) : ScanRight deliveries memory needle regions := by
  have all (address : Nat) : address ∈ allCandidates deliveries memory needle regions.regions ↔
      ReadWord deliveries memory needle regions address := mem_allCandidates word
  have nodup : (allCandidates deliveries memory needle regions.regions).Nodup := nodup_allCandidates word
  by_cases some : regions.regions = []
  · have failed : scanWritableU32 deliveries memory needle regions.regions = .error noRegionsError := by
      rw [scanWritableU32, if_pos some]
    constructor
    · intro candidates never
      rw [failed] at never
      cases never
    · intro e _
      right
      intro address word
      rw [← all, allCandidates, some] at word
      cases word
  · obtain ⟨many, failed⟩ | ⟨e, failed, none⟩ | done := scanWritableU32_cases deliveries memory needle some
    · constructor
      · intro candidates never
        rw [failed] at never
        cases never
      · intro e _
        exact .inl ⟨_, nodup, many, fun address mem => (all address).mp mem⟩
    · constructor
      · intro candidates never
        rw [failed] at never
        cases never
      · intro e _
        right
        rintro address ⟨aligned, -, read⟩
        obtain ⟨chunk, mem, addresses, delivers, first, last⟩ :=
          read_once aligned (read address (Nat.le_refl _) (by omega)) (read (address + 3) (by omega) (by omega))
        apply none chunk mem
        obtain ⟨count, -, rfl⟩ := delivered_ok delivers
        refine ⟨_, delivers, ?_⟩
        rw [List.mem_range'_1] at first last
        rw [List.length_range']
        omega
    · constructor
      · intro candidates same
        rw [done] at same
        cases same
        exact ⟨nodup, all⟩
      · intro e never
        rw [done] at never
        cases never

end Exact

theorem keptRight_zero (deliveries : Deliveries) (regions : List Region) : KeptRight deliveries 0 regions := by
  intro region _ before chunk after _ first rest _ _
  have none : keptAt deliveries 0 before = [] := by
    have short := length_keptAt deliveries 0 before
    exact List.length_eq_zero_iff.mp (Nat.le_zero.mp short)
  rw [none]
  rfl

/-- **The search of the memory is exact**, whatever is stored, exactly when the bytes that are kept
before a chunk were read right before it. -/
theorem memory_search_exact_iff (deliveries : Deliveries) (regions : Regions) (length : Nat) :
    ((∀ memory needle, needle ≠ [] → needle.length = length →
        SearchRight deliveries memory needle regions.regions) ∧
      ∀ memory needle, needle.length = 4 → ScanRight deliveries memory needle regions) ↔
    KeptRight deliveries length regions.regions := by
  constructor
  · rintro ⟨right, -⟩
    rcases Nat.eq_zero_or_pos length with rfl | positive
    · exact keptRight_zero _ _
    · apply (searchRight_iff positive).mp
      intro memory needle size
      apply right memory needle _ size
      rintro rfl
      exact absurd size (Nat.ne_of_lt positive)
  · intro kept
    refine ⟨?_, fun memory needle word => scanRight word⟩
    rintro memory needle some rfl
    exact searchRight_of_kept some kept

/-- Two chunks, of which one page each is delivered. -/
def twoChunks : Region where
  start := 0x100000
  stop := 0x300000
  nonempty := by decide
  below := by decide
  aligned := by decide

theorem twoChunks_chunks : twoChunks.chunks = [⟨0x100000, 0x100000⟩, ⟨0x200000, 0x100000⟩] := by
  simp [Region.chunks, twoChunks, chunksFrom, scanChunkSize]

def onePageEach : Deliveries := fun _ => .ok 4096

/-- What is kept of the first page is its last byte. -/
theorem keptAt_firstPage : keptAt onePageEach 2 [⟨0x100000, 0x100000⟩] = [0x100FFF] := by
  have first : keptAfter onePageEach 2 [] ⟨0x100000, 0x100000⟩ =
      keep 2 ([] ++ List.range' 0x100000 4096) :=
    keptAfter_of_delivered (by decide) rfl
  rw [keptAt, List.foldl_cons, List.foldl_nil, first, List.nil_append, keep, List.length_range',
    List.drop_range']
  rfl

/-- The byte before the second chunk is not read. -/
def pageGap : Gap onePageEach 2 ⟨[twoChunks], List.pairwise_singleton _ _⟩ where
  region := twoChunks
  mem := List.mem_cons_self
  before := [⟨0x100000, 0x100000⟩]
  chunk := ⟨0x200000, 0x100000⟩
  after := []
  split := twoChunks_chunks
  count := 4096
  delivered := rfl
  positive := by decide
  small := by decide
  enough := by
    rw [keptAt_firstPage]
    decide
  apart := by
    rw [keptAt_firstPage]
    unfold EndsAt
    decide

theorem pageGap_addresses : pageGap.addresses = [0x100FFF, 0x200000] := by
  have kept : pageGap.keptBefore = [0x100FFF] := keptAt_firstPage
  rw [Gap.addresses, kept]
  rfl

/-- Both ones are read, and the two are found at an address whose byte is a zero. -/
theorem finds_across_a_gap :
    findAllWritableBytes onePageEach (planted [0x100FFF, 0x200000]) [1, 1] [twoChunks] = .ok [0x1FFFFF] ∧
      ¬ SearchRight onePageEach (planted [0x100FFF, 0x200000]) [1, 1] [twoChunks] := by
  have done : findAllWritableBytes onePageEach (planted [0x100FFF, 0x200000]) [1, 1] [twoChunks] =
      .ok [0x1FFFFF] := by
    obtain ⟨few, mem⟩ := pageGap.allHits_planted
    have kept : pageGap.keptBefore = [0x100FFF] := keptAt_firstPage
    rw [pageGap_addresses] at few mem
    rw [kept] at mem
    obtain ⟨before, after, found⟩ := List.append_of_mem mem
    rw [found, List.length_append, List.length_cons] at few
    obtain rfl := List.length_eq_zero_iff.mp (show before.length = 0 by omega)
    obtain rfl := List.length_eq_zero_iff.mp (show after.length = 0 by omega)
    apply (findAllWritableBytes_ok (by decide) (by simp)).mpr
    refine ⟨?_, ⟨twoChunks, List.mem_singleton_self _, ⟨0x100000, 0x100000⟩, ?_, ?_⟩, ?_⟩
    · exact Nat.le_trans (Nat.le_of_eq (congrArg List.length found)) (by decide)
    · rw [twoChunks_chunks]
      exact List.mem_cons_self
    · exact ⟨0x100000, List.range' 0x100001 4095, rfl⟩
    · rw [show allHits onePageEach (planted [0x100FFF, 0x200000]) [1, 1] [twoChunks] = [0x1FFFFF] from found]
      simp [sorted]
  refine ⟨done, ?_⟩
  intro right
  obtain ⟨-, occurs⟩ := right.sound _ done
  obtain ⟨-, -, -, -, here⟩ := occurs 0x1FFFFF List.mem_cons_self
  exact absurd here (by decide)

end RoLauncher.Memory
