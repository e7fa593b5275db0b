import RoLauncher.Results.Except
import RoLauncher.Runtime.Bytes
import RoLauncher.Text.Lossy

/-!
# Reading the memory of a client (`proc_memory.rs`, `wine_process.rs`)

A reader is opened for one process, given by its PID and start time, and checks
that the PID still belongs to it before it asks the kernel for bytes, by
`process_vm_readv` and then by the file of the process's memory. Between any two steps the
process may exit and its PID be given to another one; the kernel delivers as many
bytes as it likes of those that can be read. What it does is the schedule of a
read; what is in memory meanwhile is left open, so that a read is right
only when it is for every content.

The file of the memory belongs to the process it was opened for, and has no bytes
when that is gone.
-/

namespace RoLauncher.Memory

open RoLauncher.Runtime (fromLeBytes fromLeBytes_injective)
open Text (fromUtf8Lossy)

inductive ToolsError
  | memoryRead (address : UInt32) (message : String)
  | other (message : String)
  deriving DecidableEq, Repr

structure ProcessIdentity where
  pid : UInt32
  startTime : UInt64
  deriving DecidableEq, Repr

/-- How far the kernel gets: it fails, or delivers what can be read up to a count. -/
inductive Transfer
  | fails (errno : Int32)
  | upTo (count : Nat)

/-- What happens at each step: who has a PID, what a process has mapped, and what the kernel does.
The wording of an error number is the library's. -/
structure Schedule where
  startTime : Nat → UInt32 → Option UInt64
  mapped : Nat → ProcessIdentity → Nat → Bool
  vm : Nat → Transfer
  mem : Nat → Transfer
  strerror : Int32 → String

/-- What is stored in each process at each step. -/
abbrev Contents := Nat → ProcessIdentity → Nat → UInt8

structure ProcMemoryReader where
  identity : ProcessIdentity
  file : Bool
  memOpenErrno : Option Int32

/-! ## The kernel -/

section Kernel

variable (s : Schedule) (contents : Contents)

def captureProcessIdentity (t : Nat) (pid : UInt32) : Option ProcessIdentity :=
  (s.startTime t pid).map fun startTime => ⟨pid, startTime⟩

def verifyProcessIdentity (t : Nat) (identity : ProcessIdentity) : Bool :=
  captureProcessIdentity s t identity.pid = some identity

/-- How many of the bytes can be read, from the first one on. -/
def readable (t : Nat) (identity : ProcessIdentity) (address : Nat) : Nat → Nat
  | 0 => 0
  | len + 1 => if s.mapped t identity address then readable t identity (address + 1) len + 1 else 0

/-- The bytes that are stored from an address on. -/
def stored (t : Nat) (identity : ProcessIdentity) (address : Nat) : Nat → List UInt8
  | 0 => []
  | len + 1 => contents t identity address :: stored t identity (address + 1) len

def ESRCH : Int32 := 3
def EIO : Int32 := 5
def EFAULT : Int32 := 14

/-- Of a request for bytes the first of which cannot be read nothing is delivered: it fails. -/
def Unreadable (t : Nat) (identity : ProcessIdentity) (address len : Nat) : Prop :=
  len ≠ 0 ∧ readable s t identity address len = 0

instance (t : Nat) (identity : ProcessIdentity) (address len : Nat) :
    Decidable (Unreadable s t identity address len) := inferInstanceAs (Decidable (_ ∧ _))

/-- What a call delivers that gets so far. -/
def transfer (errno : Int32) (t : Nat) (identity : ProcessIdentity) (address len count : Nat) :
    Except Int32 (List UInt8) :=
  if Unreadable s t identity address len then .error errno
  else .ok (stored contents t identity address (min count (readable s t identity address len)))

/-- `process_vm_readv`: the bytes it delivers, from whoever has the PID. -/
def readViaVm (t : Nat) (pid : UInt32) (address : UInt32) (len : Nat) : Except Int32 (List UInt8) :=
  match s.vm t with
  | .fails errno => .error errno
  | .upTo count =>
    match captureProcessIdentity s t pid with
    | none => .error ESRCH
    | some identity => transfer s contents EFAULT t identity address.toNat len count

/-- `read_at` on the file of a process's memory. -/
def readAt (t : Nat) (identity : ProcessIdentity) (address : UInt32) (len : Nat) :
    Except Int32 (List UInt8) :=
  match s.mem t with
  | .fails errno => .error errno
  | .upTo count =>
    if verifyProcessIdentity s t identity then transfer s contents EIO t identity address.toNat len count
    else .ok []

end Kernel

/-! ## The reader -/

def staleError (address : UInt32) : ToolsError :=
  .memoryRead address "identidad de proceso desactualizada"

def opened (memOpenErrno : Option Int32) : String := (memOpenErrno.map toString).getD "none"

/-- How an `io::Error` reads. -/
def ioError (s : Schedule) (errno : Int32) : String :=
  s.strerror errno ++ " (os error " ++ toString errno ++ ")"

/-- A buffer of zeros with these bytes in front. -/
def filled (len : Nat) (bytes : List UInt8) : List UInt8 := bytes ++ List.replicate (len - bytes.length) 0

section Reading

variable (s : Schedule) (contents : Contents) (reader : ProcMemoryReader)

/-- What follows in `read_bytes_at` when `process_vm_readv` has failed. -/
def readFile (t : Nat) (vmErrno : Int32) (address : UInt32) (len : Nat) :
    Except ToolsError (List UInt8 × Nat) × Nat :=
  if !verifyProcessIdentity s t reader.identity then (.error (staleError address), t + 1)
  else if !reader.file then
    (.error (.memoryRead address ("process_vm_readv errno=" ++ toString vmErrno ++
      "; /proc/mem no abierto (mem_open_errno=" ++ opened reader.memOpenErrno ++ ")")), t + 1)
  else
    match readAt s contents (t + 1) reader.identity address len with
    | .ok bytes => (.ok (filled len bytes, bytes.length), t + 2)
    | .error e =>
      (.error (.memoryRead address ("process_vm_readv errno=" ++ toString vmErrno ++ "; /proc/mem: " ++
        ioError s e ++ " (mem_open_errno=" ++ opened reader.memOpenErrno ++ ")")), t + 2)

/-- The buffer and the count, and the step at which it is done. -/
def readBytesAt (t : Nat) (address : UInt32) (len : Nat) :
    Except ToolsError (List UInt8 × Nat) × Nat :=
  if !verifyProcessIdentity s t reader.identity then (.error (staleError address), t + 1)
  else
    match readViaVm s contents (t + 1) reader.identity.pid address len with
    | .ok bytes => (.ok (filled len bytes, bytes.length), t + 2)
    | .error errno => readFile s contents reader (t + 2) errno address len

/-- The count is not looked at. -/
def readU32 (t : Nat) (address : UInt32) : Except ToolsError Nat × Nat :=
  let read := readBytesAt s contents reader t address 4
  (read.1.map fun buffer => fromLeBytes buffer.1, read.2)

def readString (t : Nat) (address : UInt32) (maxLen : Nat) : Except ToolsError String × Nat :=
  let read := readBytesAt s contents reader t address maxLen
  (read.1.map fun buffer => fromUtf8Lossy ((buffer.1.take buffer.2).takeWhile (· ≠ 0)), read.2)

/-- The words of a buffer. -/
def chunks : Nat → List UInt8 → List Nat
  | 0, _ => []
  | len + 1, bytes => fromLeBytes (bytes.take 4) :: chunks len (bytes.drop 4)

def readU32Slice (t : Nat) (address : UInt32) (len : Nat) : Except ToolsError (List Nat) × Nat :=
  let read := readBytesAt s contents reader t address (len * 4)
  (read.1.bind fun buffer =>
    if buffer.2 ≠ len * 4 then
      .error (.memoryRead address ("lectura HP/SP incompleta: " ++ toString buffer.2 ++ " de " ++
        toString (len * 4) ++ " bytes"))
    else .ok (chunks len buffer.1), read.2)

/-- The four words, each read by itself; the sums of addresses wrap. -/
def probeStats (t : Nat) (hpBase : UInt32) : Except ToolsError (Nat × Nat × Nat × Nat) × Nat :=
  match readU32 s contents reader t hpBase with
  | (.error e, t) => (.error e, t)
  | (.ok curHp, t) =>
    match readU32 s contents reader t (hpBase + 4) with
    | (.error e, t) => (.error e, t)
    | (.ok maxHp, t) =>
      match readU32 s contents reader t (hpBase + 8) with
      | (.error e, t) => (.error e, t)
      | (.ok curSp, t) =>
        match readU32 s contents reader t (hpBase + 12) with
        | (.error e, t) => (.error e, t)
        | (.ok maxSp, t) => (.ok (curHp, maxHp, curSp, maxSp), t)

end Reading

/-! ## The transfer that answers -/

/-- When the bytes were delivered, from which process, and how many. -/
structure Answer where
  time : Nat
  source : ProcessIdentity
  count : Nat

section Answers

variable (s : Schedule) (reader : ProcMemoryReader)

def deliver (time : Nat) (source : ProcessIdentity) (address : UInt32) (len count : Nat) :
    Option Answer :=
  if Unreadable s time source address.toNat len then none
  else some ⟨time, source, min count (readable s time source address.toNat len)⟩

def answerFile (t : Nat) (address : UInt32) (len : Nat) : Option Answer × Nat :=
  if verifyProcessIdentity s t reader.identity && reader.file then
    match s.mem (t + 1) with
    | .fails _ => (none, t + 2)
    | .upTo count =>
      if verifyProcessIdentity s (t + 1) reader.identity then
        (deliver s (t + 1) reader.identity address len count, t + 2)
      else (some ⟨t + 1, reader.identity, 0⟩, t + 2)
  else (none, t + 1)

/-- The transfer that answers a read, if one does, and the step at which the read is done. -/
def answer (t : Nat) (address : UInt32) (len : Nat) : Option Answer × Nat :=
  if verifyProcessIdentity s t reader.identity then
    match s.vm (t + 1) with
    | .fails _ => answerFile s reader (t + 2) address len
    | .upTo count =>
      let source := captureProcessIdentity s (t + 1) reader.identity.pid
      match source.bind fun source => deliver s (t + 1) source address len count with
      | none => answerFile s reader (t + 2) address len
      | some delivered => (some delivered, t + 2)
  else (none, t + 1)

end Answers

section Spec

variable {s : Schedule} {contents : Contents} {reader : ProcMemoryReader} {t : Nat} {address : UInt32}
  {len : Nat} {a : Answer}

@[simp] theorem length_stored (contents : Contents) (t : Nat) (identity : ProcessIdentity)
    (address len : Nat) : (stored contents t identity address len).length = len := by
  induction len generalizing address with
  | zero => rfl
  | succ len ih => rw [stored, List.length_cons, ih]

theorem readable_le (s : Schedule) (t : Nat) (identity : ProcessIdentity) (address len : Nat) :
    readable s t identity address len ≤ len := by
  induction len generalizing address with
  | zero => exact Nat.le_refl 0
  | succ len ih =>
    unfold readable
    split
    next => exact Nat.succ_le_succ (ih _)
    next => exact Nat.zero_le _

/-- Fewer bytes can be read, when more can. -/
theorem readable_of_le {identity : ProcessIdentity} {address count : Nat}
    (le : count ≤ readable s t identity address len) : readable s t identity address count = count := by
  induction len generalizing address count with
  | zero =>
    rw [Nat.le_zero.mp le]
    rfl
  | succ len ih =>
    cases count with
    | zero => rfl
    | succ count =>
      unfold readable at le ⊢
      split at le
      next mapped =>
        rw [if_pos mapped, ih (Nat.le_of_succ_le_succ le)]
      next => cases le

/-- What a read gives for an answer: its bytes, or an error. -/
def Gives (contents : Contents) (address : UInt32) (len : Nat) (answer : Option Answer × Nat)
    (read : Except ToolsError (List UInt8 × Nat) × Nat) : Prop :=
  read.2 = answer.2 ∧
    match answer.1 with
    | some a => read.1 = .ok (filled len (stored contents a.time a.source address.toNat a.count), a.count)
    | none => ∃ e, read.1 = .error e

theorem deliver_eq_some {time count : Nat} {source : ProcessIdentity} :
    deliver s time source address len count = some a ↔
      ¬ Unreadable s time source address.toNat len ∧
        a = ⟨time, source, min count (readable s time source address.toNat len)⟩ := by
  unfold deliver
  split
  next unreadable => exact iff_of_false (by simp) fun h => h.1 unreadable
  next readable =>
    rw [Option.some.injEq]
    exact ⟨fun same => ⟨readable, same.symm⟩, fun h => h.2.symm⟩

theorem readFile_gives (t : Nat) (vmErrno : Int32) :
    Gives contents address len (answerFile s reader t address len)
      (readFile s contents reader t vmErrno address len) := by
  unfold answerFile readFile readAt
  cases verifyProcessIdentity s t reader.identity with
  | false => exact ⟨rfl, _, rfl⟩
  | true =>
    cases reader.file with
    | false => exact ⟨rfl, _, rfl⟩
    | true =>
      cases s.mem (t + 1) with
      | fails errno => exact ⟨rfl, _, rfl⟩
      | upTo count =>
        cases verifyProcessIdentity s (t + 1) reader.identity with
        | false => exact ⟨rfl, rfl⟩
        | true =>
          unfold deliver transfer
          by_cases unreadable : Unreadable s (t + 1) reader.identity address.toNat len
          · simp [Gives, unreadable]
          · simp [Gives, unreadable]

/-- The buffer of a read is what the answer delivers. -/
theorem readBytesAt_gives (s : Schedule) (contents : Contents) (reader : ProcMemoryReader) (t : Nat)
    (address : UInt32) (len : Nat) :
    Gives contents address len (answer s reader t address len)
      (readBytesAt s contents reader t address len) := by
  unfold answer readBytesAt readViaVm
  cases verifyProcessIdentity s t reader.identity with
  | false => exact ⟨rfl, _, rfl⟩
  | true =>
    cases s.vm (t + 1) with
    | fails errno => exact readFile_gives (t + 2) errno
    | upTo count =>
      cases captureProcessIdentity s (t + 1) reader.identity.pid with
      | none => exact readFile_gives (t + 2) ESRCH
      | some source =>
        unfold deliver transfer
        by_cases unreadable : Unreadable s (t + 1) source address.toNat len
        · simp only [Option.bind_some, if_pos unreadable]
          exact readFile_gives (t + 2) EFAULT
        · simp [Gives, unreadable]

/-- What is known of an answer. -/
structure Answered (s : Schedule) (reader : ProcMemoryReader) (t : Nat) (address : UInt32) (len : Nat)
    (a : Answer) : Prop where
  verified : verifyProcessIdentity s t reader.identity = true
  after : t ≤ a.time
  before : a.time < (answer s reader t address len).2
  held : a.source = reader.identity → 0 < a.count → verifyProcessIdentity s a.time reader.identity = true
  mapped : a.count ≤ readable s a.time a.source address.toNat len

theorem answerFile_some (found : (answerFile s reader t address len).1 = some a) :
    a.time = t + 1 ∧ (answerFile s reader t address len).2 = t + 2 ∧ a.source = reader.identity ∧
      (0 < a.count → verifyProcessIdentity s a.time reader.identity = true) ∧
      a.count ≤ readable s a.time a.source address.toNat len := by
  revert found
  unfold answerFile
  cases verifyProcessIdentity s t reader.identity && reader.file with
  | false =>
    intro never
    cases never
  | true =>
    cases s.mem (t + 1) with
    | fails errno =>
      intro never
      cases never
    | upTo count =>
      cases held : verifyProcessIdentity s (t + 1) reader.identity with
      | false =>
        intro same
        cases same
        exact ⟨rfl, rfl, rfl, fun never => absurd never (Nat.lt_irrefl 0), Nat.zero_le _⟩
      | true =>
        intro same
        obtain ⟨-, rfl⟩ := deliver_eq_some.mp same
        exact ⟨rfl, rfl, rfl, fun _ => held, Nat.min_le_right _ _⟩

theorem answered (found : (answer s reader t address len).1 = some a) :
    Answered s reader t address len a := by
  have file (verified : verifyProcessIdentity s t reader.identity = true)
      (same : answer s reader t address len = answerFile s reader (t + 2) address len) :
      Answered s reader t address len a := by
    rw [same] at found
    obtain ⟨time, ends, source, held, mapped⟩ := answerFile_some found
    refine ⟨verified, by omega, ?_, fun _ => held, mapped⟩
    rw [same, ends]
    omega
  cases verified : verifyProcessIdentity s t reader.identity with
  | false =>
    unfold answer at found
    rw [verified] at found
    cases found
  | true =>
    cases vm : s.vm (t + 1) with
    | fails errno =>
      apply file verified
      unfold answer
      rw [verified, vm]
      rfl
    | upTo count =>
      cases given : (captureProcessIdentity s (t + 1) reader.identity.pid).bind fun source =>
          deliver s (t + 1) source address len count with
      | none =>
        apply file verified
        unfold answer
        rw [verified, vm]
        dsimp only
        rw [given]
        rfl
      | some delivered =>
        have same : answer s reader t address len = (some delivered, t + 2) := by
          unfold answer
          rw [verified, vm]
          dsimp only
          rw [given]
          rfl
        rw [same] at found
        cases found
        obtain ⟨source, captured, given⟩ := Option.bind_eq_some_iff.mp given
        obtain ⟨-, rfl⟩ := deliver_eq_some.mp given
        refine ⟨verified, Nat.le_succ t, ?_, ?_, Nat.min_le_right _ _⟩
        · rw [same]
          exact Nat.lt_succ_self _
        · intro mine _
          cases mine
          exact decide_eq_true captured

/-! ## What a read should report -/

/-- Sometime between two steps the process lives, and has these bytes at the address. -/
def Holds (s : Schedule) (contents : Contents) (identity : ProcessIdentity) (t t' : Nat) (address : Nat)
    (bytes : List UInt8) : Prop :=
  ∃ time, t ≤ time ∧ time < t' ∧ verifyProcessIdentity s time identity = true ∧
    readable s time identity address bytes.length = bytes.length ∧
      stored contents time identity address bytes.length = bytes

/-- The word is stored at the address. -/
def HoldsWord (s : Schedule) (contents : Contents) (identity : ProcessIdentity) (t t' : Nat)
    (address : Nat) (word : Nat) : Prop :=
  ∃ bytes, bytes.length = 4 ∧ Holds s contents identity t t' address bytes ∧ word = fromLeBytes bytes

theorem Holds.mono {identity : ProcessIdentity} {t t' u u' address : Nat} {bytes : List UInt8}
    (holds : Holds s contents identity t t' address bytes) (later : u ≤ t) (earlier : t' ≤ u') :
    Holds s contents identity u u' address bytes := by
  obtain ⟨time, after, before, rest⟩ := holds
  exact ⟨time, Nat.le_trans later after, Nat.lt_of_lt_of_le before earlier, rest⟩

theorem HoldsWord.mono {identity : ProcessIdentity} {t t' u u' address word : Nat}
    (holds : HoldsWord s contents identity t t' address word) (later : u ≤ t) (earlier : t' ≤ u') :
    HoldsWord s contents identity u u' address word := by
  obtain ⟨bytes, length, holds, same⟩ := holds
  exact ⟨bytes, length, holds.mono later earlier, same⟩

theorem Answered.lt (h : Answered s reader t address len a) : t < (answer s reader t address len).2 :=
  Nat.lt_of_le_of_lt h.after h.before

theorem Answered.count_le (h : Answered s reader t address len a) : a.count ≤ len :=
  Nat.le_trans h.mapped (readable_le _ _ _ _ _)

/-- What the reader's own process delivers is held there, and so are no bytes. -/
theorem Answered.holds (h : Answered s reader t address len a) (contents : Contents)
    (mine : 0 < a.count → a.source = reader.identity) :
    Holds s contents reader.identity t (answer s reader t address len).2 address.toNat
      (stored contents a.time a.source address.toNat a.count) := by
  rcases Nat.eq_zero_or_pos a.count with none | some
  · rw [none]
    exact ⟨t, Nat.le_refl t, h.lt, h.verified, rfl, rfl⟩
  · have source := mine some
    refine ⟨a.time, h.after, h.before, h.held source some, ?_, ?_⟩
    · rw [length_stored, ← source]
      exact readable_of_le h.mapped
    · rw [length_stored, source]

/-! ## Contents that tell the processes apart -/

/-- The process of the identity has one byte everywhere, and every other has another. -/
def marked (identity : ProcessIdentity) (mine other : UInt8) : Contents := fun _ source _ =>
  if source = identity then mine else other

theorem stored_marked (identity : ProcessIdentity) (mine other : UInt8) (t : Nat)
    (source : ProcessIdentity) (address len : Nat) :
    stored (marked identity mine other) t source address len =
      List.replicate len (if source = identity then mine else other) := by
  induction len generalizing address with
  | zero => rfl
  | succ len ih =>
    rw [stored, ih]
    rfl

theorem Holds.marked {identity : ProcessIdentity} {mine other : UInt8} {t t' address : Nat}
    {bytes : List UInt8} (holds : Holds s (marked identity mine other) identity t t' address bytes) :
    bytes = List.replicate bytes.length mine := by
  obtain ⟨time, -, -, -, -, same⟩ := holds
  rw [stored_marked, if_pos rfl] at same
  exact same.symm

/-! ## Words -/

theorem filled_whole {bytes : List UInt8} (whole : bytes.length = len) : filled len bytes = bytes := by
  rw [filled, whole, Nat.sub_self, List.replicate_zero, List.append_nil]

/-- The word a read finds in its buffer. -/
def wordOf (contents : Contents) (address : UInt32) (a : Answer) : Nat :=
  fromLeBytes (filled 4 (stored contents a.time a.source address.toNat a.count))

theorem readU32_some (contents : Contents) (found : (answer s reader t address 4).1 = some a) :
    readU32 s contents reader t address = (.ok (wordOf contents address a), (answer s reader t address 4).2) := by
  have gives := readBytesAt_gives s contents reader t address 4
  unfold Gives at gives
  rw [found] at gives
  unfold readU32
  dsimp only
  rw [gives.1, gives.2]
  rfl

theorem readU32_none (contents : Contents) (found : (answer s reader t address 4).1 = none) :
    ∃ e, readU32 s contents reader t address = (.error e, (answer s reader t address 4).2) := by
  have gives := readBytesAt_gives s contents reader t address 4
  unfold Gives at gives
  rw [found] at gives
  obtain ⟨e, failed⟩ := gives.2
  refine ⟨e, ?_⟩
  unfold readU32
  dsimp only
  rw [gives.1, failed]
  rfl

/-- A word that is delivered whole is held. -/
theorem Answered.holdsWord (h : Answered s reader t address 4 a) (contents : Contents)
    (mine : a.source = reader.identity) (whole : a.count = 4) :
    HoldsWord s contents reader.identity t (answer s reader t address 4).2 address.toNat
      (wordOf contents address a) := by
  refine ⟨_, ?_, h.holds contents (fun _ => mine), ?_⟩
  · rw [length_stored, whole]
  · rw [wordOf, filled_whole (by rw [length_stored, whole])]

/-- A word of ones is found where the reader's own process delivers all of it. -/
theorem Answered.wordOf_marked (h : Answered s reader t address 4 a) :
    wordOf (marked reader.identity 255 0) address a = fromLeBytes (List.replicate 4 255) ↔
      a.source = reader.identity ∧ a.count = 4 := by
  have le := h.count_le
  unfold wordOf filled
  rw [stored_marked, List.length_replicate]
  constructor
  · intro same
    have bytes := fromLeBytes_injective (by simp; omega) same
    by_cases mine : a.source = reader.identity
    · rw [if_pos mine] at bytes
      refine ⟨mine, ?_⟩
      by_contra short
      have last := congrArg (fun bytes : List UInt8 => bytes[a.count]?) bytes
      simp only [List.getElem?_append_right, List.length_replicate, Nat.le_refl, Nat.sub_self] at last
      rw [List.getElem?_replicate_of_lt (by omega), List.getElem?_replicate_of_lt (by omega)] at last
      exact absurd (Option.some.inj last) (by decide)
    · rw [if_neg mine, ← List.replicate_add] at bytes
      have first := congrArg List.head? bytes
      have size : a.count + (4 - a.count) = 4 := by omega
      rw [size] at first
      exact absurd (Option.some.inj first) (by decide)
  · rintro ⟨mine, whole⟩
    rw [if_pos mine, whole]
    rfl

/-- The bytes of every process are zeros below `2 ^ 32`, and ones above. -/
def splitAtTop : Contents := fun _ _ address => if address < 2 ^ 32 then 0 else 255

theorem stored_splitAtTop {t address len : Nat} {source : ProcessIdentity} {byte : UInt8}
    {bytes : List UInt8} (same : stored splitAtTop t source address len = byte :: bytes) :
    byte = if address < 2 ^ 32 then 0 else 255 := by
  cases len with
  | zero => cases same
  | succ len => exact (List.cons.inj same).1.symm

/-- A word read at an address of 32 bits begins with a byte below `2 ^ 32`. -/
theorem wordOf_splitAtTop (address : UInt32) (a : Answer) : wordOf splitAtTop address a % 256 = 0 := by
  unfold wordOf filled
  cases bytes : stored splitAtTop a.time a.source address.toNat a.count with
  | nil => decide
  | cons byte bytes =>
    have zero := stored_splitAtTop bytes
    rw [if_pos address.toNat_lt] at zero
    rw [zero, List.cons_append, fromLeBytes, Nat.add_mul_mod_self_left]
    rfl

theorem HoldsWord.splitAtTop {identity : ProcessIdentity} {t t' position word : Nat}
    (holds : HoldsWord s splitAtTop identity t t' position word) (above : 2 ^ 32 ≤ position) :
    word % 256 = 255 := by
  obtain ⟨bytes, length, ⟨time, -, -, -, -, same⟩, rfl⟩ := holds
  cases bytes with
  | nil => cases length
  | cons byte bytes =>
    have ones := stored_splitAtTop same
    rw [if_neg (Nat.not_lt.mpr above)] at ones
    rw [ones, fromLeBytes, Nat.add_mul_mod_self_left]
    rfl

/-- **A word that is read is held**, whatever is stored, exactly when its position is an address and
the reader's own process delivers all of it. -/
theorem Answered.holdsWord_iff {position lo hi : Nat}
    (h : Answered s reader t (UInt32.ofNat position) 4 a) (later : lo ≤ t)
    (earlier : (answer s reader t (UInt32.ofNat position) 4).2 ≤ hi) :
    (∀ contents, HoldsWord s contents reader.identity lo hi position
      (wordOf contents (UInt32.ofNat position) a)) ↔
      position < 2 ^ 32 ∧ a.source = reader.identity ∧ a.count = 4 := by
  constructor
  · intro held
    refine ⟨?_, ?_⟩
    · by_contra above
      have high := (held splitAtTop).splitAtTop (Nat.le_of_not_lt above)
      rw [wordOf_splitAtTop] at high
      cases high
    · obtain ⟨bytes, length, holds, same⟩ := held (marked reader.identity 255 0)
      rw [holds.marked, length] at same
      exact h.wordOf_marked.mp same
  · rintro ⟨below, mine, whole⟩ contents
    have held := (h.holdsWord contents mine whole).mono later earlier
    rwa [UInt32.toNat_ofNat_of_lt' below] at held

/-- `read_u32` is right where the reader's own process delivers all of the word. -/
theorem readU32_iff (s : Schedule) (reader : ProcMemoryReader) (t : Nat) (address : UInt32) :
    (∀ contents word, (readU32 s contents reader t address).1 = .ok word →
      HoldsWord s contents reader.identity t (readU32 s contents reader t address).2 address.toNat word) ↔
    ∀ a, (answer s reader t address 4).1 = some a → a.source = reader.identity ∧ a.count = 4 := by
  constructor
  · intro right a found
    have h : Answered s reader t (UInt32.ofNat address.toNat) 4 a := by
      rw [UInt32.ofNat_toNat]
      exact answered found
    apply ((h.holdsWord_iff (Nat.le_refl t) (Nat.le_refl _)).mp _).2
    intro contents
    have read := readU32_some contents found
    have held := right contents (wordOf contents address a) (by rw [read])
    rw [read] at held
    rw [UInt32.ofNat_toNat]
    exact held
  · intro whole contents word read
    cases found : (answer s reader t address 4).1 with
    | none =>
      obtain ⟨e, failed⟩ := readU32_none contents found
      rw [failed] at read
      cases read
    | some a =>
      obtain ⟨mine, whole⟩ := whole a found
      rw [readU32_some contents found] at read ⊢
      cases read
      exact (answered found).holdsWord contents mine whole

/-! ## Words one after the other -/

/-- The words at these addresses, each read by itself. -/
def readEach (s : Schedule) (contents : Contents) (reader : ProcMemoryReader) :
    Nat → List UInt32 → Except ToolsError (List Nat) × Nat
  | t, [] => (.ok [], t)
  | t, address :: rest =>
    match readU32 s contents reader t address with
    | (.error e, t) => (.error e, t)
    | (.ok word, t) =>
      let read := readEach s contents reader t rest
      (read.1.map (word :: ·), read.2)

/-- The transfers that answer them, if one does for each, and the step at which the last is done. -/
def answerEach (s : Schedule) (reader : ProcMemoryReader) : Nat → List UInt32 → Option (List Answer) × Nat
  | t, [] => (some [], t)
  | t, address :: rest =>
    match answer s reader t address 4 with
    | (none, t) => (none, t)
    | (some a, t) =>
      let more := answerEach s reader t rest
      (more.1.map (a :: ·), more.2)

/-- Words that are read one after the other are what the answers deliver. -/
theorem readEach_gives (s : Schedule) (contents : Contents) (reader : ProcMemoryReader) (t : Nat)
    (addresses : List UInt32) :
    (readEach s contents reader t addresses).2 = (answerEach s reader t addresses).2 ∧
      match (answerEach s reader t addresses).1 with
      | some answers =>
        (readEach s contents reader t addresses).1 = .ok (List.zipWith (wordOf contents) addresses answers)
      | none => ∃ e, (readEach s contents reader t addresses).1 = .error e := by
  induction addresses generalizing t with
  | nil => exact ⟨rfl, rfl⟩
  | cons address rest ih =>
    rcases answered : answer s reader t address 4 with ⟨found, ends⟩
    unfold readEach answerEach
    rw [answered]
    cases found with
    | none =>
      obtain ⟨e, failed⟩ := readU32_none contents (congrArg Prod.fst answered)
      rw [failed, answered]
      exact ⟨rfl, e, rfl⟩
    | some a =>
      rw [readU32_some contents (congrArg Prod.fst answered), answered]
      dsimp only
      obtain ⟨same, more⟩ := ih ends
      refine ⟨same, ?_⟩
      cases followed : (answerEach s reader ends rest).1 with
      | none =>
        rw [followed] at more
        obtain ⟨e, failed⟩ := more
        exact ⟨e, by rw [failed]; rfl⟩
      | some answers =>
        rw [followed] at more
        dsimp only at more
        rw [more]
        rfl

theorem answerEach_cons {address : UInt32} {rest : List UInt32} {answers : List Answer}
    (found : (answerEach s reader t (address :: rest)).1 = some answers) :
    ∃ a more, answers = a :: more ∧ (answer s reader t address 4).1 = some a ∧
      (answerEach s reader (answer s reader t address 4).2 rest).1 = some more ∧
      (answerEach s reader t (address :: rest)).2 =
        (answerEach s reader (answer s reader t address 4).2 rest).2 := by
  rcases first : answer s reader t address 4 with ⟨one, ends⟩
  rw [answerEach, first] at found
  cases one with
  | none => cases found
  | some a =>
    obtain ⟨more, followed, rfl⟩ := Option.map_eq_some_iff.mp found
    refine ⟨a, more, rfl, rfl, followed, ?_⟩
    rw [answerEach, first]

theorem le_answerEach {addresses : List UInt32} {answers : List Answer}
    (found : (answerEach s reader t addresses).1 = some answers) : t ≤ (answerEach s reader t addresses).2 := by
  induction addresses generalizing t answers with
  | nil => exact Nat.le_refl t
  | cons address rest ih =>
    obtain ⟨a, more, -, first, followed, ends⟩ := answerEach_cons found
    rw [ends]
    exact Nat.le_trans (Nat.le_of_lt (answered first).lt) (ih followed)

/-- Words that are delivered one after the other are held, whatever is stored, exactly when each
position is an address and the reader's own process delivers all of each. -/
theorem heldEach_iff {positions : List Nat} {answers : List Answer} {lo hi : Nat}
    (found : (answerEach s reader t (positions.map UInt32.ofNat)).1 = some answers) (later : lo ≤ t)
    (earlier : (answerEach s reader t (positions.map UInt32.ofNat)).2 ≤ hi) :
    (∀ contents, List.Forall₂ (HoldsWord s contents reader.identity lo hi) positions
      (List.zipWith (wordOf contents) (positions.map UInt32.ofNat) answers)) ↔
      (∀ position ∈ positions, position < 2 ^ 32) ∧
        ∀ a ∈ answers, a.source = reader.identity ∧ a.count = 4 := by
  induction positions generalizing t answers with
  | nil =>
    cases found
    simp
  | cons position rest ih =>
    obtain ⟨a, more, rfl, first, followed, ends⟩ := answerEach_cons found
    rw [List.map_cons, ends] at earlier
    have h := answered first
    have word := h.holdsWord_iff later (Nat.le_trans (le_answerEach followed) earlier)
    have words := ih followed (Nat.le_trans later (Nat.le_of_lt h.lt)) earlier
    simp only [List.map_cons, List.zipWith_cons_cons, List.forall₂_cons, forall_and, word, words,
      List.forall_mem_cons]
    grind

theorem readEach_iff (s : Schedule) (reader : ProcMemoryReader) (t : Nat) (positions : List Nat) :
    (∀ contents words, (readEach s contents reader t (positions.map UInt32.ofNat)).1 = .ok words →
      List.Forall₂ (HoldsWord s contents reader.identity t
        (readEach s contents reader t (positions.map UInt32.ofNat)).2) positions words) ↔
    ∀ answers, (answerEach s reader t (positions.map UInt32.ofNat)).1 = some answers →
      (∀ position ∈ positions, position < 2 ^ 32) ∧
        ∀ a ∈ answers, a.source = reader.identity ∧ a.count = 4 := by
  have gives (contents : Contents) :=
    readEach_gives s contents reader t (positions.map UInt32.ofNat)
  constructor
  · intro right answers found
    rw [← heldEach_iff found (Nat.le_refl t) (Nat.le_refl _)]
    intro contents
    obtain ⟨ends, read⟩ := gives contents
    rw [found] at read
    rw [← ends]
    exact right contents _ read
  · intro whole contents words read
    obtain ⟨ends, given⟩ := gives contents
    rw [read] at given
    rw [ends]
    cases found : (answerEach s reader t (positions.map UInt32.ofNat)).1 with
    | none =>
      rw [found] at given
      obtain ⟨e, failed⟩ := given
      cases failed
    | some answers =>
      rw [found] at given
      rw [Except.ok.inj given]
      exact (heldEach_iff found (Nat.le_refl t) (Nat.le_refl _)).mpr (whole answers found) contents

/-- Where the four words of `probe_stats` are. -/
def statPositions (hpBase : UInt32) : List Nat :=
  [hpBase.toNat, hpBase.toNat + 4, hpBase.toNat + 8, hpBase.toNat + 12]

def statList (stats : Nat × Nat × Nat × Nat) : List Nat := [stats.1, stats.2.1, stats.2.2.1, stats.2.2.2]

theorem statPositions_ofNat (hpBase : UInt32) :
    (statPositions hpBase).map UInt32.ofNat = [hpBase, hpBase + 4, hpBase + 8, hpBase + 12] := by
  simp [statPositions, UInt32.ofNat_add]

theorem probeStats_eq (s : Schedule) (contents : Contents) (reader : ProcMemoryReader) (t : Nat)
    (hpBase : UInt32) :
    readEach s contents reader t ((statPositions hpBase).map UInt32.ofNat) =
      ((probeStats s contents reader t hpBase).1.map statList, (probeStats s contents reader t hpBase).2) := by
  rw [statPositions_ofNat]
  unfold probeStats
  simp only [readEach]
  rcases readU32 s contents reader t hpBase with ⟨_ | curHp, t⟩
  · rfl
  dsimp only
  rcases readU32 s contents reader t (hpBase + 4) with ⟨_ | maxHp, t⟩
  · rfl
  dsimp only
  rcases readU32 s contents reader t (hpBase + 8) with ⟨_ | curSp, t⟩
  · rfl
  dsimp only
  rcases readU32 s contents reader t (hpBase + 12) with ⟨_ | maxSp, t⟩
  · rfl
  · rfl

/-- `probe_stats` is right where no sum of addresses wraps and the reader's own process delivers all
of the words. -/
theorem probeStats_iff (s : Schedule) (reader : ProcMemoryReader) (t : Nat) (hpBase : UInt32) :
    (∀ contents stats, (probeStats s contents reader t hpBase).1 = .ok stats →
      List.Forall₂ (HoldsWord s contents reader.identity t (probeStats s contents reader t hpBase).2)
        (statPositions hpBase) (statList stats)) ↔
    ∀ answers, (answerEach s reader t ((statPositions hpBase).map UInt32.ofNat)).1 = some answers →
      hpBase.toNat + 12 < 2 ^ 32 ∧ ∀ a ∈ answers, a.source = reader.identity ∧ a.count = 4 := by
  have below : (∀ position ∈ statPositions hpBase, position < 2 ^ 32) ↔ hpBase.toNat + 12 < 2 ^ 32 := by
    simp only [statPositions, List.forall_mem_cons, List.not_mem_nil, false_imp_iff, implies_true, and_true]
    omega
  have each := readEach_iff s reader t (statPositions hpBase)
  simp only [probeStats_eq, below] at each
  rw [← each]
  apply forall_congr'
  intro contents
  constructor
  · intro right words read
    obtain ⟨stats, probed, rfl⟩ := Results.ok_of_map read
    exact right stats probed
  · intro right stats read
    apply right
    rw [read]
    rfl

/-! ## Slices and strings -/

/-- A read gives a buffer where it is answered, and the buffer is what the answer delivers. -/
theorem readBytesAt_ok {buffer : List UInt8 × Nat} :
    (readBytesAt s contents reader t address len).1 = .ok buffer ↔
      ∃ a, (answer s reader t address len).1 = some a ∧
        buffer = (filled len (stored contents a.time a.source address.toNat a.count), a.count) := by
  have gives := (readBytesAt_gives s contents reader t address len).2
  cases found : (answer s reader t address len).1 with
  | none =>
    rw [found] at gives
    obtain ⟨e, failed⟩ := gives
    rw [failed]
    constructor
    · intro never
      cases never
    · rintro ⟨a, never, _⟩
      cases never
  | some a =>
    rw [found] at gives
    rw [gives]
    constructor
    · intro same
      exact ⟨a, rfl, (Except.ok.inj same).symm⟩
    · rintro ⟨_, same, rfl⟩
      cases same
      rfl

theorem readBytesAt_ends (s : Schedule) (contents : Contents) (reader : ProcMemoryReader) (t : Nat)
    (address : UInt32) (len : Nat) :
    (readBytesAt s contents reader t address len).2 = (answer s reader t address len).2 :=
  (readBytesAt_gives s contents reader t address len).1

/-- A slice is read where all of it is delivered. -/
theorem readU32Slice_ok {words : List Nat} :
    (readU32Slice s contents reader t address len).1 = .ok words ↔
      ∃ a, (answer s reader t address (len * 4)).1 = some a ∧ a.count = len * 4 ∧
        words = chunks len (stored contents a.time a.source address.toNat a.count) := by
  unfold readU32Slice
  dsimp only
  apply Results.ok_of_bind.trans
  constructor
  · rintro ⟨buffer, read, done⟩
    obtain ⟨a, found, rfl⟩ := readBytesAt_ok.mp read
    split at done
    next => cases done
    next whole =>
      dsimp only at whole done
      rw [Decidable.not_not] at whole
      refine ⟨a, found, whole, ?_⟩
      rw [filled_whole (by rw [length_stored, whole])] at done
      exact (Except.ok.inj done).symm
  · rintro ⟨a, found, whole, rfl⟩
    refine ⟨_, readBytesAt_ok.mpr ⟨a, found, rfl⟩, ?_⟩
    rw [if_neg (fun short => short whole), filled_whole (by rw [length_stored, whole])]

/-- A string ends where the bytes that are delivered do, or before the first zero of them. -/
theorem readString_ok {text : String} :
    (readString s contents reader t address len).1 = .ok text ↔
      ∃ a, (answer s reader t address len).1 = some a ∧
        text = fromUtf8Lossy ((stored contents a.time a.source address.toNat a.count).takeWhile (· ≠ 0)) := by
  have front (a : Answer) :
      (filled len (stored contents a.time a.source address.toNat a.count)).take a.count =
        stored contents a.time a.source address.toNat a.count := by
    unfold filled
    conv => lhs; arg 1; rw [← length_stored contents a.time a.source address.toNat a.count]
    exact List.take_left
  unfold readString
  dsimp only
  constructor
  · intro read
    obtain ⟨buffer, bytes, rfl⟩ := Results.ok_of_map read
    obtain ⟨a, found, rfl⟩ := readBytesAt_ok.mp bytes
    refine ⟨a, found, ?_⟩
    rw [front]
  · rintro ⟨a, found, rfl⟩
    rw [readBytesAt_ok.mpr ⟨a, found, rfl⟩]
    dsimp only [Except.map]
    rw [front]

theorem chunks_replicate (len : Nat) (byte : UInt8) :
    chunks len (List.replicate (len * 4) byte) =
      List.replicate len (fromLeBytes (List.replicate 4 byte)) := by
  induction len with
  | zero => rfl
  | succ len ih =>
    have rest : (len + 1) * 4 - 4 = len * 4 := by omega
    have first : min 4 ((len + 1) * 4) = 4 := by omega
    rw [chunks, List.take_replicate, List.drop_replicate, List.replicate_succ, rest, first, ih]

/-- The words are stored one after the other at the address. -/
def HoldsWords (s : Schedule) (contents : Contents) (identity : ProcessIdentity) (t t' : Nat)
    (address len : Nat) (words : List Nat) : Prop :=
  ∃ bytes, bytes.length = len * 4 ∧ Holds s contents identity t t' address bytes ∧ words = chunks len bytes

/-- `read_u32_slice` is right where the words that are delivered whole come from the reader's own
process. -/
theorem readU32Slice_iff (s : Schedule) (reader : ProcMemoryReader) (t : Nat) (address : UInt32)
    (len : Nat) :
    (∀ contents words, (readU32Slice s contents reader t address len).1 = .ok words →
      HoldsWords s contents reader.identity t (readU32Slice s contents reader t address len).2
        address.toNat len words) ↔
    ∀ a, (answer s reader t address (len * 4)).1 = some a → 0 < len → a.count = len * 4 →
      a.source = reader.identity := by
  constructor
  · intro right a found positive whole
    by_contra other
    obtain ⟨bytes, length, holds, same⟩ :=
      right (marked reader.identity 255 0) _ (readU32Slice_ok.mpr ⟨a, found, whole, rfl⟩)
    rw [holds.marked, length, stored_marked, if_neg other, whole, chunks_replicate, chunks_replicate] at same
    rcases List.replicate_inj.mp same with ⟨-, none | words⟩
    · exact absurd none (Nat.ne_of_gt positive)
    · exact absurd words (by decide)
  · intro mine contents words read
    obtain ⟨a, found, whole, rfl⟩ := readU32Slice_ok.mp read
    refine ⟨_, ?_, ?_, rfl⟩
    · rw [length_stored, whole]
    · have ends : (readU32Slice s contents reader t address len).2 = (answer s reader t address (len * 4)).2 :=
        readBytesAt_ends s contents reader t address (len * 4)
      rw [ends]
      apply (answered found).holds contents
      intro some
      exact mine a found (by omega) whole

/-- The text is what is stored at the address, up to a byte that is not read or the first zero. -/
def HoldsText (s : Schedule) (contents : Contents) (identity : ProcessIdentity) (t t' : Nat)
    (address maxLen : Nat) (text : String) : Prop :=
  ∃ bytes, bytes.length ≤ maxLen ∧ Holds s contents identity t t' address bytes ∧
    text = fromUtf8Lossy (bytes.takeWhile (· ≠ 0))

/-- `read_string` is right where the bytes that are delivered come from the reader's own process. -/
theorem readString_iff (s : Schedule) (reader : ProcMemoryReader) (t : Nat) (address : UInt32)
    (maxLen : Nat) :
    (∀ contents text, (readString s contents reader t address maxLen).1 = .ok text →
      HoldsText s contents reader.identity t (readString s contents reader t address maxLen).2
        address.toNat maxLen text) ↔
    ∀ a, (answer s reader t address maxLen).1 = some a → 0 < a.count → a.source = reader.identity := by
  constructor
  · intro right a found positive
    by_contra other
    obtain ⟨bytes, length, holds, same⟩ :=
      right (marked reader.identity 0 97) _ (readString_ok.mpr ⟨a, found, rfl⟩)
    have zeros : bytes.takeWhile (· ≠ 0) = [] := by
      rw [holds.marked]
      cases bytes.length with
      | zero => rfl
      | succ n => rfl
    rw [zeros, stored_marked, if_neg other] at same
    apply Text.fromUtf8Lossy_ne_empty _ same
    cases count : a.count with
    | zero =>
      rw [count] at positive
      cases positive
    | succ n =>
      intro empty
      cases empty
  · intro mine contents text read
    obtain ⟨a, found, rfl⟩ := readString_ok.mp read
    have h := answered found
    refine ⟨_, ?_, ?_, rfl⟩
    · rw [length_stored]
      exact h.count_le
    · have ends : (readString s contents reader t address maxLen).2 = (answer s reader t address maxLen).2 :=
        readBytesAt_ends s contents reader t address maxLen
      rw [ends]
      exact h.holds contents (mine a found)

end Spec

/-! ## Reads and the process -/

/-- Whatever is stored, the reads report what the process of the reader holds at the addresses asked
for while they run. -/
def ReportTheProcess (s : Schedule) (reader : ProcMemoryReader) (t : Nat) (address : UInt32)
    (len maxLen : Nat) : Prop :=
  (∀ contents word, (readU32 s contents reader t address).1 = .ok word →
    HoldsWord s contents reader.identity t (readU32 s contents reader t address).2 address.toNat word) ∧
  (∀ contents words, (readU32Slice s contents reader t address len).1 = .ok words →
    HoldsWords s contents reader.identity t (readU32Slice s contents reader t address len).2
      address.toNat len words) ∧
  (∀ contents stats, (probeStats s contents reader t address).1 = .ok stats →
    List.Forall₂ (HoldsWord s contents reader.identity t (probeStats s contents reader t address).2)
      (statPositions address) (statList stats)) ∧
  ∀ contents text, (readString s contents reader t address maxLen).1 = .ok text →
    HoldsText s contents reader.identity t (readString s contents reader t address maxLen).2
      address.toNat maxLen text

/-- The transfers that answer the reads deliver whole words, where one has to be whole, from the
process of the reader, and no sum of addresses wraps. -/
def AnsweredByTheProcess (s : Schedule) (reader : ProcMemoryReader) (t : Nat) (address : UInt32)
    (len maxLen : Nat) : Prop :=
  (∀ a, (answer s reader t address 4).1 = some a → a.source = reader.identity ∧ a.count = 4) ∧
  (∀ a, (answer s reader t address (len * 4)).1 = some a → 0 < len → a.count = len * 4 →
    a.source = reader.identity) ∧
  (∀ answers, (answerEach s reader t ((statPositions address).map UInt32.ofNat)).1 = some answers →
    address.toNat + 12 < 2 ^ 32 ∧ ∀ a ∈ answers, a.source = reader.identity ∧ a.count = 4) ∧
  ∀ a, (answer s reader t address maxLen).1 = some a → 0 < a.count → a.source = reader.identity

/-- **Reads report the process of their reader** exactly when it is the one that answers them. -/
theorem reports_the_process_iff (s : Schedule) (reader : ProcMemoryReader) (t : Nat) (address : UInt32)
    (len maxLen : Nat) :
    ReportTheProcess s reader t address len maxLen ↔
      AnsweredByTheProcess s reader t address len maxLen := by
  unfold ReportTheProcess AnsweredByTheProcess
  rw [readU32_iff, readU32Slice_iff, probeStats_iff, readString_iff]

/-- A client with one page at `0x01000000`. -/
def onePage : Schedule where
  startTime _ pid := if pid = 7 then some 1 else none
  mapped _ _ address := 0x01000000 ≤ address && address < 0x01001000
  vm _ := .upTo 4
  mem _ := .fails 5
  strerror _ := "Input/output error"

def client : ProcMemoryReader := ⟨⟨7, 1⟩, false, some 13⟩

/-- Two bytes of the word are on the page, and the other two are reported as zeros. -/
theorem half_a_word_is_reported :
    (readU32 onePage (marked client.identity 255 0) client 0 0x01000FFE).1 = .ok 0xFFFF ∧
      ¬ ReportTheProcess onePage client 0 0x01000FFE 1 8 := by
  refine ⟨by decide, ?_⟩
  intro right
  obtain ⟨bytes, length, holds, same⟩ := right.1 (marked client.identity 255 0) 0xFFFF (by decide)
  rw [holds.marked, length] at same
  exact absurd same (by decide)

end RoLauncher.Memory
