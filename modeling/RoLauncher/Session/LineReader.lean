import Mathlib.Data.List.ReduceOption

/-!
# Request lines (`ro-sessiond/src/protocol.rs`)

The supervisor reads its requests from a pipe that does not block. The reader
keeps what arrived of a line until the rest is there; a line over the limit is
thrown away up to its newline and reported as one error.

`frames` is what the stream holds: its pieces between newlines, those over the
limit replaced by the error. `received` follows the arrivals one byte at a time
and says what the reader makes of them (`readLine_received`); the two differ in
one place, where nothing arrives while a long line is thrown away.
-/

namespace RoLauncher.Session

def maxMessageBytes : Nat := 1048576

def newline : UInt8 := 10

/-- What the pipe has for the next reads: bytes, of which a read takes as many
as fit, or nothing yet. Behind the last arrival is the end of the file. -/
inductive Arrival where
  | bytes (first : UInt8) (more : List UInt8)
  | wouldBlock

/-- The errors of `read_line`: `InvalidData` with its two texts, and `WouldBlock`. -/
inductive LineError where
  | invalidUtf8
  | oversize
  | wouldBlock
  deriving DecidableEq, Repr

/-- What is left of a chunk after a read that took some of it. -/
def leftOver : List UInt8 → List Arrival → List Arrival
  | [], input => input
  | first :: more, input => .bytes first more :: input

/-- `Read::read` into a buffer of `length` bytes; none is `WouldBlock`. -/
def read (length : Nat) : List Arrival → Option (List UInt8) × List Arrival
  | [] => (some [], [])
  | .wouldBlock :: input => (none, input)
  | .bytes first more :: input =>
    (some ((first :: more).take length), leftOver ((first :: more).drop length) input)

/-- The bytes before the first newline and those behind it. -/
def cutLine : List UInt8 → Option (List UInt8 × List UInt8)
  | [] => none
  | byte :: bytes =>
    if byte = newline then some ([], bytes)
    else (cutLine bytes).map fun (line, rest) => (byte :: line, rest)

/-- `String::from_utf8`. -/
def fromUtf8 (bytes : List UInt8) : Option String := String.fromUTF8? ⟨bytes.toArray⟩

structure BoundedLineReader where
  input : List Arrival
  buf : List UInt8

/-! ## Reads -/

/-- How much the pipe still holds. -/
def held : List Arrival → Nat
  | [] => 0
  | .bytes _ more :: input => more.length + 1 + held input
  | .wouldBlock :: input => 1 + held input

theorem held_leftOver (bytes : List UInt8) (input : List Arrival) :
    held (leftOver bytes input) = bytes.length + held input := by
  cases bytes with
  | nil => exact (Nat.zero_add _).symm
  | cons first more => rfl

theorem held_read_wouldBlock {length : Nat} {input input' : List Arrival}
    (h : read length input = (none, input')) : held input' < held input := by
  match input, h with
  | .wouldBlock :: input, rfl => exact Nat.lt_add_of_pos_left Nat.one_pos

theorem held_read {length : Nat} {input input' : List Arrival} {bytes : List UInt8}
    (h : read length input = (some bytes, input')) : held input' + bytes.length = held input := by
  match input, h with
  | [], h =>
    cases h
    rfl
  | .bytes first more :: input, h =>
    cases h
    rw [held_leftOver, List.length_drop, List.length_take, List.length_cons, held]
    omega

theorem length_read {length : Nat} {input input' : List Arrival} {bytes : List UInt8}
    (h : read length input = (some bytes, input')) : bytes.length ≤ length := by
  match input, h with
  | [], h =>
    cases h
    exact Nat.zero_le _
  | .bytes first more :: input, h =>
    cases h
    exact List.length_take_le _ _

theorem cutLine_eq_some {bytes line rest : List UInt8} (h : cutLine bytes = some (line, rest)) :
    bytes = line ++ newline :: rest ∧ newline ∉ line := by
  induction bytes generalizing line with
  | nil => cases h
  | cons byte bytes ih =>
    rw [cutLine] at h
    split at h
    next same =>
      cases h
      exact ⟨congrArg (· :: rest) same, List.not_mem_nil⟩
    next other =>
      obtain ⟨⟨line', rest'⟩, cut, same⟩ := Option.map_eq_some_iff.mp h
      cases same
      obtain ⟨rfl, clean⟩ := ih cut
      exact ⟨rfl, List.not_mem_cons_of_ne_of_not_mem (Ne.symm other) clean⟩

theorem cutLine_eq_none {bytes : List UInt8} (h : cutLine bytes = none) : newline ∉ bytes := by
  induction bytes with
  | nil => exact List.not_mem_nil
  | cons byte bytes ih =>
    rw [cutLine] at h
    split at h
    next => cases h
    next other =>
      exact List.not_mem_cons_of_ne_of_not_mem (Ne.symm other) (ih (Option.map_eq_none_iff.mp h))

/-! ## The reader -/

namespace BoundedLineReader

def new (input : List Arrival) : BoundedLineReader := ⟨input, []⟩

/-- A measure that every call of `readLine` before the end of the file lowers:
a byte weighs more in the pipe than in the buffer. -/
def size (reader : BoundedLineReader) : Nat := 2 * held reader.input + reader.buf.length

theorem size_cutLine {reader : BoundedLineReader} {line rest : List UInt8}
    (h : cutLine reader.buf = some (line, rest)) :
    size { reader with buf := rest } < reader.size := by
  have := congrArg List.length (cutLine_eq_some h).1
  simp only [size, List.length_append, List.length_cons] at this ⊢
  omega

theorem size_read {reader : BoundedLineReader} {length : Nat} {input : List Arrival} {byte : UInt8}
    {bytes : List UInt8} (h : read length reader.input = (some (byte :: bytes), input)) :
    size ⟨input, reader.buf ++ byte :: bytes⟩ < reader.size := by
  have := held_read h
  simp only [size, List.length_append]
  simp only [List.length_cons] at this ⊢
  omega

/-- `discard_oversized_line`. -/
def discardOversizedLine (reader : BoundedLineReader) :
    Except LineError Unit × BoundedLineReader :=
  match cutLine reader.buf with
  | some (_, rest) => (.ok (), { reader with buf := rest })
  | none =>
    match _h : read 4096 reader.input with
    | (none, input) => (.error .wouldBlock, ⟨input, []⟩)
    | (some [], input) => (.ok (), ⟨input, []⟩)
    | (some (byte :: bytes), input) =>
      match cutLine (byte :: bytes) with
      | some (_, rest) => (.ok (), ⟨input, rest⟩)
      | none => discardOversizedLine ⟨input, []⟩
termination_by held reader.input
decreasing_by
  have := held_read _h
  rw [List.length_cons] at this
  omega

/-- The three places of `read_line` that give up a line over the limit. -/
def giveUpLine (reader : BoundedLineReader) :
    Except LineError (Option String) × BoundedLineReader :=
  match reader.discardOversizedLine with
  | (.error e, reader) => (.error e, reader)
  | (.ok (), reader) => (.error .oversize, reader)

/-- `read_line`: none at the end of the file. -/
def readLine (reader : BoundedLineReader) :
    Except LineError (Option String) × BoundedLineReader :=
  match _hcut : cutLine reader.buf with
  | some (line, rest) =>
    match fromUtf8 line with
    | none => (.error .invalidUtf8, { reader with buf := rest })
    | some text =>
      if text.isEmpty then readLine { reader with buf := rest }
      else if maxMessageBytes < text.utf8ByteSize then
        (.error .oversize, { reader with buf := rest })
      else (.ok (some text), { reader with buf := rest })
  | none =>
    let maxBuf := maxMessageBytes + 1
    if maxBuf < reader.buf.length then giveUpLine reader
    else
      let room := maxBuf - reader.buf.length
      if room = 0 then giveUpLine reader
      else
        match _h : read (min 4096 room) reader.input with
        | (none, input) => (.error .wouldBlock, { reader with input })
        | (some [], input) => (.ok none, { reader with input })
        | (some (byte :: bytes), input) =>
          let buf := reader.buf ++ byte :: bytes
          if maxBuf < buf.length ∧ newline ∉ buf then giveUpLine ⟨input, buf⟩
          else readLine ⟨input, buf⟩
termination_by reader.size
decreasing_by
  · exact size_cutLine _hcut
  · exact size_read _h

theorem size_discardOversizedLine (reader : BoundedLineReader) :
    reader.discardOversizedLine.2.size + min 1 reader.buf.length ≤ reader.size := by
  fun_induction discardOversizedLine reader with
  | case1 reader line rest cut =>
    have := size_cutLine cut
    simp only [size] at this ⊢
    omega
  | case2 reader _ input nothing =>
    have := held_read_wouldBlock nothing
    simp only [size, List.length_nil]
    omega
  | case3 reader _ input nothing =>
    have := held_read nothing
    simp only [size, List.length_nil] at this ⊢
    omega
  | case4 reader _ byte bytes input some line rest cut =>
    have := held_read some
    have := congrArg List.length (cutLine_eq_some cut).1
    simp only [size, List.length_append, List.length_cons] at *
    omega
  | case5 reader _ byte bytes input some _ ih =>
    have := held_read some
    simp only [size, List.length_nil, List.length_cons] at this ih ⊢
    omega

theorem size_giveUpLine {reader : BoundedLineReader} (some : reader.buf ≠ []) :
    reader.giveUpLine.2.size < reader.size := by
  have less := size_discardOversizedLine reader
  have := List.length_pos_iff.mpr some
  have same : reader.giveUpLine.2 = reader.discardOversizedLine.2 := by
    rw [giveUpLine]
    split
    next discarded => rw [discarded]
    next discarded => rw [discarded]
  rw [same]
  omega

theorem size_readLine (reader : BoundedLineReader) :
    reader.readLine.1 = .ok none ∨ reader.readLine.2.size < reader.size := by
  fun_induction readLine reader with
  | case1 reader line rest cut _ => exact .inr (size_cutLine cut)
  | case2 reader line rest cut text _ _ ih =>
    exact ih.imp_right fun less => Nat.lt_trans less (size_cutLine cut)
  | case3 reader line rest cut text _ _ _ => exact .inr (size_cutLine cut)
  | case4 reader line rest cut text _ _ _ => exact .inr (size_cutLine cut)
  | case5 reader _ _ beyond => exact .inr (size_giveUpLine (List.length_pos_iff.mp (by omega)))
  | case6 reader _ maxBuf _ room full =>
    have : 0 < reader.buf.length := by omega
    exact .inr (size_giveUpLine (List.length_pos_iff.mp this))
  | case7 reader _ _ _ _ _ input nothing =>
    have := held_read_wouldBlock nothing
    right
    simp only [size]
    omega
  | case8 reader _ _ _ _ _ input ended => exact .inl rfl
  | case9 reader _ _ _ _ _ byte bytes input some _ _ =>
    have more : reader.buf ++ byte :: bytes ≠ [] := List.append_ne_nil_of_right_ne_nil _ (by simp)
    exact .inr (Nat.lt_trans (size_giveUpLine more) (size_read some))
  | case10 reader _ _ _ _ _ byte bytes input some _ _ ih =>
    exact ih.imp_right fun less => Nat.lt_trans less (size_read some)

/-- What the calls of `read_line` return, until one returns none. -/
def session (reader : BoundedLineReader) : List (Except LineError String) :=
  match _h : reader.readLine with
  | (.ok none, _) => []
  | (.ok (some text), rest) => .ok text :: rest.session
  | (.error e, rest) => .error e :: rest.session
termination_by reader.size
decreasing_by
  all_goals
    have less := size_readLine reader
    simp only [_h, reduceCtorEq, false_or, Except.ok.injEq] at less
    exact less

end BoundedLineReader

/-! ## What the stream holds -/

/-- What a piece in front of a newline stands for; an empty one for nothing. -/
def pieceFrames (piece : List UInt8) : List (Except LineError String) :=
  if maxMessageBytes < piece.length then [.error .oversize]
  else
    match fromUtf8 piece with
    | none => [.error .invalidUtf8]
    | some text => if text.isEmpty then [] else [.ok text]

/-- What the piece behind the last newline stands for: it is no line. -/
def tailFrames (piece : List UInt8) : List (Except LineError String) :=
  if maxMessageBytes < piece.length then [.error .oversize] else []

/-- **The lines of a stream**: its pieces, each over the limit replaced by the error. -/
def frames (stream : List UInt8) : List (Except LineError String) :=
  (stream.splitOn newline).dropLast.flatMap pieceFrames ++
    tailFrames ((stream.splitOn newline).getLastD [])

theorem frames_tail {piece : List UInt8} (clean : newline ∉ piece) :
    frames piece = tailFrames piece := by
  rw [frames, List.splitOn_eq_singleton clean]
  rfl

theorem frames_piece {piece : List UInt8} (clean : newline ∉ piece) (rest : List UInt8) :
    frames (piece ++ newline :: rest) = pieceFrames piece ++ frames rest := by
  have first := List.splitOn_append_cons_self_of_not_mem clean rest
  obtain ⟨next, pieces, more⟩ := List.exists_cons_of_ne_nil (List.splitOn_ne_nil newline rest)
  rw [frames, frames, first, more, List.dropLast_cons_cons, List.flatMap_cons, List.append_assoc]
  rfl

/-! ## What the reader makes of the arrivals -/

/-- The arrivals byte by byte; none is a read with nothing there. -/
def ticks : List Arrival → List (Option UInt8)
  | [] => []
  | .bytes first more :: input => (first :: more).map some ++ ticks input
  | .wouldBlock :: input => none :: ticks input

/-- What is reported from here on, with `piece` in hand: a piece over the limit
is being thrown away, and forgotten when nothing arrives. -/
def received (piece : List UInt8) : List (Option UInt8) → List (Except LineError String)
  | [] => tailFrames piece
  | none :: rest => received (if maxMessageBytes < piece.length then [] else piece) rest
  | some byte :: rest =>
    if byte = newline then pieceFrames piece ++ received [] rest
    else received (piece ++ [byte]) rest

theorem ticks_leftOver (bytes : List UInt8) (input : List Arrival) :
    ticks (leftOver bytes input) = bytes.map some ++ ticks input := by
  cases bytes with
  | nil => rfl
  | cons first more => rfl

theorem ticks_read {length : Nat} {input input' : List Arrival} {bytes : List UInt8}
    (h : read length input = (some bytes, input')) :
    ticks input = bytes.map some ++ ticks input' := by
  match input, h with
  | [], h =>
    cases h
    rfl
  | .bytes first more :: input, h =>
    cases h
    rw [ticks_leftOver, ← List.append_assoc, ← List.map_append, List.take_append_drop, ticks]

theorem ticks_read_wouldBlock {length : Nat} {input input' : List Arrival}
    (h : read length input = (none, input')) : ticks input = none :: ticks input' := by
  match input, h with
  | .wouldBlock :: input, rfl => rfl

theorem read_end {length : Nat} {input input' : List Arrival}
    (h : read length input = (some [], input')) (room : 0 < length) : input = [] ∧ input' = [] := by
  match input, h with
  | [], rfl => exact ⟨rfl, rfl⟩
  | .bytes first more :: input, h =>
    obtain ⟨length, rfl⟩ := Nat.exists_eq_add_of_lt room
    rw [Nat.zero_add] at h
    cases h

theorem received_append {bytes : List UInt8} (clean : newline ∉ bytes) (piece : List UInt8)
    (rest : List (Option UInt8)) :
    received piece (bytes.map some ++ rest) = received (piece ++ bytes) rest := by
  induction bytes generalizing piece with
  | nil => rw [List.map_nil, List.nil_append, List.append_nil]
  | cons byte bytes ih =>
    rw [List.mem_cons, not_or] at clean
    rw [List.map_cons, List.cons_append, received, if_neg (Ne.symm clean.1), ih clean.2,
      List.append_assoc, List.singleton_append]

theorem received_line {line : List UInt8} (clean : newline ∉ line) (piece rest : List UInt8)
    (later : List (Option UInt8)) :
    received piece ((line ++ newline :: rest).map some ++ later) =
      pieceFrames (piece ++ line) ++ received [] (rest.map some ++ later) := by
  rw [List.map_append, List.append_assoc, received_append clean, List.map_cons, List.cons_append,
    received, if_pos rfl]

namespace BoundedLineReader

/-- What is in the buffer, and then what is still to come. -/
def remaining (reader : BoundedLineReader) : List (Option UInt8) :=
  reader.buf.map some ++ ticks reader.input

/-- Throwing a line away ends behind it, with the error still to report, or is
interrupted, with nothing kept. -/
theorem discardOversizedLine_received (reader : BoundedLineReader) (piece : List UInt8)
    (long : maxMessageBytes < piece.length) (clean : newline ∉ reader.buf) :
    received piece (ticks reader.input) =
      (match reader.discardOversizedLine.1 with
      | .ok () => [.error .oversize]
      | .error _ => []) ++ received [] reader.discardOversizedLine.2.remaining ∧
    (reader.discardOversizedLine.1 = .ok () ∨
      reader.discardOversizedLine.1 = .error .wouldBlock) ∧
    reader.discardOversizedLine.2.buf.length ≤ 4096 := by
  have beyond : ∀ bytes : List UInt8, pieceFrames (piece ++ bytes) = [.error .oversize] := by
    intro bytes
    exact if_pos (by rw [List.length_append]; omega)
  fun_induction discardOversizedLine reader generalizing piece with
  | case1 reader line rest cut =>
    rw [(cutLine_eq_some cut).1] at clean
    exact absurd (List.mem_append_right _ List.mem_cons_self) clean
  | case2 reader _ input nothing =>
    refine ⟨?_, .inr rfl, Nat.zero_le _⟩
    rw [ticks_read_wouldBlock nothing, received, if_pos long]
    rfl
  | case3 reader _ input ended =>
    obtain ⟨empty, rfl⟩ := read_end ended (by decide)
    refine ⟨?_, .inl rfl, Nat.zero_le _⟩
    rw [empty]
    exact if_pos long
  | case4 reader _ byte bytes input some line rest cut =>
    obtain ⟨chunk, inLine⟩ := cutLine_eq_some cut
    refine ⟨?_, .inl rfl, ?_⟩
    · rw [ticks_read some, chunk, received_line inLine, beyond]
      rfl
    · have := length_read some
      rw [chunk, List.length_append, List.length_cons] at this
      dsimp only
      omega
  | case5 reader _ byte bytes input some none ih =>
    rw [ticks_read some, received_append (cutLine_eq_none none)]
    refine ih _ ?_ List.not_mem_nil fun more => ?_
    · rw [List.length_append]
      omega
    · rw [List.append_assoc]
      exact beyond _

/-- What a call of `read_line` adds to what is reported. -/
def reported : Except LineError (Option String) → List (Except LineError String)
  | .ok none => []
  | .ok (some text) => [.ok text]
  | .error .wouldBlock => []
  | .error e => [.error e]

theorem length_fromUtf8 {bytes : List UInt8} {text : String} (h : fromUtf8 bytes = some text) :
    text.utf8ByteSize = bytes.length := by
  rw [fromUtf8, String.fromUTF8?] at h
  split at h
  next valid =>
    cases h
    rfl
  next => cases h

theorem remaining_clean {reader : BoundedLineReader} (clean : newline ∉ reader.buf) :
    received [] reader.remaining = received reader.buf (ticks reader.input) :=
  received_append clean [] _

theorem remaining_cut {reader : BoundedLineReader} {line rest : List UInt8}
    (cut : cutLine reader.buf = some (line, rest))
    (bound : reader.buf.length ≤ maxMessageBytes + 1) :
    received [] reader.remaining =
      pieceFrames line ++ received [] (remaining { reader with buf := rest }) ∧
    line.length ≤ maxMessageBytes ∧ rest.length ≤ maxMessageBytes + 1 := by
  obtain ⟨whole, clean⟩ := cutLine_eq_some cut
  have sizes := congrArg List.length whole
  rw [List.length_append, List.length_cons] at sizes
  refine ⟨?_, by omega, by omega⟩
  rw [remaining, whole, received_line clean]
  rfl

theorem giveUpLine_received {reader : BoundedLineReader}
    (long : maxMessageBytes < reader.buf.length) (clean : newline ∉ reader.buf) :
    received [] reader.remaining =
      reported reader.giveUpLine.1 ++ received [] reader.giveUpLine.2.remaining ∧
    reader.giveUpLine.1 ≠ .ok none ∧ reader.giveUpLine.2.buf.length ≤ maxMessageBytes + 1 := by
  obtain ⟨same, result, short⟩ :=
    discardOversizedLine_received reader reader.buf long clean
  have start := remaining_clean clean
  have room : 4096 ≤ maxMessageBytes + 1 := by decide
  rw [giveUpLine]
  rcases discarded : reader.discardOversizedLine with ⟨outcome, rest⟩
  rw [discarded] at same result short
  cases outcome with
  | ok _ => exact ⟨start.trans same, nofun, by dsimp only at short ⊢; omega⟩
  | error e =>
    obtain rfl : e = .wouldBlock := by simpa using result
    exact ⟨start.trans same, nofun, by dsimp only at short ⊢; omega⟩

/-- **One call**: what it returns, followed by what is reported from there on,
is what was to be reported before it. -/
theorem readLine_received (reader : BoundedLineReader)
    (bound : reader.buf.length ≤ maxMessageBytes + 1) :
    received [] reader.remaining =
      reported reader.readLine.1 ++ received [] reader.readLine.2.remaining ∧
    (reader.readLine.1 = .ok none → received [] reader.readLine.2.remaining = []) ∧
    reader.readLine.2.buf.length ≤ maxMessageBytes + 1 := by
  fun_induction readLine reader with
  | case1 reader line rest cut bad =>
    obtain ⟨same, short, bound'⟩ := remaining_cut cut bound
    refine ⟨same.trans (congrArg (· ++ _) ?_), nofun, bound'⟩
    rw [pieceFrames, if_neg (Nat.not_lt.mpr short), bad]
    rfl
  | case2 reader line rest cut text good empty ih =>
    obtain ⟨same, short, bound'⟩ := remaining_cut cut bound
    obtain ⟨rest, last, bound''⟩ := ih bound'
    refine ⟨?_, last, bound''⟩
    rw [same, pieceFrames, if_neg (Nat.not_lt.mpr short), good]
    dsimp only
    rw [if_pos empty, List.nil_append, rest]
  | case3 reader line rest cut text good _ long =>
    obtain ⟨same, short, bound'⟩ := remaining_cut cut bound
    rw [length_fromUtf8 good] at long
    exact absurd long (Nat.not_lt.mpr short)
  | case4 reader line rest cut text good more _ =>
    obtain ⟨same, short, bound'⟩ := remaining_cut cut bound
    refine ⟨same.trans (congrArg (· ++ _) ?_), nofun, bound'⟩
    rw [pieceFrames, if_neg (Nat.not_lt.mpr short), good]
    exact if_neg more
  | case5 reader _ _ beyond => exact absurd bound (by omega)
  | case6 reader cut maxBuf _ room full =>
    obtain ⟨same, more, short⟩ := @giveUpLine_received reader (by omega)
      (cutLine_eq_none cut)
    exact ⟨same, fun ended => absurd ended more, short⟩
  | case7 reader cut maxBuf _ room some input nothing =>
    have clean := cutLine_eq_none cut
    refine ⟨?_, nofun, bound⟩
    rw [remaining_clean clean, ticks_read_wouldBlock nothing, received, if_neg (by omega)]
    exact (@remaining_clean { reader with input } clean).symm
  | case8 reader cut maxBuf _ room some input ended =>
    have clean := cutLine_eq_none cut
    obtain ⟨empty, rfl⟩ := read_end ended (by omega)
    have last : received [] (remaining { reader with input := [] }) = [] := by
      rw [@remaining_clean { reader with input := [] } clean]
      exact if_neg (by dsimp only; omega)
    refine ⟨?_, fun _ => last, bound⟩
    rw [last, remaining_clean clean, empty]
    exact if_neg (by omega)
  | case9 reader cut maxBuf _ room some byte bytes input chunk buf beyond =>
    have := length_read chunk
    have sizes : buf.length = reader.buf.length + (byte :: bytes).length := List.length_append
    exact absurd beyond.1 (by omega)
  | case10 reader cut maxBuf _ room some byte bytes input chunk buf _ ih =>
    have := length_read chunk
    have sizes : buf.length = reader.buf.length + (byte :: bytes).length := List.length_append
    obtain ⟨same, last, bound'⟩ := ih (by dsimp only; omega)
    refine ⟨Eq.trans ?_ same, last, bound'⟩
    rw [remaining, remaining, ticks_read chunk, ← List.append_assoc, ← List.map_append]

/-- What the supervisor gets of a session, without the reads that found nothing. -/
def delivered (reader : BoundedLineReader) : List (Except LineError String) :=
  reader.session.filter fun
    | .error .wouldBlock => false
    | _ => true

/-- **All the calls** deliver what the arrivals amount to, however they are cut. -/
theorem delivered_received (reader : BoundedLineReader)
    (bound : reader.buf.length ≤ maxMessageBytes + 1) :
    reader.delivered = received [] reader.remaining := by
  obtain ⟨same, last, bound'⟩ := readLine_received reader bound
  unfold delivered
  fun_induction session reader with
  | case1 reader rest ended =>
    rw [ended] at same last
    rw [same, last rfl]
    rfl
  | case2 reader text rest line ih =>
    rw [line] at same bound'
    obtain ⟨same', last', bound''⟩ := readLine_received rest bound'
    rw [same, List.filter_cons_of_pos rfl, ih bound' same' last' bound'']
    rfl
  | case3 reader e rest failed ih =>
    rw [failed] at same bound'
    obtain ⟨same', last', bound''⟩ := readLine_received rest bound'
    rw [same]
    cases e with
    | wouldBlock =>
      rw [List.filter_cons_of_neg (by simp), ih bound' same' last' bound'']
      rfl
    | _ =>
      rw [List.filter_cons_of_pos rfl, ih bound' same' last' bound'']
      rfl

end BoundedLineReader

/-! ## Where the two differ -/

/-- The bytes of a stream, however they arrive. -/
def stream : List Arrival → List UInt8
  | [] => []
  | .bytes first more :: input => first :: more ++ stream input
  | .wouldBlock :: input => stream input

/-- The lines of what has arrived of a stream whose last piece so far is `piece`. -/
def framesFrom (piece : List UInt8) : List (Option UInt8) → List (Except LineError String)
  | [] => tailFrames piece
  | none :: rest => framesFrom piece rest
  | some byte :: rest =>
    if byte = newline then pieceFrames piece ++ framesFrom [] rest
    else framesFrom (piece ++ [byte]) rest

theorem framesFrom_eq {piece : List UInt8} (clean : newline ∉ piece)
    (arrivals : List (Option UInt8)) :
    framesFrom piece arrivals = frames (piece ++ arrivals.reduceOption) := by
  induction arrivals generalizing piece with
  | nil => rw [List.reduceOption_nil, List.append_nil, frames_tail clean, framesFrom]
  | cons tick rest ih =>
    cases tick with
    | none => rw [framesFrom, List.reduceOption_cons_of_none, ih clean]
    | some byte =>
      rw [framesFrom, List.reduceOption_cons_of_some]
      split
      next same =>
        subst same
        rw [frames_piece clean, ih List.not_mem_nil, List.nil_append]
      next other =>
        rw [ih, List.append_assoc, List.singleton_append]
        simp [clean, Ne.symm other]

/-- Whether every line over the limit is reported, read off the arrivals: when
nothing arrives after more than the limit has, those bytes are forgotten, and
from there to the end of the line (or to the next such place) more than the
limit must arrive again. `count` is what has arrived of the line since. -/
def Reported (forgotten : Bool) (count : Nat) : List (Option UInt8) → Prop
  | [] => forgotten = true → maxMessageBytes < count
  | none :: rest =>
    if maxMessageBytes < count then Reported true 0 rest else Reported forgotten count rest
  | some byte :: rest =>
    if byte = newline then (forgotten = true → maxMessageBytes < count) ∧ Reported false 0 rest
    else Reported forgotten (count + 1) rest

theorem length_pieceFrames_le (piece : List UInt8) : (pieceFrames piece).length ≤ 1 := by
  rw [pieceFrames]
  split
  next => exact Nat.le_refl 1
  next =>
    split
    next => exact Nat.le_refl 1
    next => split <;> simp

theorem length_tailFrames_le (piece : List UInt8) : (tailFrames piece).length ≤ 1 := by
  rw [tailFrames]
  split <;> simp

section Pieces

variable {forgotten : Bool} {piece whole : List UInt8}

/-- The reader reports at most one outcome for each line. -/
theorem length_received_le (same : forgotten = false → piece = whole)
    (long : forgotten = true → maxMessageBytes < whole.length) (arrivals : List (Option UInt8)) :
    (received piece arrivals).length ≤ (framesFrom whole arrivals).length := by
  induction arrivals generalizing forgotten piece whole with
  | nil =>
    cases forgotten with
    | false =>
      exact Nat.le_of_eq (by rw [same rfl, received, framesFrom])
    | true =>
      rw [received, framesFrom, tailFrames.eq_1 whole, if_pos (long rfl)]
      exact length_tailFrames_le piece
  | cons tick rest ih =>
    cases tick with
    | none =>
      rw [received, framesFrom]
      split
      next beyond =>
        refine @ih true _ _ nofun fun _ => ?_
        cases forgotten with
        | false => rwa [← same rfl]
        | true => exact long rfl
      next => exact ih same long
    | some byte =>
      rw [received, framesFrom]
      split
      next =>
        rw [List.length_append, List.length_append]
        have rest : (received [] rest).length ≤ (framesFrom [] rest).length :=
          @ih false _ _ (fun _ => rfl) nofun
        cases forgotten with
        | false =>
          rw [same rfl]
          omega
        | true =>
          have := length_pieceFrames_le piece
          rw [pieceFrames.eq_1 whole, if_pos (long rfl), List.length_singleton]
          omega
      next =>
        refine @ih forgotten _ _ (fun kept => by rw [same kept]) fun lost => ?_
        rw [List.length_append]
        exact Nat.lt_add_right _ (long lost)

/-- A forgotten line comes out right when the rest of it is over the limit too. -/
theorem pieceFrames_forgotten (long : maxMessageBytes < whole.length)
    (arrivals : List (Option UInt8)) :
    pieceFrames piece ++ received [] arrivals = pieceFrames whole ++ framesFrom [] arrivals ↔
      maxMessageBytes < piece.length ∧ received [] arrivals = framesFrom [] arrivals := by
  have error : pieceFrames whole = [.error .oversize] := if_pos long
  constructor
  · intro equal
    by_cases beyond : maxMessageBytes < piece.length
    · rw [error, pieceFrames, if_pos beyond] at equal
      exact ⟨beyond, List.append_cancel_left equal⟩
    -- Nothing else is reported as that error, and reporting nothing leaves too little.
    · have sizes := congrArg List.length equal
      have less : (received [] arrivals).length ≤ (framesFrom [] arrivals).length :=
        length_received_le (fun _ => rfl) (Bool.noConfusion : false = true → _) arrivals
      rw [error, pieceFrames, if_neg beyond] at equal sizes
      split at equal
      next => cases equal
      next text good =>
        split at equal
        next empty =>
          rw [good] at sizes
          dsimp only at sizes
          rw [if_pos empty, List.nil_append, List.length_append, List.length_singleton] at sizes
          omega
        next => cases equal
  · rintro ⟨beyond, rest⟩
    rw [error, pieceFrames, if_pos beyond, rest]

theorem received_eq_framesFrom (same : forgotten = false → piece = whole)
    (long : forgotten = true → maxMessageBytes < whole.length) (arrivals : List (Option UInt8)) :
    received piece arrivals = framesFrom whole arrivals ↔
      Reported forgotten piece.length arrivals := by
  induction arrivals generalizing forgotten piece whole with
  | nil =>
    rw [received, framesFrom, Reported]
    cases forgotten with
    | false => simp [same rfl]
    | true =>
      rw [tailFrames.eq_1 whole, if_pos (long rfl), tailFrames]
      split
      next beyond => simp [beyond]
      next short => simp [short]
  | cons tick rest ih =>
    cases tick with
    | none =>
      rw [received, framesFrom, Reported]
      split
      next beyond =>
        refine @ih true _ _ nofun fun _ => ?_
        cases forgotten with
        | false => rwa [← same rfl]
        | true => exact long rfl
      next => exact ih same long
    | some byte =>
      rw [received, framesFrom, Reported]
      split
      next =>
        have rest : received [] rest = framesFrom [] rest ↔ Reported false 0 rest :=
          @ih false _ _ (fun _ => rfl) nofun
        cases forgotten with
        | false => rw [same rfl, List.append_cancel_left_eq, rest]; simp
        | true => rw [pieceFrames_forgotten (long rfl), rest]; simp
      next =>
        have more : (piece ++ [byte]).length = piece.length + 1 := List.length_append
        rw [← more]
        refine @ih forgotten _ _ (fun kept => by rw [same kept]) fun lost => ?_
        rw [List.length_append]
        exact Nat.lt_add_right _ (long lost)

end Pieces

theorem reduceOption_ticks (input : List Arrival) : (ticks input).reduceOption = stream input := by
  induction input with
  | nil => rfl
  | cons arrival input ih =>
    cases arrival with
    | wouldBlock => rw [ticks, List.reduceOption_cons_of_none, ih, stream]
    | bytes first more =>
      have chunk : ((first :: more).map some).reduceOption = first :: more := by
        rw [List.reduceOption, List.filterMap_map]
        exact List.filterMap_some
      rw [ticks, List.reduceOption_append, ih, chunk, stream]

/-- **Framing**: a session delivers the lines of the stream, in whatever pieces
it arrives, exactly when every line over the limit is reported. -/
theorem delivered_eq_frames_iff (input : List Arrival) :
    (BoundedLineReader.new input).delivered = frames (stream input) ↔
      Reported false 0 (ticks input) := by
  have lines : frames (stream input) = framesFrom [] (ticks input) := by
    rw [framesFrom_eq List.not_mem_nil, reduceOption_ticks, List.nil_append]
  rw [lines, BoundedLineReader.delivered_received _ (Nat.zero_le _)]
  exact @received_eq_framesFrom false _ _ (fun _ => rfl) nofun _

/-- What is behind a pause in a line over the limit is delivered as a line of its own. -/
theorem delivered_suffix {first : UInt8} {more : List UInt8} (clean : newline ∉ first :: more)
    (long : maxMessageBytes < (first :: more).length) {input : List Arrival}
    (same : input = [.bytes first more, .wouldBlock, .bytes 66 [newline]]) :
    (BoundedLineReader.new input).delivered = [.ok "B"] ∧
    frames (stream input) = [.error .oversize] := by
  subst same
  constructor
  · have whole : (BoundedLineReader.new
        [.bytes first more, .wouldBlock, .bytes 66 [newline]]).remaining =
        (first :: more).map some ++ [none, some 66, some newline] := rfl
    rw [BoundedLineReader.delivered_received _ (Nat.zero_le _), whole, received_append clean,
      received, if_pos (by exact long)]
    rfl
  · have clean' : newline ∉ first :: more ++ [66] := by
      rw [List.mem_append, not_or]
      exact ⟨clean, by decide⟩
    have whole : stream [.bytes first more, .wouldBlock, .bytes 66 [newline]] =
        (first :: more ++ [66]) ++ newline :: [] :=
      (List.append_assoc (first :: more) [66] [newline]).symm
    rw [whole, frames_piece clean', pieceFrames, if_pos]
    · rfl
    · rw [List.length_append]
      exact Nat.lt_add_right _ long

/-- One byte more than a line may have, nothing for a while, and then a byte and the newline. -/
def interrupted : List Arrival :=
  [.bytes 65 (List.replicate maxMessageBytes 65), .wouldBlock, .bytes 66 [newline]]

theorem interrupted_delivers_suffix :
    (BoundedLineReader.new interrupted).delivered = [.ok "B"] ∧
    frames (stream interrupted) = [.error .oversize] ∧
    (BoundedLineReader.new interrupted).delivered ≠ frames (stream interrupted) := by
  obtain ⟨suffix, whole⟩ := @delivered_suffix 65
    (List.replicate maxMessageBytes 65) (by
      rw [← List.replicate_succ, List.mem_replicate]
      exact fun same => absurd same.2 (by decide)) (by
      rw [List.length_cons, List.length_replicate]
      exact Nat.lt_succ_self _) _ interrupted.eq_1
  refine ⟨suffix, whole, ?_⟩
  rw [suffix, whole]
  exact nofun

end RoLauncher.Session
