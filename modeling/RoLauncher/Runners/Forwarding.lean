import RoLauncher.Runners.Segments

/-!
# What reaches the log of a stream (`ro-sessiond/src/process.rs`)

A forwarder cuts a stream into segments. Nothing is lost, whatever the reads
are (`forward_lossless`). The cut is the same for all reads, and no segment is
longer than a line may be, as long as a line that fits no more is cut before
its newline arrives; a short last chunk can arrive with it.
-/

namespace RoLauncher.Runners

open RoLauncher.Text

/-! ## The loop of a forwarder -/

/-- The size of the buffer that it reads into. -/
def readMax : Nat := 8192

/-- The loop of `spawn_stream_forwarder`. -/
def readAll : Bool → List Byte → List (List Byte) → List Segment × Bool × List Byte
  | continuation, carry, [] => ([], continuation, carry)
  | continuation, carry, bytes :: reads =>
    let flushed := flushRunnerCarry continuation (carry ++ bytes)
    let later := readAll flushed.2.1 flushed.2.2 reads
    (flushed.1 ++ later.1, later.2)

/-- Everything that it emits of a stream, which ends after these reads. -/
def forward (reads : List (List Byte)) : List Segment :=
  let done := readAll false [] reads
  done.1 ++ if done.2.2 = [] then [] else [(done.2.1, done.2.2)]

/-- A read that is not the end gives some bytes, and no more than the buffer takes. -/
structure Division (output : List Byte) (reads : List (List Byte)) : Prop where
  whole : reads.flatten = output
  sized : ∀ bytes ∈ reads, bytes ≠ [] ∧ bytes.length ≤ readMax

/-- The same reads, with the places of their bytes. -/
def placed (stream : Stream) : Nat → List (List UInt8) → List (List Byte)
  | _, [] => []
  | start, bytes :: reads => tag stream start bytes :: placed stream (start + bytes.length) reads

/-- A forwarder of a session does the same. -/
def Forwarder.readAll (stream : Stream) :
    Forwarder → List (List UInt8) → List (List Traced) × Forwarder
  | f, [] => ([], f)
  | f, bytes :: reads =>
    let done := f.read stream bytes
    let later := Forwarder.readAll stream done.2 reads
    (done.1 ++ later.1, later.2)

/-! ## What the segments should be -/

/-- The lines of a stream; the last one needs no newline. -/
def linesOf : List Byte → List (List Byte)
  | [] => []
  | byte :: rest =>
    if byte.1 = newline then [] :: linesOf rest
    else
      match linesOf rest with
      | [] => [[byte]]
      | line :: more => (byte :: line) :: more

/-- A segment that continues another one belongs to its line. -/
def rebuild : List Segment → List (List Byte)
  | [] => []
  | segment :: rest =>
    match rest.head?.map Prod.fst, rebuild rest with
    | some true, line :: more => (segment.2 ++ line) :: more
    | _, lines => segment.2 :: lines

/-- Lossless, bounded, and the same for every division into reads. -/
structure Faithful (output : List Byte) : Prop where
  lossless : ∀ reads, Division output reads → rebuild (forward reads) = linesOf output
  bounded : ∀ reads, Division output reads →
    ∀ segment ∈ forward reads, segment.2.length ≤ runnerLineMax
  independent : ∀ reads reads', Division output reads → Division output reads' →
    forward reads = forward reads'

/-- Bytes of one line. -/
def OneLine (bytes : List Byte) : Prop := ∀ byte ∈ bytes, byte.1 ≠ newline

/-- A line of the stream that a newline ends. -/
def EndedLine (output line : List Byte) : Prop :=
  ∃ before mark after, output = before ++ line ++ mark :: after ∧ LineStart (before.map Prod.fst) ∧
    OneLine line ∧ mark.1 = newline

/-! ## One flush -/

/-- What `flush_runner_carry` makes of its carry: the segments, the flag and the carry it leaves. -/
inductive Flushed : Bool → List Byte → List Segment × Bool × List Byte → Prop
  | line {continuation line mark rest f} :
    OneLine line → mark.1 = newline → Flushed false rest f →
      Flushed continuation (line ++ mark :: rest) ((continuation, line) :: f.1, f.2)
  | chunk {continuation front tail f} :
    front.length = runnerLineMax → tail ≠ [] → OneLine front → OneLine tail → Flushed true tail f →
      Flushed continuation (front ++ tail) ((continuation, front) :: f.1, f.2)
  | kept {continuation rest} :
    OneLine rest → rest.length ≤ runnerLineMax → Flushed continuation rest ([], continuation, rest)

section Lines

variable {line rest : List Byte}

theorem OneLine.takeWhile (one : OneLine line) (tail : List Byte) :
    (line ++ tail).takeWhile (fun byte => byte.1 ≠ newline) =
      line ++ tail.takeWhile (fun byte => byte.1 ≠ newline) :=
  List.takeWhile_append_of_pos fun byte mem => decide_eq_true (one byte mem)

theorem OneLine.dropWhile (one : OneLine line) (tail : List Byte) :
    (line ++ tail).dropWhile (fun byte => byte.1 ≠ newline) =
      tail.dropWhile (fun byte => byte.1 ≠ newline) :=
  List.dropWhile_append_of_pos fun byte mem => decide_eq_true (one byte mem)

theorem OneLine.append {more : List Byte} (first : OneLine line) (second : OneLine more) :
    OneLine (line ++ more) := fun byte mem =>
  (List.mem_append.mp mem).elim (first byte) (second byte)

/-- A text is one line, or a newline ends its first one. -/
theorem oneLine_or_split (text : List Byte) :
    OneLine text ∨ ∃ line mark rest, text = line ++ mark :: rest ∧ OneLine line ∧ mark.1 = newline := by
  induction text with
  | nil => exact .inl fun _ never => (List.not_mem_nil never).elim
  | cons byte text ih =>
    by_cases here : byte.1 = newline
    · exact .inr ⟨[], byte, text, rfl, fun _ never => (List.not_mem_nil never).elim, here⟩
    · obtain one | ⟨line, mark, rest, rfl, one, ended⟩ := ih
      · exact .inl (List.forall_mem_cons.mpr ⟨here, one⟩)
      · exact .inr ⟨byte :: line, mark, rest, rfl, List.forall_mem_cons.mpr ⟨here, one⟩, ended⟩

theorem flushLines_oneLine {bound : Nat} {continuation : Bool} (one : OneLine rest) :
    flushLines bound continuation rest = ([], continuation, rest) := by
  cases bound with
  | zero => rfl
  | succ bound =>
    have none : rest.dropWhile (fun byte => byte.1 ≠ newline) = [] :=
      List.dropWhile_eq_nil_iff.mpr fun byte mem => decide_eq_true (one byte mem)
    rw [flushLines, none]

theorem flushLines_line {bound : Nat} {continuation : Bool} {mark : Byte} (one : OneLine line)
    (ended : mark.1 = newline) :
    flushLines (bound + 1) continuation (line ++ mark :: rest) =
      ((continuation, line) :: (flushLines bound false rest).1, (flushLines bound false rest).2) := by
  have stops : ¬ decide (mark.1 ≠ newline) = true := by simp [ended]
  have dropped : (mark :: rest).dropWhile (fun byte => byte.1 ≠ newline) = mark :: rest :=
    List.dropWhile_cons_of_neg stops
  have taken : (mark :: rest).takeWhile (fun byte => byte.1 ≠ newline) = [] :=
    List.takeWhile_cons_of_neg stops
  rw [flushLines, one.dropWhile, one.takeWhile, dropped, taken, List.append_nil]

theorem flushChunks_flushed (bound : Nat) (continuation : Bool) (enough : rest.length ≤ bound)
    (one : OneLine rest) : Flushed continuation rest (flushChunks bound continuation rest) := by
  induction bound generalizing continuation rest with
  | zero => exact .kept one (Nat.le_trans enough (Nat.zero_le _))
  | succ bound ih =>
    rw [flushChunks]
    split
    next long =>
      have width : (rest.take runnerLineMax).length = runnerLineMax := by
        rw [List.length_take]
        omega
      have more : rest.drop runnerLineMax ≠ [] := fun none => by
        have := List.drop_eq_nil_iff.mp none
        omega
      have shorter : (rest.drop runnerLineMax).length ≤ bound := by
        have : 0 < runnerLineMax := by decide
        rw [List.length_drop]
        omega
      have front : OneLine (rest.take runnerLineMax) := fun byte mem =>
        one byte (List.mem_of_mem_take mem)
      have tail : OneLine (rest.drop runnerLineMax) := fun byte mem =>
        one byte (List.mem_of_mem_drop mem)
      have flushed := @Flushed.chunk continuation _ _ _ width more front tail (ih true shorter tail)
      rw [List.take_append_drop] at flushed
      exact flushed
    next short => exact .kept one (Nat.le_of_not_lt short)

theorem flushLines_flushed (bound : Nat) (continuation : Bool) (enough : rest.length ≤ bound) :
    let lines := flushLines bound continuation rest
    let chunks := flushChunks lines.2.2.length lines.2.1 lines.2.2
    Flushed continuation rest (lines.1 ++ chunks.1, chunks.2) := by
  induction bound generalizing continuation rest with
  | zero =>
    obtain rfl := List.length_eq_zero_iff.mp (Nat.le_zero.mp enough)
    exact .kept (fun _ never => (List.not_mem_nil never).elim) (Nat.zero_le _)
  | succ bound ih =>
    obtain one | ⟨line, mark, rest, rfl, one, ended⟩ := oneLine_or_split rest
    · rw [flushLines_oneLine one]
      exact flushChunks_flushed rest.length continuation (Nat.le_refl _) one
    · rw [flushLines_line one ended]
      refine .line one ended (ih false ?_)
      rw [List.length_append, List.length_cons] at enough
      omega

end Lines

theorem flushRunnerCarry_flushed (continuation : Bool) (carry : List Byte) :
    Flushed continuation carry (flushRunnerCarry continuation carry) :=
  flushLines_flushed carry.length continuation (Nat.le_refl _)

theorem Flushed.left {continuation : Bool} {text : List Byte} {f : List Segment × Bool × List Byte}
    (flushed : Flushed continuation text f) : OneLine f.2.2 ∧ f.2.2.length ≤ runnerLineMax := by
  induction flushed with
  | line _ _ _ ih => exact ih
  | chunk _ _ _ _ _ ih => exact ih
  | kept one short => exact ⟨one, short⟩

/-! ## Nothing is lost -/

section Rebuilding

variable {front text line rest : List Byte} {mark : Byte}

theorem linesOf_ended (ended : mark.1 = newline) : linesOf (mark :: rest) = [] :: linesOf rest := by
  rw [linesOf, if_pos ended]

theorem linesOf_append {more : List (List Byte)} (one : OneLine front)
    (lines : linesOf text = line :: more) :
    linesOf (front ++ text) = (front ++ line) :: more := by
  induction front with
  | nil => exact lines
  | cons byte front ih =>
    obtain ⟨here, one⟩ := List.forall_mem_cons.mp one
    rw [List.cons_append, linesOf, if_neg here, ih one]
    rfl

theorem linesOf_line (one : OneLine line) (ended : mark.1 = newline) :
    linesOf (line ++ mark :: rest) = line :: linesOf rest := by
  rw [linesOf_append one (linesOf_ended ended), List.append_nil]

theorem linesOf_ne_nil (some : text ≠ []) : linesOf text ≠ [] := by
  cases text with
  | nil => exact absurd rfl some
  | cons byte text =>
    rw [linesOf]
    split
    · exact List.cons_ne_nil _ _
    · split <;> exact List.cons_ne_nil _ _

theorem linesOf_one (one : OneLine line) (some : line ≠ []) : linesOf line = [line] := by
  induction line with
  | nil => exact absurd rfl some
  | cons byte line ih =>
    obtain ⟨here, one⟩ := List.forall_mem_cons.mp one
    rw [linesOf, if_neg here]
    by_cases last : line = []
    · rw [last]
      rfl
    · rw [ih one last]

/-- What follows continues the line. -/
theorem linesOf_continued (one : OneLine front) (some : front ≠ []) :
    ∃ line more, linesOf (front ++ text) = (front ++ line) :: more := by
  by_cases last : text = []
  · rw [last, List.append_nil, linesOf_one one some]
    exact ⟨[], [], by rw [List.append_nil]⟩
  · cases lines : linesOf text with
    | nil => exact absurd lines (linesOf_ne_nil last)
    | cons line more => exact ⟨line, more, linesOf_append one lines⟩

theorem rebuild_new {segment : Segment} {segments : List Segment}
    (new : segments.head?.map Prod.fst ≠ some true) :
    rebuild (segment :: segments) = segment.2 :: rebuild segments := by
  rw [rebuild]
  split
  next head _ => exact absurd head new
  next => rfl

theorem rebuild_continued {segment : Segment} {segments : List Segment} {more : List (List Byte)}
    (continued : segments.head?.map Prod.fst = some true) (lines : rebuild segments = line :: more) :
    rebuild (segment :: segments) = (segment.2 ++ line) :: more := by
  rw [rebuild, continued, lines]

end Rebuilding

/-- The segments say the text. The first one continues a line if it should. -/
structure Spells (continuation : Bool) (segments : List Segment) (text : List Byte) : Prop where
  lines : rebuild segments = linesOf text
  first : segments = [] ∨ segments.head?.map Prod.fst = some continuation

section Lossless

variable {continuation : Bool} {text more carry : List Byte} {segments : List Segment}

theorem Flushed.spells {f : List Segment × Bool × List Byte} (flushed : Flushed continuation text f)
    (after : Spells f.2.1 segments (f.2.2 ++ more)) :
    Spells continuation (f.1 ++ segments) (text ++ more) := by
  induction flushed with
  | @line continuation line mark rest f one ended _ ih =>
    obtain ⟨lines, first⟩ := ih after
    refine ⟨?_, .inr rfl⟩
    rw [List.append_assoc, List.cons_append, List.cons_append, linesOf_line one ended, ← lines]
    refine rebuild_new ?_
    obtain none | new := first
    · rw [none]
      intro never
      cases never
    · rw [new]
      simp
  | @chunk continuation front tail f _ some front_one tail_one _ ih =>
    obtain ⟨lines, first⟩ := ih after
    refine ⟨?_, .inr rfl⟩
    obtain ⟨line, others, continued⟩ := @linesOf_continued tail more tail_one some
    rw [List.append_assoc, linesOf_append front_one continued]
    rw [continued] at lines
    obtain none | next := first
    · rw [none] at lines
      cases lines
    · exact rebuild_continued next lines
  | kept _ _ => exact after

theorem readAll_spells (reads : List (List Byte))
    (after : Spells (readAll continuation carry reads).2.1 segments
      ((readAll continuation carry reads).2.2 ++ more)) :
    Spells continuation ((readAll continuation carry reads).1 ++ segments)
      (carry ++ reads.flatten ++ more) := by
  induction reads generalizing continuation carry with
  | nil =>
    rw [List.flatten_nil, List.append_nil]
    exact after
  | cons bytes reads ih =>
    rw [readAll, List.append_assoc, List.flatten_cons, ← List.append_assoc carry,
      List.append_assoc (carry ++ bytes)]
    refine (flushRunnerCarry_flushed continuation (carry ++ bytes)).spells ?_
    rw [← List.append_assoc]
    exact ih after

theorem readAll_left (reads : List (List Byte)) (one : OneLine carry)
    (short : carry.length ≤ runnerLineMax) :
    OneLine (readAll continuation carry reads).2.2 ∧
      (readAll continuation carry reads).2.2.length ≤ runnerLineMax := by
  induction reads generalizing continuation carry with
  | nil => exact ⟨one, short⟩
  | cons bytes reads ih =>
    have left := (flushRunnerCarry_flushed continuation (carry ++ bytes)).left
    exact ih left.1 left.2

end Lossless

/-- **The segments rebuild the lines of the stream**, whatever the reads are. -/
theorem forward_lossless (reads : List (List Byte)) :
    rebuild (forward reads) = linesOf reads.flatten := by
  have left := @readAll_left false [] reads (fun _ never => (List.not_mem_nil never).elim)
    (Nat.zero_le _)
  have spells := @readAll_spells false [] [] (if (readAll false [] reads).2.2 = [] then []
    else [((readAll false [] reads).2.1, (readAll false [] reads).2.2)]) reads
  rw [List.append_nil, List.append_nil, List.nil_append] at spells
  refine (spells ?_).lines
  split
  next none =>
    rw [none]
    exact ⟨rfl, .inl rfl⟩
  next some => exact ⟨(linesOf_one left.1 some).symm, .inr rfl⟩

/-! ## Where a forwarder stands -/

/-- The carry is what whole chunks leave of the line that the text ends in. -/
def Stands (text carry : List Byte) : Prop :=
  ∃ base chunk, text = base ++ chunk ++ carry ∧ LineStart (base.map Prod.fst) ∧
    OneLine (chunk ++ carry) ∧ runnerLineMax ∣ chunk.length ∧ carry.length ≤ runnerLineMax ∧
    (carry = [] → chunk = [])

section Standing

variable {continuation : Bool} {text more carry before front : List Byte} {mark : Byte}

theorem stands_nil : Stands [] [] :=
  ⟨[], [], rfl, .inl rfl, fun _ never => (List.not_mem_nil never).elim, Nat.dvd_zero _, Nat.zero_le _,
    fun _ => rfl⟩

theorem lineStart_mark (ended : mark.1 = newline) : LineStart ((before ++ [mark]).map Prod.fst) := by
  rw [List.map_append, List.map_singleton, ended]
  exact lineStart_newline _

theorem Flushed.stands {f : List Segment × Bool × List Byte} (flushed : Flushed continuation text f)
    {base chunk : List Byte} (start : LineStart (base.map Prod.fst)) (one : OneLine chunk)
    (whole : runnerLineMax ∣ chunk.length) (none : text = [] → chunk = []) :
    Stands (base ++ chunk ++ text) f.2.2 := by
  induction flushed generalizing base chunk with
  | @line continuation line mark rest f _ ended _ ih =>
    have stands := @ih (base ++ chunk ++ line ++ [mark]) [] (lineStart_mark ended)
      (fun _ never => (List.not_mem_nil never).elim) (Nat.dvd_zero _) (fun _ => rfl)
    rw [List.append_nil, List.append_assoc _ [mark] rest, List.append_assoc _ line] at stands
    exact stands
  | @chunk continuation front tail f width some front_one _ _ ih =>
    have stands := ih start (one.append front_one)
      (by rw [List.length_append, width]; exact Nat.dvd_add whole (Nat.dvd_refl _))
      (fun none => absurd none some)
    rw [← List.append_assoc base, List.append_assoc _ front] at stands
    exact stands
  | kept rest_one short => exact ⟨base, chunk, rfl, start, one.append rest_one, whole, short, none⟩

theorem flush_stands (continuation : Bool) (bytes : List Byte) (stands : Stands text carry) :
    Stands (text ++ bytes) (flushRunnerCarry continuation (carry ++ bytes)).2.2 := by
  obtain ⟨base, chunk, rfl, start, one, whole, short, none⟩ := stands
  have chunk_one : OneLine chunk := fun byte mem => one byte (List.mem_append_left _ mem)
  have flushed := (flushRunnerCarry_flushed continuation (carry ++ bytes)).stands start chunk_one whole
    fun nothing => none (List.append_eq_nil_iff.mp nothing).1
  rw [← List.append_assoc] at flushed
  exact flushed

theorem readAll_stands (reads : List (List Byte)) (stands : Stands text carry) :
    Stands (text ++ reads.flatten) (readAll continuation carry reads).2.2 := by
  induction reads generalizing continuation text carry with
  | nil =>
    rw [List.flatten_nil, List.append_nil]
    exact stands
  | cons bytes reads ih =>
    have later := @ih (flushRunnerCarry continuation (carry ++ bytes)).2.1 _ _
      (flush_stands continuation bytes stands)
    rw [List.append_assoc text] at later
    exact later

/-- A newline does not come before the end of a line. -/
theorem OneLine.split (one : OneLine carry) {bytes after : List Byte} (ended : mark.1 = newline)
    (split : carry ++ bytes = front ++ mark :: after) :
    ∃ part, front = carry ++ part ∧ bytes = part ++ mark :: after := by
  obtain ⟨part, rfl, rest⟩ | ⟨part, rfl, rest⟩ := List.append_eq_append_iff.mp split
  · exact ⟨part, rfl, rest⟩
  · cases part with
    | nil => exact ⟨[], by rw [List.append_nil, List.append_nil], rest.symm⟩
    | cons byte part =>
      obtain ⟨rfl, _⟩ := List.cons.inj rest
      exact absurd ended (one mark (List.mem_append_right _ List.mem_cons_self))

/-- There is one place where the last line begins. -/
theorem lastLine_unique {base line : List Byte} (start : LineStart (base.map Prod.fst))
    (start' : LineStart (before.map Prod.fst)) (one : OneLine line) (one' : OneLine front)
    (same : base ++ line = before ++ front) : line = front := by
  obtain ⟨part, rfl, rest⟩ | ⟨part, rfl, rest⟩ := List.append_eq_append_iff.mp same
  · obtain rfl | ⟨part, mark, rfl⟩ := List.eq_nil_or_concat' part
    · exact rest
    · obtain none | last := start'
      · simp at none
      · rw [← List.append_assoc, List.map_append, List.map_singleton, List.getLast?_concat] at last
        refine absurd (Option.some.inj last) (one mark ?_)
        rw [rest]
        simp
  · obtain rfl | ⟨part, mark, rfl⟩ := List.eq_nil_or_concat' part
    · exact rest.symm
    · obtain none | last := start
      · simp at none
      · rw [← List.append_assoc, List.map_append, List.map_singleton, List.getLast?_concat] at last
        refine absurd (Option.some.inj last) (one' mark ?_)
        rw [rest]
        simp

end Standing

/-! ## The cut that does not depend on the reads -/

/-- A line, cut wherever it does not fit. -/
def segmentsOf (continuation : Bool) (line : List Byte) : List Segment :=
  if runnerLineMax < line.length then
    (continuation, line.take runnerLineMax) :: segmentsOf true (line.drop runnerLineMax)
  else [(continuation, line)]
termination_by line.length
decreasing_by
  have : 0 < runnerLineMax := by decide
  rw [List.length_drop]
  omega

/-- The segments of a text whose first line may continue another one. -/
def cutLines (continuation : Bool) (text : List Byte) : List Segment :=
  match linesOf text with
  | [] => []
  | line :: more => segmentsOf continuation line ++ more.flatMap (segmentsOf false)

section Cutting

variable {continuation : Bool} {text more line front carry : List Byte}

theorem segmentsOf_short (short : line.length ≤ runnerLineMax) :
    segmentsOf continuation line = [(continuation, line)] := by
  rw [segmentsOf, if_neg (Nat.not_lt.mpr short)]

theorem segmentsOf_long (width : front.length = runnerLineMax) (some : line ≠ []) :
    segmentsOf continuation (front ++ line) = (continuation, front) :: segmentsOf true line := by
  have long : runnerLineMax < (front ++ line).length := by
    rw [List.length_append, width]
    exact Nat.lt_add_of_pos_right (List.length_pos_of_ne_nil some)
  rw [segmentsOf, if_pos long, ← width, List.take_left, List.drop_left]

theorem segmentsOf_bounded {segment : Segment} (mem : segment ∈ segmentsOf continuation line) :
    segment.2.length ≤ runnerLineMax := by
  induction continuation, line using segmentsOf.induct with
  | case1 continuation line long ih =>
    rw [segmentsOf, if_pos long] at mem
    obtain rfl | later := List.mem_cons.mp mem
    · exact List.length_take_le _ _
    · exact ih later
  | case2 continuation line short =>
    rw [segmentsOf, if_neg short] at mem
    obtain rfl := List.mem_singleton.mp mem
    exact Nat.le_of_not_lt short

theorem cutLines_bounded {segment : Segment} (mem : segment ∈ cutLines continuation text) :
    segment.2.length ≤ runnerLineMax := by
  rw [cutLines] at mem
  split at mem
  next => cases mem
  next =>
    obtain first | later := List.mem_append.mp mem
    · exact segmentsOf_bounded first
    · obtain ⟨_, _, cut⟩ := List.mem_flatMap.mp later
      exact segmentsOf_bounded cut

theorem cutLines_false : cutLines false text = (linesOf text).flatMap (segmentsOf false) := by
  rw [cutLines]
  split
  next none => rw [none, List.flatMap_nil]
  next lines => rw [lines, List.flatMap_cons]

theorem cutLines_line {mark : Byte} (one : OneLine line) (ended : mark.1 = newline) :
    cutLines continuation (line ++ mark :: text) =
      segmentsOf continuation line ++ cutLines false text := by
  rw [cutLines, linesOf_line one ended, cutLines_false]

theorem cutLines_chunk (width : front.length = runnerLineMax) (one : OneLine front)
    (tail_one : OneLine line) (some : line ≠ []) :
    cutLines continuation (front ++ (line ++ more)) =
      (continuation, front) :: cutLines true (line ++ more) := by
  obtain ⟨rest, others, continued⟩ := @linesOf_continued line more tail_one some
  rw [cutLines, cutLines, linesOf_append one continued, continued]
  dsimp only
  rw [segmentsOf_long width fun none => some (List.append_eq_nil_iff.mp none).1]
  rfl

theorem cutLines_rest (one : OneLine carry) (short : carry.length ≤ runnerLineMax) :
    cutLines continuation carry = if carry = [] then [] else [(continuation, carry)] := by
  split
  next none => rw [none]; rfl
  next some =>
    rw [cutLines, linesOf_one one some]
    dsimp only
    rw [List.flatMap_nil, List.append_nil, segmentsOf_short short]

theorem EndedLine.later {mark : Byte} (ended : mark.1 = newline) (later : EndedLine text line) :
    EndedLine (front ++ mark :: text) line := by
  obtain ⟨before, mark', after, rfl, start, one, ended'⟩ := later
  refine ⟨front ++ mark :: before, mark', after, by simp, ?_, one, ended'⟩
  obtain rfl | ⟨before, last, rfl⟩ := List.eq_nil_or_concat' before
  · exact lineStart_mark ended
  · obtain none | same := start
    · simp at none
    · refine .inr ?_
      rw [List.map_append, List.map_singleton, List.getLast?_concat] at same
      rw [← List.cons_append, ← List.append_assoc, List.map_append, List.map_singleton,
        List.getLast?_concat]
      exact same

/-- A flush cuts as it should, if the lines that end in it are short. -/
theorem Flushed.cut {f : List Segment × Bool × List Byte} (flushed : Flushed continuation text f)
    (short : ∀ line, EndedLine text line → line.length ≤ runnerLineMax) :
    f.1 ++ cutLines f.2.1 (f.2.2 ++ more) = cutLines continuation (text ++ more) := by
  induction flushed with
  | @line continuation line mark rest f one ended _ ih =>
    have fits : line.length ≤ runnerLineMax :=
      short line ⟨[], mark, rest, rfl, .inl rfl, one, ended⟩
    have rest_short := fun line (later : EndedLine rest line) => short line (later.later ended)
    rw [List.append_assoc, @List.cons_append _ mark, cutLines_line one ended, segmentsOf_short fits,
      ← ih rest_short]
    rfl
  | @chunk continuation front tail f width some front_one tail_one _ ih =>
    have none : ∀ line, EndedLine tail line → line.length ≤ runnerLineMax := by
      rintro line ⟨before, mark, after, rfl, _, _, ended⟩
      exact absurd ended (tail_one mark (by simp))
    rw [List.append_assoc front, cutLines_chunk width front_one tail_one some, ← ih none]
    rfl
  | kept _ _ => rfl

end Cutting

/-! ## When all reads agree -/

/-- The last chunk of a line this long does not arrive with its newline. -/
def Fits (length : Nat) : Prop :=
  length ≤ runnerLineMax ∨ readMax ≤ (length - 1) % runnerLineMax + 1

section Reading

variable {continuation : Bool} {output text carry bytes more line : List Byte}

/-- What a read ends is short. -/
theorem short_of_fits (fits : ∀ line, EndedLine (text ++ bytes ++ more) line → Fits line.length)
    (stands : Stands text carry) (sized : bytes.length ≤ readMax)
    (ends : EndedLine (carry ++ bytes) line) :
    line.length ≤ runnerLineMax := by
  obtain ⟨base, chunk, rfl, start, one, ⟨n, width⟩, short, _⟩ := stands
  obtain ⟨before, mark, after, split, first, line_one, ended⟩ := ends
  have carry_one : OneLine carry := fun byte mem => one byte (List.mem_append_right _ mem)
  obtain rfl | ⟨before, last, rfl⟩ := List.eq_nil_or_concat' before
  · -- The line that the carry belongs to: all of it ends here.
    obtain ⟨part, rfl, rfl⟩ := carry_one.split ended split
    have part_one : OneLine part := fun byte mem => line_one byte (List.mem_append_right _ mem)
    have here : EndedLine (base ++ chunk ++ carry ++ (part ++ mark :: after) ++ more)
        (chunk ++ carry ++ part) :=
      ⟨base, mark, after ++ more, by simp, start, one.append part_one, ended⟩
    have lengths := fits _ here
    simp only [Fits, List.length_append, List.length_cons, width] at lengths sized ⊢
    unfold runnerLineMax readMax at *
    omega
  · -- A line that lies in the read.
    obtain none | same := first
    · simp at none
    · rw [List.map_append, List.map_singleton, List.getLast?_concat] at same
      rw [List.append_assoc, List.append_assoc, List.singleton_append] at split
      obtain ⟨part, _, rfl⟩ := carry_one.split (Option.some.inj same) split
      simp only [List.length_append, List.length_cons] at sized
      unfold runnerLineMax
      unfold readMax at sized
      omega

theorem readAll_cut (fits : ∀ line, EndedLine output line → Fits line.length)
    (reads : List (List Byte)) (sized : ∀ bytes ∈ reads, bytes.length ≤ readMax)
    (whole : text ++ reads.flatten = output) (stands : Stands text carry) :
    (readAll continuation carry reads).1 ++
        cutLines (readAll continuation carry reads).2.1 (readAll continuation carry reads).2.2 =
      cutLines continuation (carry ++ reads.flatten) := by
  induction reads generalizing continuation text carry with
  | nil =>
    rw [List.flatten_nil, List.append_nil]
    rfl
  | cons bytes reads ih =>
    obtain ⟨first, sized⟩ := List.forall_mem_cons.mp sized
    rw [List.flatten_cons, ← List.append_assoc] at whole
    have short := fun line => @short_of_fits text carry bytes reads.flatten line
      (by rw [whole]; exact fits) stands first
    have flushed := flushRunnerCarry_flushed continuation (carry ++ bytes)
    have cut := @Flushed.cut _ _ reads.flatten _ flushed short
    have later := @ih (flushRunnerCarry continuation (carry ++ bytes)).2.1 _ _ sized whole
      (flush_stands continuation bytes stands)
    rw [List.flatten_cons, ← List.append_assoc carry, ← cut, readAll, List.append_assoc, ← later]

/-- **A stream whose lines fit is cut in one way.** -/
theorem forward_cut (fits : ∀ line, EndedLine output line → Fits line.length)
    {reads : List (List Byte)} (division : Division output reads) :
    forward reads = cutLines false output := by
  have left := @readAll_left false [] reads (fun _ never => (List.not_mem_nil never).elim)
    (Nat.zero_le _)
  have cut := @readAll_cut false output [] [] fits reads (fun bytes mem => (division.sized bytes mem).2)
    division.whole stands_nil
  rw [List.nil_append, division.whole, cutLines_rest left.1 left.2] at cut
  exact cut

theorem readAll_append (reads reads' : List (List Byte)) :
    readAll continuation carry (reads ++ reads') =
      let first := readAll continuation carry reads
      let second := readAll first.2.1 first.2.2 reads'
      (first.1 ++ second.1, second.2) := by
  induction reads generalizing continuation carry with
  | nil => rfl
  | cons bytes reads ih =>
    rw [List.cons_append, readAll, ih]
    simp only [readAll, List.append_assoc]

theorem mem_forward {segment : Segment} (reads reads' : List (List Byte))
    (mem : segment ∈ (flushRunnerCarry (readAll false [] reads).2.1
      ((readAll false [] reads).2.2 ++ bytes)).1) :
    segment ∈ forward (reads ++ bytes :: reads') := by
  refine List.mem_append_left _ ?_
  rw [readAll_append]
  exact List.mem_append_right _ (List.mem_append_left _ mem)

theorem mem_flush_line {mark : Byte} (one : OneLine line) (ended : mark.1 = newline) :
    (continuation, line) ∈ (flushRunnerCarry continuation (line ++ mark :: text)).1 := by
  have flushed : ∀ bound, flushLines (bound + 1) continuation (line ++ mark :: text) = _ :=
    fun bound => flushLines_line one ended
  obtain ⟨bound, same⟩ := Nat.exists_eq_add_one_of_ne_zero
    (show (line ++ mark :: text).length ≠ 0 by simp)
  refine List.mem_append_left _ ?_
  rw [same, flushed]
  exact List.mem_cons_self

/-- One byte at a time. -/
theorem division_bytes (bytes : List Byte) : Division bytes (bytes.map fun byte => [byte]) where
  whole := by
    induction bytes with
    | nil => rfl
    | cons byte bytes ih => rw [List.map_cons, List.flatten_cons, ih]; rfl
  sized := by
    intro read mem
    obtain ⟨byte, _, rfl⟩ := List.mem_map.mp mem
    exact ⟨List.cons_ne_nil _ _, show 1 ≤ readMax by decide⟩

theorem Division.append {reads reads' : List (List Byte)} (first : Division text reads)
    (second : Division more reads') : Division (text ++ more) (reads ++ reads') where
  whole := by rw [List.flatten_append, first.whole, second.whole]
  sized := fun bytes mem => (List.mem_append.mp mem).elim (first.sized bytes) (second.sized bytes)

/-- After whole chunks the carry is one of them. -/
theorem Stands.full {before front : List Byte} (stands : Stands (before ++ front) carry)
    (start : LineStart (before.map Prod.fst)) (one : OneLine front) (some : front ≠ [])
    (chunks : runnerLineMax ∣ front.length) : carry.length = runnerLineMax ∧ OneLine carry := by
  obtain ⟨base, chunk, split, start', one', whole, short, none⟩ := stands
  rw [List.append_assoc] at split
  obtain rfl := lastLine_unique start' start one' one split.symm
  refine ⟨?_, fun byte mem => one' byte (List.mem_append_right _ mem)⟩
  have carried : carry ≠ [] := fun nothing => some (by rw [none nothing, nothing]; rfl)
  rw [List.length_append] at chunks
  have all : runnerLineMax ∣ carry.length := (Nat.dvd_add_right whole).mp chunks
  exact Nat.le_antisymm short (Nat.le_of_dvd (List.length_pos_of_ne_nil carried) all)

/-- A line whose last chunk can come with its newline: some reads make one segment too long. -/
theorem not_bounded_of_line (ends : EndedLine output line) (unfit : ¬ Fits line.length) :
    ∃ reads, Division output reads ∧
      ∃ segment ∈ forward reads, runnerLineMax < segment.2.length := by
  obtain ⟨before, mark, after, rfl, start, one, ended⟩ := ends
  obtain ⟨long, last⟩ := not_or.mp unfit
  obtain ⟨front, rest, rfl, width, chunks⟩ : ∃ front rest, line = front ++ rest ∧
      rest.length = (line.length - 1) % runnerLineMax + 1 ∧ runnerLineMax ∣ front.length := by
    let width := (line.length - 1) % runnerLineMax + 1
    have le : width ≤ line.length := by
      have := Nat.mod_le (line.length - 1) runnerLineMax
      omega
    refine ⟨line.take (line.length - width), line.drop (line.length - width),
      (List.take_append_drop _ _).symm, by rw [List.length_drop]; omega, ?_⟩
    rw [List.length_take, Nat.min_eq_left (Nat.sub_le _ _)]
    have split := Nat.div_add_mod (line.length - 1) runnerLineMax
    exact ⟨(line.length - 1) / runnerLineMax, by omega⟩
  have front_one : OneLine front := fun byte mem => one byte (List.mem_append_left _ mem)
  have rest_one : OneLine rest := fun byte mem => one byte (List.mem_append_right _ mem)
  have some : front ≠ [] := by
    rintro rfl
    rw [List.nil_append] at width long
    have := Nat.mod_lt (rest.length - 1) (show 0 < runnerLineMax by decide)
    omega
  have first := division_bytes (before ++ front)
  have stands := @readAll_stands false [] [] ((before ++ front).map fun byte => [byte]) stands_nil
  rw [first.whole, List.nil_append] at stands
  obtain ⟨full, carry_one⟩ := stands.full start front_one some chunks
  have single : Division (rest ++ [mark]) [rest ++ [mark]] := by
    refine ⟨List.flatten_singleton, List.forall_mem_singleton.mpr ⟨by simp, ?_⟩⟩
    rw [List.length_append, List.length_singleton, width]
    omega
  have division := first.append (single.append (division_bytes after))
  rw [show before ++ front ++ ((rest ++ [mark]) ++ after) = before ++ (front ++ rest) ++ mark :: after by
    simp] at division
  have carried := @mem_flush_line (readAll false [] ((before ++ front).map fun byte => [byte])).2.1 [] _ _
    (carry_one.append rest_one) ended
  rw [List.append_assoc] at carried
  refine ⟨_, division, _, mem_forward _ _ carried, ?_⟩
  rw [List.length_append, full, width]
  exact Nat.lt_add_of_pos_right (Nat.succ_pos _)

end Reading

/-- A line of one letter. -/
theorem not_faithful_of_unfit (stream : Stream) (letter : UInt8) (other : letter ≠ newline)
    {length : Nat} (unfit : ¬ Fits length) :
    ¬ Faithful (tag stream 0 (List.replicate length letter ++ [newline])) := by
  intro faithful
  have none : newline ∉ List.replicate length letter := fun mem =>
    other (List.eq_of_mem_replicate mem).symm
  have ends : EndedLine (tag stream 0 (List.replicate length letter ++ [newline]))
      (tag stream 0 (List.replicate length letter)) := by
    refine ⟨[], (newline, stream, 0 + (List.replicate length letter).length), [], tag_append .., .inl rfl,
      fun byte mem => of_decide_eq_true (tag_ne_newline stream 0 none byte mem), rfl⟩
  rw [← @List.length_replicate _ length letter, ← length_tag stream 0] at unfit
  obtain ⟨reads, division, segment, mem, long⟩ := not_bounded_of_line ends unfit
  exact Nat.not_lt.mpr (faithful.bounded reads division segment mem) long

/-- **What a forwarder emits**: it is lossless, bounded and the same for all
reads, if and only if the last chunk of every long line that ends is longer
than one read. -/
theorem forwarding_faithful_iff (output : List Byte) :
    Faithful output ↔ ∀ line, EndedLine output line → Fits line.length := by
  constructor
  · intro faithful line ends
    by_contra unfit
    obtain ⟨reads, division, segment, mem, long⟩ := not_bounded_of_line ends unfit
    exact Nat.not_lt.mpr (faithful.bounded reads division segment mem) long
  · intro fits
    refine ⟨fun reads division => ?_, fun reads division segment mem => ?_,
      fun reads reads' first second => ?_⟩
    · rw [forward_lossless, division.whole]
    · rw [forward_cut fits division] at mem
      exact cutLines_bounded mem
    · rw [forward_cut fits first, forward_cut fits second]

/-- One byte more than a line may have. -/
def overlongLine : List Byte :=
  tag ⟨0, .stdout⟩ 0 (List.replicate (runnerLineMax + 1) 97 ++ [newline])

theorem overlong_line_not_faithful : ¬ Faithful overlongLine :=
  not_faithful_of_unfit ⟨0, .stdout⟩ 97 (by decide) (by unfold Fits runnerLineMax readMax; omega)

/-! ## In a session -/

/-- A forwarder of a session writes these segments. -/
theorem forwarder_forwards (stream : Stream) (f : Forwarder) (opened : f.closed = false)
    (reads : List (List UInt8)) :
    let done := readAll f.continuation f.carry (placed stream f.received.length reads)
    f.readAll stream reads =
      (done.1.map (emitRunnerLine stream),
        ⟨done.2.2, done.2.1, false, f.received ++ reads.flatten⟩) := by
  induction reads generalizing f with
  | nil =>
    obtain ⟨carry, continuation, closed, received⟩ := f
    obtain rfl := opened
    simp [Forwarder.readAll, placed, readAll]
  | cons bytes reads ih =>
    have read : f.read stream bytes = _ := if_neg (by rw [opened]; exact Bool.false_ne_true)
    rw [Forwarder.readAll, read]
    dsimp only
    rw [ih _ rfl, placed, readAll, List.map_append, List.length_append, List.flatten_cons,
      List.append_assoc]

theorem session_forwards (stream : Stream) (reads : List (List UInt8)) :
    let done := Forwarder.new.readAll stream reads
    done.1 ++ (done.2.close stream).1 =
      (forward (placed stream 0 reads)).map (emitRunnerLine stream) := by
  have done := forwarder_forwards stream .new rfl reads
  dsimp only at done ⊢
  rw [done, forward, List.map_append, Forwarder.close, if_neg Bool.false_ne_true]
  simp only [Forwarder.new, List.length_nil]
  congr 1
  rw [apply_ite (List.map (emitRunnerLine stream))]
  rfl

end RoLauncher.Runners
