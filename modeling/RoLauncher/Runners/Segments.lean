import Mathlib.Data.List.TakeWhile
import RoLauncher.Runners.Output

/-!
# Where the lines of a stream are cut

A line of the supervisor is a piece of its stream (`Piece`): it begins after a
newline, or as many whole chunks after one, and it ends before a newline,
where a chunk ends, or with the stream. Which pieces there are depends on the
reads. What a value needs so that none of them cuts it does not (`Torn`).
-/

namespace RoLauncher.Runners

open RoLauncher.Text

/-! ## Tagged bytes -/

section Tags

variable (stream : Stream) (start : Nat) (bytes more : List UInt8)

@[simp] theorem tag_nil : tag stream start [] = [] := rfl

theorem tag_cons (b : UInt8) :
    tag stream start (b :: bytes) = (b, stream, start) :: tag stream (start + 1) bytes := rfl

theorem tag_append :
    tag stream start (bytes ++ more) =
      tag stream start bytes ++ tag stream (start + bytes.length) more := by
  rw [tag, List.zipIdx_append, List.map_append]
  rfl

@[simp] theorem length_tag : (tag stream start bytes).length = bytes.length := by
  rw [tag, List.length_map, List.length_zipIdx]

@[simp] theorem map_tag : (tag stream start bytes).map Prod.fst = bytes := by
  rw [tag, List.map_map]
  exact List.zipIdx_map_fst ..

variable {stream start bytes}

theorem mem_tag {byte : Byte} (mem : byte ∈ tag stream start bytes) :
    byte.2.1 = stream ∧ start ≤ byte.2.2 ∧ byte.2.2 < start + bytes.length := by
  obtain ⟨⟨b, place⟩, found, rfl⟩ := List.mem_map.mp mem
  have bounds := List.mem_zipIdx found
  exact ⟨rfl, bounds.1, bounds.2.1⟩

end Tags

/-! ## Lines and chunks -/

/-- A line of the stream begins after these bytes. -/
def LineStart (bytes : List UInt8) : Prop := bytes = [] ∨ bytes.getLast? = some newline

theorem lineStart_newline (bytes : List UInt8) : LineStart (bytes ++ [newline]) :=
  .inr (List.getLast?_concat ..)

/-- What a line was cut off after: a newline, and whole chunks of the same line. -/
structure Cut (base chunk : List UInt8) : Prop where
  start : LineStart base
  one_line : newline ∉ chunk
  whole : runnerLineMax ∣ chunk.length

/-- A line ends here. -/
def Ends (chunk bytes after : List UInt8) (closed : Bool) : Prop :=
  after.head? = some newline ∨ (bytes ≠ [] ∧ runnerLineMax ∣ (chunk ++ bytes).length) ∨
    (closed = true ∧ after = [])

/-- The bytes of a line, in what was read of its stream. -/
def IsSegment (stream : Stream) (received : List UInt8) (closed : Bool) (body : List Byte) : Prop :=
  ∃ base chunk bytes after, received = base ++ chunk ++ bytes ++ after ∧
    body = tag stream (base ++ chunk).length bytes ∧ Cut base chunk ∧ newline ∉ bytes ∧
    Ends chunk bytes after closed

/-- Where a forwarder stands that carries these bytes. -/
def Carries (stream : Stream) (received : List UInt8) (carry : List Byte) : Prop :=
  ∃ base chunk rest, received = base ++ chunk ++ rest ∧
    carry = tag stream (base ++ chunk).length rest ∧ Cut base chunk ∧ newline ∉ rest

theorem IsSegment.later {stream : Stream} {received more : List UInt8} {body : List Byte}
    (h : IsSegment stream received false body) : IsSegment stream (received ++ more) false body := by
  obtain ⟨base, chunk, bytes, after, rfl, hbody, cut, one, ends⟩ := h
  refine ⟨base, chunk, bytes, after ++ more, List.append_assoc _ _ _, hbody, cut, one, ?_⟩
  obtain ended | chunked | ⟨never, _⟩ := ends
  · refine .inl ?_
    cases after with
    | nil => cases ended
    | cons b after => exact ended
  · exact .inr (.inl chunked)
  · cases never

theorem IsSegment.closed {stream : Stream} {received : List UInt8} {body : List Byte}
    (h : IsSegment stream received false body) : IsSegment stream received true body := by
  obtain ⟨base, chunk, bytes, after, split, hbody, cut, one, ends⟩ := h
  refine ⟨base, chunk, bytes, after, split, hbody, cut, one, ?_⟩
  obtain ended | chunked | ⟨never, _⟩ := ends
  · exact .inl ended
  · exact .inr (.inl chunked)
  · cases never

section Flushing

variable (stream : Stream) {base chunk rest : List UInt8}

/-- A line and the newline after it. -/
theorem split_newline (mem : newline ∈ rest) :
    ∃ line more, rest = line ++ newline :: more ∧ newline ∉ line := by
  induction rest with
  | nil => cases mem
  | cons b rest ih =>
    by_cases here : b = newline
    · exact ⟨[], rest, by rw [here]; rfl, List.not_mem_nil⟩
    · obtain ⟨line, more, rfl, none⟩ := ih (List.mem_of_ne_of_mem (Ne.symm here) mem)
      exact ⟨b :: line, more, rfl, List.not_mem_cons_of_ne_of_not_mem (Ne.symm here) none⟩

theorem tag_ne_newline (start : Nat) {bytes : List UInt8} (none : newline ∉ bytes) :
    ∀ byte ∈ tag stream start bytes, (decide (byte.1 ≠ newline)) = true := by
  intro byte mem
  refine decide_eq_true fun same => none ?_
  rw [← same, ← map_tag stream start bytes]
  exact List.mem_map_of_mem mem

theorem flushLines_spec (continuation : Bool) (bound : Nat) (enough : rest.length ≤ bound) (cut : Cut base chunk) :
    let flushed := flushLines bound continuation (tag stream (base ++ chunk).length rest)
    (∀ segment ∈ flushed.1, IsSegment stream (base ++ chunk ++ rest) false segment.2) ∧
      Carries stream (base ++ chunk ++ rest) flushed.2.2 := by
  induction bound generalizing base chunk rest continuation with
  | zero =>
    obtain rfl := List.length_eq_zero_iff.mp (Nat.le_zero.mp enough)
    exact ⟨fun _ never => (List.not_mem_nil never).elim,
      base, chunk, [], rfl, rfl, cut, List.not_mem_nil⟩
  | succ bound ih =>
    by_cases mem : newline ∈ rest
    · obtain ⟨line, more, rfl, none⟩ := split_newline mem
      have front : tag stream (base ++ chunk).length (line ++ newline :: more) =
          tag stream (base ++ chunk).length line ++
            (newline, stream, (base ++ chunk).length + line.length) ::
              tag stream (base ++ chunk ++ line ++ [newline]).length more := by
        rw [tag_append, tag_cons]
        simp only [List.length_append, List.length_cons, List.length_nil]
      have all := tag_ne_newline stream (base ++ chunk).length none
      have taken : ∀ tail : List Byte, (tag stream (base ++ chunk).length line ++
          (newline, stream, (base ++ chunk).length + line.length) :: tail).takeWhile
            (fun byte => decide (byte.1 ≠ newline)) = tag stream (base ++ chunk).length line := by
        intro tail
        rw [List.takeWhile_append_of_pos all, List.takeWhile_cons_of_neg (by simp), List.append_nil]
      have dropped : ∀ tail : List Byte, (tag stream (base ++ chunk).length line ++
          (newline, stream, (base ++ chunk).length + line.length) :: tail).dropWhile
            (fun byte => decide (byte.1 ≠ newline)) =
          (newline, stream, (base ++ chunk).length + line.length) :: tail := by
        intro tail
        rw [List.dropWhile_append_of_pos all, List.dropWhile_cons_of_neg (by simp)]
      have next : Cut (base ++ chunk ++ line ++ [newline]) [] :=
        ⟨lineStart_newline _, List.not_mem_nil, Nat.dvd_zero _⟩
      have shorter : more.length ≤ bound := by
        rw [List.length_append, List.length_cons] at enough
        omega
      have later := ih false shorter next
      have whole : base ++ chunk ++ (line ++ newline :: more) =
          base ++ chunk ++ line ++ [newline] ++ more := by simp
      rw [List.append_nil, ← whole] at later
      rw [front]
      simp only [flushLines, taken, dropped]
      refine ⟨fun segment mem => ?_, later.2⟩
      obtain rfl | mem := List.mem_cons.mp mem
      · exact ⟨base, chunk, line, newline :: more, by simp, rfl, cut, none, .inl rfl⟩
      · exact later.1 segment mem
    · have dropped : (tag stream (base ++ chunk).length rest).dropWhile
          (fun byte => decide (byte.1 ≠ newline)) = [] :=
        List.dropWhile_eq_nil_iff.mpr (tag_ne_newline stream _ mem)
      simp only [flushLines, dropped]
      exact ⟨fun _ never => (List.not_mem_nil never).elim, base, chunk, rest, rfl, rfl, cut, mem⟩

theorem flushChunks_spec (continuation : Bool) (bound : Nat) (cut : Cut base chunk) (one : newline ∉ rest) :
    let flushed := flushChunks bound continuation (tag stream (base ++ chunk).length rest)
    (∀ segment ∈ flushed.1, IsSegment stream (base ++ chunk ++ rest) false segment.2) ∧
      Carries stream (base ++ chunk ++ rest) flushed.2.2 := by
  induction bound generalizing chunk rest continuation with
  | zero =>
    exact ⟨fun _ never => (List.not_mem_nil never).elim, base, chunk, rest, rfl, rfl, cut, one⟩
  | succ bound ih =>
    rw [flushChunks, length_tag]
    split
    next long =>
      obtain ⟨front, more, rfl, width⟩ : ∃ front more, rest = front ++ more ∧
          front.length = runnerLineMax :=
        ⟨rest.take runnerLineMax, rest.drop runnerLineMax, (List.take_append_drop _ _).symm, by
          rw [List.length_take]; omega⟩
      have next : Cut base (chunk ++ front) :=
        ⟨cut.start, fun mem => (List.mem_append.mp mem).elim cut.one_line
          fun here => one (List.mem_append_left _ here), by
          rw [List.length_append, width]
          exact Nat.dvd_add cut.whole (Nat.dvd_refl _)⟩
      have later := ih true next fun mem => one (List.mem_append_right _ mem)
      have whole : base ++ (chunk ++ front) ++ more = base ++ chunk ++ (front ++ more) := by simp
      have place : (base ++ chunk).length + front.length = (base ++ (chunk ++ front)).length := by
        simp only [List.length_append]
        omega
      rw [whole] at later
      rw [tag_append, place, ← width, ← length_tag stream (base ++ chunk).length front,
        List.take_left, List.drop_left]
      refine ⟨fun segment mem => ?_, later.2⟩
      obtain rfl | mem := List.mem_cons.mp mem
      · refine ⟨base, chunk, front, more, by simp, rfl, cut,
          fun mem => one (List.mem_append_left _ mem), .inr (.inl ⟨?_, next.whole⟩)⟩
        intro none
        rw [none] at width
        cases width
      · exact later.1 segment mem
    next => exact ⟨fun _ never => (List.not_mem_nil never).elim, base, chunk, rest, rfl, rfl, cut, one⟩

end Flushing

theorem flushRunnerCarry_spec {stream : Stream} {received : List UInt8} {carry : List Byte}
    (continuation : Bool) {base chunk rest : List UInt8} (split : received = base ++ chunk ++ rest)
    (place : carry = tag stream (base ++ chunk).length rest) (cut : Cut base chunk) :
    let flushed := flushRunnerCarry continuation carry
    (∀ segment ∈ flushed.1, IsSegment stream received false segment.2) ∧
      Carries stream received flushed.2.2 := by
  subst place split
  obtain ⟨lines, base', chunk', rest', split, place, cut', one⟩ :=
    flushLines_spec stream continuation (tag stream (base ++ chunk).length rest).length
      (by rw [length_tag]) cut
  have chunks := flushChunks_spec stream
    (flushLines (tag stream (base ++ chunk).length rest).length continuation
      (tag stream (base ++ chunk).length rest)).2.1 (tag stream (base' ++ chunk').length rest').length
      cut' one
  rw [← split, ← place] at chunks
  refine ⟨fun segment mem => ?_, chunks.2⟩
  obtain whole | part := List.mem_append.mp mem
  · exact lines segment whole
  · exact chunks.1 segment part

/-! ## A forwarder -/

/-- As long as its stream is open. -/
def Forwarder.Ready (stream : Stream) (f : Forwarder) : Prop :=
  f.closed = false → Carries stream f.received f.carry

theorem Forwarder.ready_new (stream : Stream) : Forwarder.new.Ready stream := fun _ =>
  ⟨[], [], [], rfl, rfl, ⟨.inl rfl, List.not_mem_nil, Nat.dvd_zero _⟩, List.not_mem_nil⟩

/-- A line that the forwarder wrote. -/
def Forwarder.Wrote (stream : Stream) (f : Forwarder) (line : List Traced) : Prop :=
  ∃ continuation body, line = emitRunnerLine stream (continuation, body) ∧
    IsSegment stream f.received f.closed body

section Forwarding

variable {stream : Stream} {f : Forwarder} {line : List Traced}

theorem Forwarder.read_spec (bytes : List UInt8) (ready : f.Ready stream) :
    (f.read stream bytes).2.Ready stream ∧
      (∀ line ∈ (f.read stream bytes).1, (f.read stream bytes).2.Wrote stream line) ∧
      ∀ line, f.Wrote stream line → (f.read stream bytes).2.Wrote stream line := by
  rw [Forwarder.read]
  split
  next => exact ⟨ready, fun _ never => (List.not_mem_nil never).elim, fun _ wrote => wrote⟩
  next opened =>
    rw [Bool.not_eq_true] at opened
    obtain ⟨base, chunk, rest, split, place, cut, _⟩ := ready opened
    have split' : f.received ++ bytes = base ++ chunk ++ (rest ++ bytes) := by
      rw [split, List.append_assoc]
    have place' : f.carry ++ tag stream f.received.length bytes =
        tag stream (base ++ chunk).length (rest ++ bytes) := by
      rw [place, split, tag_append, @List.length_append _ (base ++ chunk) rest]
    have flushed := flushRunnerCarry_spec f.continuation split' place' cut
    refine ⟨fun _ => flushed.2, fun line mem => ?_, fun line wrote => ?_⟩
    · obtain ⟨segment, listed, rfl⟩ := List.mem_map.mp mem
      exact ⟨segment.1, segment.2, rfl, flushed.1 segment listed⟩
    · obtain ⟨continuation, body, hline, segment⟩ := wrote
      rw [opened] at segment
      exact ⟨continuation, body, hline, segment.later⟩

theorem Forwarder.close_spec (ready : f.Ready stream) :
    (f.close stream).2.Ready stream ∧
      (∀ line ∈ (f.close stream).1, (f.close stream).2.Wrote stream line) ∧
      ∀ line, f.Wrote stream line → (f.close stream).2.Wrote stream line := by
  rw [Forwarder.close]
  split
  next => exact ⟨ready, fun _ never => (List.not_mem_nil never).elim, fun _ wrote => wrote⟩
  next opened =>
    rw [Bool.not_eq_true] at opened
    refine ⟨fun never => ?_, fun line mem => ?_, fun line wrote => ?_⟩
    · cases never
    · obtain ⟨base, chunk, rest, split, place, cut, one⟩ := ready opened
      dsimp only at mem
      split at mem
      next => cases mem
      next =>
        obtain rfl := List.mem_singleton.mp mem
        exact ⟨f.continuation, f.carry, rfl, base, chunk, rest, [],
          by rw [List.append_nil]; exact split, place, cut, one, .inr (.inr ⟨rfl, rfl⟩)⟩
    · obtain ⟨continuation, body, hline, segment⟩ := wrote
      rw [opened] at segment
      exact ⟨continuation, body, hline, segment.closed⟩

end Forwarding

/-! ## A value in a stream -/

/-- The value occurs at this place of the stream. -/
def Said (streams : Stream → List UInt8) (value : String) (stream : Stream) (place : Nat) : Prop :=
  encode value.toList <+: (streams stream).drop place

instance (streams : Stream → List UInt8) (value : String) (stream : Stream) (place : Nat) :
    Decidable (Said streams value stream place) :=
  inferInstanceAs (Decidable (_ <+: (streams stream).drop place))

/-- A chunk of a line can end inside the occurrence. -/
def Straddles (received : List UInt8) (place width : Nat) : Prop :=
  ∃ base chunk rest, received = base ++ chunk ++ rest ∧ Cut base chunk ∧ chunk ≠ [] ∧
    place < (base ++ chunk).length ∧ (base ++ chunk).length < place + width

/-- An occurrence that is not sure to reach the launcher in one line. -/
def Torn (streams : Stream → List UInt8) (value : String) : Prop :=
  ∃ stream place, Said streams value stream place ∧
    (newline ∈ encode value.toList ∨ value.toList.getLast? = some '\r' ∨
      Straddles (streams stream) place (encode value.toList).length)

theorem mem_of_between {received : List UInt8} (front : List UInt8) {place : Nat} {pattern : List UInt8}
    {b : UInt8} (said : pattern <+: received.drop place) (here : received[front.length]? = some b)
    (le : place ≤ front.length) (lt : front.length < place + pattern.length) : b ∈ pattern := by
  obtain ⟨more, split⟩ := said
  obtain ⟨k, same⟩ := Nat.exists_eq_add_of_le le
  rw [same, ← List.getElem?_drop, ← split, List.getElem?_append_left (by omega)] at here
  exact List.mem_of_getElem? here

/-- **An occurrence lies in the line, or apart from it.** -/
theorem IsSegment.inside {streams : Stream → List UInt8} {stream : Stream} {closed : Bool}
    {value : String} {place : Nat} {base chunk bytes after : List UInt8}
    (split : streams stream = base ++ chunk ++ bytes ++ after) (cut : Cut base chunk)
    (one : newline ∉ bytes) (ends : Ends chunk bytes after closed)
    (said : Said streams value stream place) (whole : ¬ Torn streams value) :
    place + (encode value.toList).length ≤ (base ++ chunk).length ∨
      (base ++ chunk).length + bytes.length ≤ place ∨
      ((base ++ chunk).length ≤ place ∧
        place + (encode value.toList).length ≤ (base ++ chunk).length + bytes.length) := by
  have unbroken : newline ∉ encode value.toList := fun mem =>
    whole ⟨stream, place, said, .inl mem⟩
  have clear : ¬ Straddles (streams stream) place (encode value.toList).length := fun straddles =>
    whole ⟨stream, place, said, .inr (.inr straddles)⟩
  -- The line does not begin inside the occurrence.
  have left : ¬ (place < (base ++ chunk).length ∧
      (base ++ chunk).length < place + (encode value.toList).length) := by
    rintro ⟨before, behind⟩
    by_cases none : chunk = []
    · subst none
      rw [List.append_nil] at before behind split
      obtain rfl | ended := cut.start
      · cases before
      · obtain ⟨front, rfl⟩ := List.getLast?_eq_some_iff.mp ended
        rw [List.length_append, List.length_singleton] at before behind
        exact unbroken (mem_of_between front said
          (by rw [split]; simp) (by omega) (by omega))
    · exact clear ⟨base, chunk, bytes ++ after, by rw [split, List.append_assoc], cut, none, before,
        behind⟩
  -- Nor does it end there.
  have right : ¬ (place < (base ++ chunk).length + bytes.length ∧
      (base ++ chunk).length + bytes.length < place + (encode value.toList).length) := by
    rintro ⟨before, behind⟩
    obtain ended | ⟨some, chunked⟩ | ⟨_, rfl⟩ := ends
    · obtain ⟨more, rfl⟩ : ∃ more, after = newline :: more := by
        cases after with
        | nil => cases ended
        | cons b more =>
          cases ended
          exact ⟨more, rfl⟩
      refine unbroken (mem_of_between (base ++ chunk ++ bytes) said
        (by rw [split, List.getElem?_append_right (Nat.le_refl _), Nat.sub_self]; rfl) ?_ ?_)
      all_goals rw [List.length_append]; omega
    · refine clear ⟨base, chunk ++ bytes, after, by rw [split]; simp, ⟨cut.start, ?_, chunked⟩, ?_, ?_⟩
      · exact fun mem => (List.mem_append.mp mem).elim cut.one_line one
      · exact fun none => some (List.append_eq_nil_iff.mp none).2
      · rw [← List.append_assoc, List.length_append]
        exact ⟨before, behind⟩
    · have short := List.IsPrefix.length_le said
      rw [List.length_drop, split, List.append_nil, List.length_append] at short
      omega
  omega

end RoLauncher.Runners
