import RoLauncher.Runners.Segments

/-!
# What the redaction leaves of a session's values

The line that the launcher redacts is the payload of one segment. Where the
values keep clear of the mask and of each other there (`Clean`), and no
occurrence in the stream is torn apart, every text that leaves the launcher is
`Redacted`: it contains no value, none of its characters was read inside an
occurrence of one, and it does not depend on the order of the values.

Two values that overlap are where it goes wrong: the longer one is replaced
first, and takes away what would let the other one match.
-/

namespace RoLauncher.Runners

open RoLauncher.Text RoLauncher.Runners.Session

/-! ## The values -/

section Values

theorem dedup_sublist (values : List String) : (dedup values).Sublist values := by
  fun_induction dedup values with
  | case1 b rest ih => exact ih.cons b
  | case2 a b rest _ ih => exact ih.cons_cons a
  | case3 values => exact List.Sublist.refl _

theorem mem_dedup {value : String} {values : List String} : value ∈ dedup values ↔ value ∈ values := by
  fun_induction dedup values with
  | case1 b rest ih => simp only [ih, List.mem_cons, ← or_assoc, or_self]
  | case2 a b rest _ ih => exact (List.mem_cons.trans (or_congr Iff.rfl ih)).trans List.mem_cons.symm
  | case3 values => exact Iff.rfl

theorem mem_orderedValues {value : String} {values : List String} :
    value ∈ orderedValues values ↔ value ∈ values ∧ value ≠ "" := by
  rw [orderedValues, mem_dedup, List.mem_insertionSort, List.mem_filter, decide_eq_true_eq]

/-- What a value is replaced as. -/
def patternsOf (values : List String) : List (List Char) := (orderedValues values).map String.toList

theorem mem_patternsOf {pattern : List Char} {values : List String} :
    pattern ∈ patternsOf values ↔ ∃ value ∈ values, value ≠ "" ∧ value.toList = pattern := by
  simp only [patternsOf, List.mem_map, mem_orderedValues, and_assoc]

theorem patternsOf_ne_nil {values : List String} : ∀ pattern ∈ patternsOf values, pattern ≠ [] := by
  intro pattern mem none
  obtain ⟨value, _, some, same⟩ := mem_patternsOf.mp mem
  rw [none, String.toList_eq_nil_iff] at same
  exact some same

theorem length_encode_pos {u : List Char} (some : u ≠ []) : 0 < (encode u).length := by
  cases u with
  | nil => exact absurd rfl some
  | cons c u =>
    rw [encode, List.flatMap_cons, List.length_append, length_encode]
    exact Nat.add_pos_left c.utf8Size_pos _

theorem encode_grows (u v w : List Char) (strict : u ≠ [] ∨ w ≠ []) :
    (encode v).length < (encode (u ++ v ++ w)).length := by
  rw [encode_append, encode_append, List.length_append, List.length_append]
  obtain some | some := strict
  · have := length_encode_pos some
    omega
  · have := length_encode_pos some
    omega

theorem patternsOf_sorted (values : List String) :
    (patternsOf values).Pairwise fun v u => (encode u).length ≤ (encode v).length := by
  have sorted := List.pairwise_insertionSort (fun a b : String => b.utf8ByteSize ≤ a.utf8ByteSize)
    (values.filter fun value => value ≠ "")
  rw [patternsOf, List.pairwise_map]
  refine (sorted.sublist (dedup_sublist _)).imp fun {a b} le => ?_
  rwa [← utf8ByteSize_eq, ← utf8ByteSize_eq]

theorem mem_mergeRedactions {value : String} {current incoming : List String} :
    value ∈ mergeRedactions current incoming ↔ value ∈ current ∨ (value ∈ incoming ∧ value ≠ "") := by
  have folded : ∀ (added current : List String), value ∈ added.foldl
      (fun current value => if value ∈ current then current else current ++ [value]) current ↔
        value ∈ current ∨ value ∈ added := by
    intro added
    induction added with
    | nil => simp
    | cons a added ih =>
      intro current
      rw [List.foldl_cons, ih, List.mem_cons]
      split
      next mem =>
        constructor
        · rintro (known | later)
          · exact .inl known
          · exact .inr (.inr later)
        · rintro (known | rfl | later)
          · exact .inl known
          · exact .inl mem
          · exact .inr later
      next => rw [List.mem_append, List.mem_singleton, or_assoc]
  rw [mergeRedactions, folded, List.mem_filter, decide_eq_true_eq]

end Values

/-! ## What may come in, and what goes out -/

/-- What `handle_stderr_line` and `record` hand to the redaction. -/
def payload (line : List Traced) : List Traced :=
  ((stripPrefix runnerStdoutPrefix line).or (stripPrefix runnerStderrPrefix line)).getD line

/-- A line that goes to the log behind the prefix of the session. -/
def Unlabelled (line : List Traced) : Prop :=
  stripPrefix runnerStdoutPrefix line = none ∧ stripPrefix runnerStderrPrefix line = none

/-- A line whose values do not get in each other's way. -/
structure Clean (streams : Stream → List UInt8) (h : Handled) : Prop where
  /-- If there is anything to mask, no value can match a part of a mask. -/
  foreign : (∃ value ∈ h.values, ∃ i, Occurs Prod.fst (payload h.line) i value.toList) →
    ∀ value ∈ h.values, Foreign (mask.map Prod.fst) value.toList
  quiet : Unlabelled h.line →
    ∀ value ∈ h.values, NeverStartsIn sessionLogPrefix.toList value.toList
  separate : Separate Prod.fst (patternsOf h.values) (payload h.line)
  whole : ∀ value ∈ h.values, ¬ Torn streams value

/-- Nothing of a value leaves the launcher with this line. -/
structure Redacted (streams : Stream → List UInt8) (h : Handled) : Prop where
  silent : ∀ text ∈ h.emitted, ∀ value ∈ h.values, ∀ i, ¬ Occurs Prod.fst text i value.toList
  masked : ∀ text ∈ h.emitted, ∀ character ∈ text, ∀ byte ∈ character.2, ∀ value ∈ h.values,
    ∀ place, Said streams value byte.2.1 place →
      byte.2.2 < place ∨ place + (encode value.toList).length ≤ byte.2.2
  unordered : ∀ values, (∀ value, value ∈ values ↔ value ∈ h.values) →
    (Handled.mk values h.line).emitted = h.emitted

/-! ## One payload -/

section Payload

variable {values values' : List String} {text out : List Traced} {line : List Traced}

/-- What a redacted text may consist of. -/
structure Leaves (values : List String) (text out : List Traced) : Prop where
  silent : ∀ pattern ∈ patternsOf values, ∀ i, ¬ Occurs Prod.fst out i pattern
  outside : ∀ a ∈ out, a ∈ mask ∨ ∃ i, text[i]? = some a ∧
    ∀ pattern ∈ patternsOf values, ∀ j, Occurs Prod.fst text j pattern →
      i < j ∨ j + pattern.length ≤ i

/-- The values keep clear of the mask, if they are there at all. -/
def Maskable (values : List String) (text : List Traced) : Prop :=
  (∀ pattern ∈ patternsOf values, ∀ i, ¬ Occurs Prod.fst text i pattern) ∨
    ∀ pattern ∈ patternsOf values, Foreign (mask.map Prod.fst) pattern

theorem redact_of_not_occurs
    (none : ∀ pattern ∈ patternsOf values, ∀ i, ¬ Occurs Prod.fst text i pattern) :
    redactSensitiveValues text values = text := replaceAll_of_not_occurs none

theorem redact_pieces (foreign : ∀ pattern ∈ patternsOf values, Foreign (mask.map Prod.fst) pattern)
    (separate : Separate Prod.fst (patternsOf values) text) :
    ∃ ps, Hidden Prod.fst (patternsOf values) (patternsOf values) text ps ∧
      redactSensitiveValues text values = render mask ps :=
  replaceAll_hidden encode_grows patternsOf_ne_nil foreign separate (patternsOf_sorted values)

theorem leaves_redact (maskable : Maskable values text)
    (separate : Separate Prod.fst (patternsOf values) text) :
    Leaves values text (redactSensitiveValues text values) := by
  obtain none | foreign := maskable
  · rw [redact_of_not_occurs none]
    refine ⟨none, fun a mem => ?_⟩
    obtain ⟨i, inside, same⟩ := List.mem_iff_getElem.mp mem
    exact .inr ⟨i, by rw [List.getElem?_eq_getElem inside, same],
      fun pattern mem j occurs => absurd occurs (none pattern mem j)⟩
  · obtain ⟨ps, hidden, rendered⟩ := redact_pieces foreign separate
    rw [rendered]
    refine ⟨fun pattern mem => hidden.not_occurs_render patternsOf_ne_nil mem (foreign pattern mem),
      fun a mem => ?_⟩
    obtain masked | ⟨i, there⟩ := mem_render mem
    · exact .inl masked
    · refine .inr ⟨i, ?_, fun pattern mem j => hidden.outside patternsOf_ne_nil there mem⟩
      rw [← hidden.source_eq]
      exact there.getElem?

theorem mem_patternsOf_congr (same : ∀ value, value ∈ values' ↔ value ∈ values) (pattern : List Char) :
    pattern ∈ patternsOf values' ↔ pattern ∈ patternsOf values := by
  simp only [mem_patternsOf, same]

/-- The redaction does not depend on the order of the values. -/
theorem redact_congr (maskable : Maskable values text)
    (separate : Separate Prod.fst (patternsOf values) text)
    (same : ∀ value, value ∈ values' ↔ value ∈ values) :
    redactSensitiveValues text values' = redactSensitiveValues text values := by
  have patterns := mem_patternsOf_congr same
  obtain none | foreign := maskable
  · rw [redact_of_not_occurs none,
      redact_of_not_occurs fun pattern mem => none pattern ((patterns pattern).mp mem)]
  · have separate' : Separate Prod.fst (patternsOf values') text := fun i v j u hv hu =>
      separate i v j u (hv.congr patterns) (hu.congr patterns)
    obtain ⟨ps, hidden, rendered⟩ := redact_pieces foreign separate
    obtain ⟨qs, hidden', rendered'⟩ := redact_pieces
      (fun pattern mem => foreign pattern ((patterns pattern).mp mem)) separate'
    rw [rendered, rendered', hidden'.unique hidden patterns]

end Payload

/-! ## One line -/

section Line

variable {values values' : List String} {text line : List Traced} {h : Handled}

/-- No line begins with both labels. -/
theorem strip_one (found : stripPrefix runnerStdoutPrefix line ≠ none) :
    stripPrefix runnerStderrPrefix line = none := by
  rw [stripPrefix] at found ⊢
  split at found
  next out =>
    refine if_neg fun err => ?_
    have both := List.prefix_of_prefix_length_le (startsWith_iff.mp out) (startsWith_iff.mp err)
      (by decide)
    exact absurd both (by decide)
  next => exact absurd rfl found

/-- What goes to the log. -/
theorem handleStderrLine_cases (emitted : handleStderrLine line values = some text) :
    text = redactSensitiveValues (payload line) values ∨
      (Unlabelled line ∧ text = plain sessionLogPrefix ++ redactSensitiveValues (payload line) values) := by
  unfold handleStderrLine at emitted
  split at emitted
  next rest out =>
    refine .inl ?_
    dsimp only at emitted
    split at emitted
    · rw [payload, out]
      exact (Option.some.inj emitted).symm
    · cases emitted
  next out =>
    split at emitted
    next rest err =>
      refine .inl ?_
      dsimp only at emitted
      split at emitted
      · rw [payload, out, err]
        exact (Option.some.inj emitted).symm
      · cases emitted
    next err =>
      refine .inr ⟨⟨out, err⟩, ?_⟩
      dsimp only at emitted
      split at emitted
      · rw [payload, out, err]
        exact (Option.some.inj emitted).symm
      · cases emitted

/-- What goes to a diagnostic. -/
theorem recordLine_cases (emitted : recordLine line values = some text) :
    text = (redactSensitiveValues (payload line) values).take 1024 := by
  have stripped : ∀ rest, (stripPrefix runnerStderrPrefix line).or
      (stripPrefix runnerStdoutPrefix line) = some rest → payload line = rest := by
    intro rest found
    rw [payload]
    cases out : stripPrefix runnerStdoutPrefix line with
    | none =>
      rw [out, Option.or_none] at found
      rw [found]
      rfl
    | some rest' =>
      rw [strip_one (by rw [out]; exact Option.some_ne_none _), out] at found
      cases found
      rfl
  unfold recordLine at emitted
  split at emitted
  next => cases emitted
  next rest found =>
    split at emitted
    next => cases emitted
    next =>
      rw [stripped rest found]
      exact (Option.some.inj emitted).symm

/-- The redacted payload decides what goes out. -/
theorem emitted_congr (same : redactSensitiveValues (payload line) values' =
    redactSensitiveValues (payload line) values) :
    (Handled.mk values' line).emitted = (Handled.mk values line).emitted := by
  have log : handleStderrLine line values' = handleStderrLine line values := by
    unfold payload at same
    unfold handleStderrLine
    cases out : stripPrefix runnerStdoutPrefix line with
    | some rest =>
      rw [out] at same
      simp only [Option.some_or, Option.getD_some] at same
      simp only [same]
    | none =>
      cases err : stripPrefix runnerStderrPrefix line with
      | some rest =>
        rw [out, err] at same
        simp only [Option.none_or, Option.getD_some] at same
        simp only [same]
      | none =>
        rw [out, err] at same
        simp only [Option.none_or, Option.getD_none] at same
        simp only [same]
  have diagnostic : recordLine line values' = recordLine line values := by
    unfold payload at same
    unfold recordLine
    cases out : stripPrefix runnerStdoutPrefix line with
    | some rest =>
      rw [strip_one (by rw [out]; exact Option.some_ne_none _)]
      rw [out] at same
      simp only [Option.some_or, Option.getD_some] at same
      simp only [Option.none_or, same]
    | none =>
      cases err : stripPrefix runnerStderrPrefix line with
      | some rest =>
        rw [out, err] at same
        simp only [Option.none_or, Option.getD_some] at same
        simp only [Option.some_or, same]
      | none => rfl
  rw [Handled.emitted, Handled.emitted, log, diagnostic]

/-- Every text is what is left of the payload, or a part of it, or it has the session's prefix. -/
theorem mem_emitted (mem : text ∈ h.emitted) :
    text = redactSensitiveValues (payload h.line) h.values ∨
      text = (redactSensitiveValues (payload h.line) h.values).take 1024 ∨
      (Unlabelled h.line ∧
        text = plain sessionLogPrefix ++ redactSensitiveValues (payload h.line) h.values) := by
  obtain log | diagnostic := List.mem_append.mp mem
  · obtain whole | quiet := handleStderrLine_cases (Option.mem_toList.mp log)
    · exact .inl whole
    · exact .inr (.inr quiet)
  · exact .inr (.inl (recordLine_cases (Option.mem_toList.mp diagnostic)))

theorem Clean.maskable {streams : Stream → List UInt8} (clean : Clean streams h) :
    Maskable h.values (payload h.line) := by
  by_cases there : ∃ value ∈ h.values, ∃ i, Occurs Prod.fst (payload h.line) i value.toList
  · refine .inr fun pattern mem => ?_
    obtain ⟨value, known, _, rfl⟩ := mem_patternsOf.mp mem
    exact clean.foreign there value known
  · refine .inl fun pattern mem i occurs => ?_
    obtain ⟨value, known, _, rfl⟩ := mem_patternsOf.mp mem
    exact there ⟨value, known, i, occurs⟩

/-- **No text contains a value.** -/
theorem Clean.silent {streams : Stream → List UInt8} (clean : Clean streams h) (some : "" ∉ h.values) :
    ∀ text ∈ h.emitted, ∀ value ∈ h.values, ∀ i, ¬ Occurs Prod.fst text i value.toList := by
  intro text mem value known i occurs
  have nonempty : value ≠ "" := fun none => some (none ▸ known)
  have listed : value.toList ∈ patternsOf h.values := mem_patternsOf.mpr ⟨value, known, nonempty, rfl⟩
  have left := (leaves_redact clean.maskable clean.separate).silent value.toList listed
  obtain rfl | rfl | ⟨unlabelled, rfl⟩ := mem_emitted mem
  · exact left i occurs
  · refine left i (occurs.trans ?_)
    rw [List.map_take, List.drop_take]
    exact List.take_prefix _ _
  · obtain inside | later := Nat.lt_or_ge i (plain sessionLogPrefix).length
    · have letters : (plain sessionLogPrefix).map Prod.fst = sessionLogPrefix.toList := by decide
      have short : i < sessionLogPrefix.toList.length := inside
      rw [Occurs, List.map_append, letters, List.drop_append_of_le_length (Nat.le_of_lt short)] at occurs
      refine (clean.quiet unlabelled value known).not_starts (List.drop_suffix _ _) ?_ occurs
      exact fun none => absurd short (Nat.not_lt.mpr (List.drop_eq_nil_iff.mp none))
    · obtain ⟨j, rfl⟩ := Nat.exists_eq_add_of_le later
      exact left j (occurs_append_right.mp occurs)

/-- A character of a text is the launcher's own, or a character of the payload outside all values. -/
theorem Clean.outside {streams : Stream → List UInt8} (clean : Clean streams h) {a : Traced}
    (mem : text ∈ h.emitted) (char : a ∈ text) :
    a.2 = [] ∨ ∃ i, (payload h.line)[i]? = some a ∧ ∀ pattern ∈ patternsOf h.values, ∀ j,
      Occurs Prod.fst (payload h.line) j pattern → i < j ∨ j + pattern.length ≤ i := by
  have own : ∀ {text : String} {a : Traced}, a ∈ plain text → a.2 = [] := by
    intro text a mem
    obtain ⟨c, _, rfl⟩ := List.mem_map.mp mem
    rfl
  have left : ∀ a ∈ redactSensitiveValues (payload h.line) h.values, a.2 = [] ∨ ∃ i,
      (payload h.line)[i]? = some a ∧ ∀ pattern ∈ patternsOf h.values, ∀ j,
        Occurs Prod.fst (payload h.line) j pattern → i < j ∨ j + pattern.length ≤ i := by
    intro a char
    obtain masked | outside := (leaves_redact clean.maskable clean.separate).outside a char
    · exact .inl (own masked)
    · exact .inr outside
  obtain rfl | rfl | ⟨_, rfl⟩ := mem_emitted mem
  · exact left a char
  · exact left a (List.mem_of_mem_take char)
  · obtain prefixed | rest := List.mem_append.mp char
    · exact .inl (own prefixed)
    · exact left a rest

end Line

/-! ## A line of the runner -/

section Reading

variable (streams : Stream → List UInt8) {stream : Stream} {line : List Traced}

theorem label_length (channel : Channel) (continuation : Bool) :
    16 ≤ (plain (label channel continuation)).length := by
  cases channel <;> cases continuation <;> decide

theorem payload_eq_drop (line : List Traced) : ∃ d, d ≤ 16 ∧ payload line = line.drop d := by
  have stripped : ∀ {start : String} {rest : List Traced}, stripPrefix start line = some rest →
      rest = line.drop start.length := by
    intro start rest found
    unfold stripPrefix at found
    split at found
    · exact (Option.some.inj found).symm
    · cases found
  unfold payload
  cases out : stripPrefix runnerStdoutPrefix line with
  | some rest => exact ⟨16, Nat.le_refl _, stripped out⟩
  | none =>
    cases err : stripPrefix runnerStderrPrefix line with
    | some rest => exact ⟨16, Nat.le_refl _, stripped err⟩
    | none => exact ⟨0, Nat.zero_le _, rfl⟩

/-- A line loses its last character at most, and only a carriage return. -/
theorem withoutReturn_eq_take (line : List Traced) : ∃ l, withoutReturn line = line.take l ∧
    (line.length ≤ l ∨ (l + 1 = line.length ∧ line.getLast?.map Prod.fst = some '\r')) := by
  unfold withoutReturn
  split
  next ended =>
    refine ⟨line.length - 1, List.dropLast_eq_take, .inr ⟨?_, ended⟩⟩
    cases line with
    | nil => cases ended
    | cons a line => rfl
  next => exact ⟨line.length, List.take_length.symm, .inl (Nat.le_refl _)⟩

/-- The bytes of a decoded character are among those that were decoded. -/
theorem mem_decodeLossy {bytes : List Byte} {a : Traced} {byte : Byte}
    (mem : a ∈ decodeLossy Prod.fst bytes) (part : byte ∈ a.2) : byte ∈ bytes := by
  rw [← @decodeLossy_source _ Prod.fst bytes]
  exact List.mem_flatMap.mpr ⟨a, mem, part⟩

/-- The characters of an occurrence, in a line whose bytes contain it. -/
theorem emitted_around (stream : Stream) (continuation : Bool) {start place : Nat} {pre : List UInt8}
    (post : List UInt8) {value : String} (nonempty : value ≠ "") (here : start + pre.length = place) :
    ∃ before parts after, emitRunnerLine stream
        (continuation, tag stream start (pre ++ encode value.toList ++ post)) = before ++ parts ++ after ∧
      16 ≤ before.length ∧ parts.map Prod.fst = value.toList ∧
      (∀ a ∈ before, ∀ byte ∈ a.2, byte.2.2 < place) ∧
      ∀ a ∈ after, ∀ byte ∈ a.2, place + (encode value.toList).length ≤ byte.2.2 := by
  obtain ⟨c, text, chars⟩ : ∃ c text, value.toList = c :: text := by
    cases chars : value.toList with
    | nil => exact absurd (String.toList_eq_nil_iff.mp chars) nonempty
    | cons c text => exact ⟨c, text, rfl⟩
  have encoded : (tag stream place (encode value.toList)).map Prod.fst = encode (c :: text) := by
    rw [map_tag, chars]
  obtain ⟨parts, read, letters, _⟩ := @decodeLossy_around _ _ _ _ (tag stream start pre) _
    (tag stream (place + (encode value.toList).length) post) encoded
  refine ⟨plain (label stream.channel continuation) ++ decodeLossy Prod.fst (tag stream start pre), parts,
    decodeLossy Prod.fst (tag stream (place + (encode value.toList).length) post), ?_, ?_,
    letters.trans chars.symm, ?_, ?_⟩
  · rw [emitRunnerLine, tag_append, tag_append, here, List.length_append, ← Nat.add_assoc, here, read]
    simp only [List.append_assoc]
  · rw [List.length_append]
    exact Nat.le_trans (label_length stream.channel continuation) (Nat.le_add_right _ _)
  · intro a mem byte part
    obtain own | decoded := List.mem_append.mp mem
    · obtain ⟨c, _, rfl⟩ := List.mem_map.mp own
      cases part
    · have bounds := mem_tag (mem_decodeLossy decoded part)
      omega
  · intro a mem byte part
    exact (mem_tag (mem_decodeLossy mem part)).2.1

/-- The part of a line that is looked at has the occurrence, and no character of it is elsewhere. -/
theorem occurs_of_window {before parts after : List Traced} {d l i : Nat} {a : Traced}
    (left : d ≤ before.length) (right : before.length + parts.length ≤ l)
    (char : ((before ++ parts ++ after).take l |>.drop d)[i]? = some a) (not_before : a ∉ before)
    (not_after : a ∉ after) :
    ∃ j, Occurs Prod.fst ((before ++ parts ++ after).take l |>.drop d) j (parts.map Prod.fst) ∧
      j ≤ i ∧ i < j + parts.length := by
  rw [List.getElem?_drop, List.getElem?_take] at char
  split at char
  next =>
    refine ⟨before.length - d, ?_, ?_, ?_⟩
    · obtain ⟨m, rfl⟩ := Nat.exists_eq_add_of_le right
      refine occurs_of_starts ?_
      rw [List.drop_drop, Nat.add_sub_cancel' left, List.drop_take, List.append_assoc, List.drop_left,
        show before.length + parts.length + m - before.length = parts.length + m by omega,
        List.take_length_add_append]
      exact List.prefix_append _ _
    · by_contra earlier
      rw [List.append_assoc, List.getElem?_append_left (by omega)] at char
      exact not_before (List.mem_of_getElem? char)
    · by_contra later
      rw [List.getElem?_append_right (by rw [List.length_append]; omega)] at char
      exact not_after (List.mem_of_getElem? char)
  next => cases char

/-- **An occurrence in the stream is one in the line**, at the characters that were read from it. -/
theorem occurs_of_said {closed continuation : Bool} {body : List Byte} {value : String} {place : Nat}
    (segment : IsSegment stream (streams stream) closed body) (nonempty : value ≠ "")
    (whole : ¬ Torn streams value) {a : Traced} {i : Nat} {byte : Byte}
    (char : (payload (withoutReturn (emitRunnerLine stream (continuation, body))))[i]? = some a)
    (part : byte ∈ a.2) (said : Said streams value byte.2.1 place) (low : place ≤ byte.2.2)
    (high : byte.2.2 < place + (encode value.toList).length) :
    ∃ j, Occurs Prod.fst (payload (withoutReturn (emitRunnerLine stream (continuation, body)))) j
      value.toList ∧ j ≤ i ∧ i < j + value.toList.length := by
  obtain ⟨d, short, dropped⟩ := payload_eq_drop
    (withoutReturn (emitRunnerLine stream (continuation, body)))
  obtain ⟨l, taken, ended⟩ := withoutReturn_eq_take (emitRunnerLine stream (continuation, body))
  rw [dropped, taken] at char ⊢
  have mem : byte ∈ body := by
    obtain own | decoded := List.mem_append.mp
      (List.mem_of_mem_take (List.mem_of_mem_drop (List.mem_of_getElem? char)))
    · obtain ⟨c, _, rfl⟩ := List.mem_map.mp own
      cases part
    · exact mem_decodeLossy decoded part
  obtain ⟨base, chunk, bytes, after, split, rfl, cut, one, ends⟩ := segment
  obtain ⟨same, above, below⟩ := mem_tag mem
  rw [same] at said
  obtain ⟨pre, post, rfl, here⟩ : ∃ pre post, bytes = pre ++ encode value.toList ++ post ∧
      (base ++ chunk).length + pre.length = place := by
    obtain clear | clear | ⟨begins, stops⟩ := IsSegment.inside split cut one ends said whole
    · omega
    · omega
    · obtain ⟨k, rfl⟩ := Nat.exists_eq_add_of_le begins
      have inside : encode value.toList <+: bytes.drop k := by
        obtain ⟨more, reads⟩ := said
        rw [split, List.append_assoc, List.drop_length_add_append,
          List.drop_append_of_le_length (by omega)] at reads
        refine List.prefix_of_prefix_length_le ⟨more, reads⟩ (List.prefix_append _ after) ?_
        rw [List.length_drop]
        omega
      obtain ⟨post, reads⟩ := inside
      refine ⟨bytes.take k, post, ?_, ?_⟩
      · rw [List.append_assoc, reads, List.take_append_drop]
      · rw [List.length_take]
        omega
  obtain ⟨front, parts, back, line, wide, letters, before, behind⟩ :=
    emitted_around stream continuation post nonempty here
  rw [line] at char ended ⊢
  have width : parts.length = value.toList.length := by rw [← letters, List.length_map]
  have enough : front.length + parts.length ≤ l := by
    simp only [List.length_append] at ended
    obtain long | ⟨almost, last⟩ := ended
    · omega
    · by_contra less
      have none : back = [] := List.length_eq_zero_iff.mp (by omega)
      have some : value.toList ≠ [] := fun none => nonempty (String.toList_eq_nil_iff.mp none)
      have cr : value.toList.getLast? = Option.some '\r' := by
        rw [← letters, List.getLast?_map, ← last, none, List.append_nil,
          List.getLast?_append_of_ne_nil]
        intro empty
        rw [empty] at letters
        exact some letters.symm
      exact whole ⟨stream, place, said, .inr (.inl cr)⟩
  obtain ⟨j, occurs, le, lt⟩ := occurs_of_window (Nat.le_trans short wide) enough char
    (fun mem => by have := before a mem byte part; omega)
    (fun mem => by have := behind a mem byte part; omega)
  rw [letters] at occurs
  rw [width] at lt
  exact ⟨j, occurs, le, lt⟩

end Reading

/-! ## A session -/

/-- A line that the supervisor wrote. -/
def Session.Wrote (s : Session) (line : List Traced) : Prop :=
  (∃ text, line = plain text) ∨ ∃ stream, (s.forwarder stream).Wrote stream line

/-- A text that a diagnostic keeps. -/
def FailureOutput.Has (output : FailureOutput) (text : List Traced) : Prop :=
  output.firstError = some text ∨ text ∈ output.tail

/-- A text that went out with some line. -/
def Session.Emitted (s : Session) (text : List Traced) : Prop := ∃ h ∈ s.history, text ∈ h.emitted

/-- What holds in every session. -/
structure Session.Sound (s : Session) : Prop where
  ready : ∀ stream, (s.forwarder stream).Ready stream
  known : "" ∉ s.redactions
  piped : ∀ line ∈ s.pipe, s.Wrote line
  taken : ∀ h ∈ s.history, "" ∉ h.values ∧ ∃ line, s.Wrote line ∧ h.line = withoutReturn line
  heard : ∀ output ∈ s.subscribers, ∀ text, output.Has text → s.Emitted text

theorem FailureOutput.has_of_lines {output : FailureOutput} {text : List Traced}
    (mem : text ∈ output.lines) : output.Has text := by
  obtain first | tail := List.mem_append.mp mem
  · exact .inl (Option.mem_toList.mp first)
  · exact .inr (List.mem_of_mem_filter tail)

theorem FailureOutput.has_record {output : FailureOutput} {line text : List Traced}
    (has : (output.record line).Has text) : text = line ∨ output.Has text := by
  obtain first | tail := has
  · rw [FailureOutput.record] at first
    split at first
    · exact .inl (Option.some.inj first).symm
    · exact .inr (.inl first)
  · have kept : text ∈ output.tail ++ [line] := by
      rw [FailureOutput.record] at tail
      dsimp only at tail
      split at tail
      · exact List.mem_of_mem_drop tail
      · exact tail
    obtain before | now := List.mem_append.mp kept
    · exact .inr (.inr before)
    · exact .inl (List.mem_singleton.mp now)

namespace Session

theorem forwarder_self (s : Session) (stream : Stream) (done : List (List Traced) × Forwarder) :
    (s.forwarded stream done).forwarder stream = done.2 := Function.update_self ..

theorem forwarder_of_ne (s : Session) {stream other : Stream} (done : List (List Traced) × Forwarder)
    (ne : other ≠ stream) : (s.forwarded stream done).forwarder other = s.forwarder other :=
  Function.update_of_ne ne ..

/-- The launcher does not touch the forwarders. -/
theorem forwarder_handle (s : Session) : (s.perform .handle).forwarder = s.forwarder := by
  rw [Session.perform]
  split <;> rfl

theorem sound_new : Sound new where
  ready := Forwarder.ready_new
  known := List.not_mem_nil
  piped _ never := (List.not_mem_nil never).elim
  taken _ never := (List.not_mem_nil never).elim
  heard _ never := (List.not_mem_nil never).elim

/-- What a forwarder did is sound, as what it wrote before. -/
theorem Sound.forwarded {s : Session} (h : s.Sound) {stream : Stream}
    {done : List (List Traced) × Forwarder}
    (spec : done.2.Ready stream ∧ (∀ line ∈ done.1, done.2.Wrote stream line) ∧
      ∀ line, (s.forwarder stream).Wrote stream line → done.2.Wrote stream line) :
    (s.forwarded stream done).Sound := by
  obtain ⟨ready, wrote, kept⟩ := spec
  have keeps : ∀ line, s.Wrote line → (s.forwarded stream done).Wrote line := by
    rintro line (own | ⟨other, before⟩)
    · exact .inl own
    · refine .inr ⟨other, ?_⟩
      by_cases same : other = stream
      · subst same
        rw [forwarder_self]
        exact kept line before
      · rw [forwarder_of_ne s done same]
        exact before
  refine ⟨fun other => ?_, h.known, fun line mem => ?_, fun handled mem => ?_, h.heard⟩
  · by_cases same : other = stream
    · subst same
      rw [forwarder_self]
      exact ready
    · rw [forwarder_of_ne s done same]
      exact h.ready other
  · obtain before | now := List.mem_append.mp mem
    · exact keeps line (h.piped line before)
    · refine .inr ⟨stream, ?_⟩
      rw [forwarder_self]
      exact wrote line now
  · obtain ⟨known, line, before, cut⟩ := h.taken handled mem
    exact ⟨known, line, keeps line before, cut⟩

theorem Sound.perform {s : Session} (h : s.Sound) (event : Event) : (s.perform event).Sound := by
  cases event with
  | launch incoming =>
    refine { h with known := fun mem => ?_ }
    obtain before | ⟨_, never⟩ := mem_mergeRedactions.mp mem
    · exact h.known before
    · exact never rfl
  | spawn => exact { h with }
  | read stream bytes =>
    rw [Session.perform]
    split
    next => exact h.forwarded (Forwarder.read_spec bytes (h.ready stream))
    next => exact h
  | close stream =>
    rw [Session.perform]
    split
    next => exact h.forwarded (Forwarder.close_spec (h.ready stream))
    next => exact h
  | supervisor line =>
    refine { h with piped := fun other mem => ?_ }
    obtain before | now := List.mem_append.mp mem
    · exact h.piped other before
    · exact .inl ⟨line, List.mem_singleton.mp now⟩
  | subscribe =>
    refine { h with heard := fun output mem text has => ?_ }
    obtain before | now := List.mem_append.mp mem
    · exact h.heard output before text has
    · obtain rfl := List.mem_singleton.mp now
      obtain never | never := has <;> cases never
  | unsubscribe subscriber =>
    exact { h with heard := fun output mem => h.heard output (List.mem_of_mem_eraseIdx mem) }
  | handle =>
    rw [Session.perform]
    split
    next => exact h
    next line rest piped =>
      refine ⟨h.ready, h.known, fun other mem => ?_, fun handled mem => ?_, fun output mem text has => ?_⟩
      · exact h.piped other (by rw [piped]; exact List.mem_cons_of_mem _ mem)
      · obtain before | now := List.mem_append.mp mem
        · exact h.taken handled before
        · obtain rfl := List.mem_singleton.mp now
          exact ⟨h.known, line, h.piped line (by rw [piped]; exact List.mem_cons_self), rfl⟩
      · obtain ⟨output, listens, rfl⟩ := List.mem_map.mp mem
        have before : output.Has text → Emitted (s.handled (withoutReturn line) rest) text := fun had =>
          have ⟨handled, past, out⟩ := h.heard output listens text had
          ⟨handled, List.mem_append_left _ past, out⟩
        cases recorded : recordLine (withoutReturn line) s.redactions with
        | none =>
          rw [recorded] at has
          exact before has
        | some new =>
          rw [recorded] at has
          obtain rfl | had := FailureOutput.has_record has
          · exact ⟨_, List.mem_append_right _ (List.mem_singleton.mpr rfl),
              List.mem_append_right _ (Option.mem_toList.mpr recorded)⟩
          · exact before had

theorem sound_run (events : List Event) : (run events).Sound := by
  have from_any : ∀ s : Session, s.Sound → (events.foldl Session.perform s).Sound := by
    induction events with
    | nil => exact fun _ h => h
    | cons event events ih => exact fun s h => ih _ (h.perform event)
  exact from_any new sound_new

/-- **Where a line is clean, nothing of a value gets out with it.** -/
theorem Sound.redacted {s : Session} (sound : s.Sound) {h : Handled} (mem : h ∈ s.history)
    (clean : Clean s.streamOf h) : Redacted s.streamOf h := by
  obtain ⟨known, line, wrote, cut⟩ := sound.taken h mem
  refine ⟨clean.silent known, ?_, fun values same =>
    emitted_congr (redact_congr clean.maskable clean.separate same)⟩
  intro text out a char byte part value listed place said
  have nonempty : value ≠ "" := fun none => known (none ▸ listed)
  obtain none | ⟨i, there, outside⟩ := clean.outside out char
  · rw [none] at part
    cases part
  · by_contra inside
    push Not at inside
    obtain ⟨text, rfl⟩ | ⟨stream, continuation, body, rfl, segment⟩ := wrote
    · -- The supervisor's own lines have no bytes of the runner.
      obtain ⟨d, _, dropped⟩ := payload_eq_drop h.line
      obtain ⟨l, taken, _⟩ := withoutReturn_eq_take (plain text)
      rw [dropped, cut, taken] at there
      obtain ⟨c, _, rfl⟩ := List.mem_map.mp
        (List.mem_of_mem_take (List.mem_of_mem_drop (List.mem_of_getElem? there)))
      cases part
    · rw [cut] at there outside
      obtain ⟨j, occurs, le, lt⟩ := occurs_of_said s.streamOf segment nonempty
        (clean.whole value listed) there part said inside.1 inside.2
      obtain less | more := outside _ (mem_patternsOf.mpr ⟨value, listed, nonempty, rfl⟩) j occurs
      · exact absurd le (Nat.not_le.mpr less)
      · exact absurd lt (Nat.not_lt.mpr more)

end Session

/-- **Where the lines that were handled are clean**, nothing of a value gets out with them, and a
diagnostic shows nothing else. -/
theorem redacted_of_clean (events : List Event)
    (clean : ∀ h ∈ (run events).history, Clean (run events).streamOf h) :
    (∀ h ∈ (run events).history, Redacted (run events).streamOf h) ∧
      ∀ output ∈ (run events).subscribers, ∀ text ∈ output.lines,
        ∃ h ∈ (run events).history, text ∈ h.emitted := by
  have sound := sound_run events
  refine ⟨fun h mem => sound.redacted mem (clean h mem), fun output listens text shown => ?_⟩
  exact sound.heard output listens text (FailureOutput.has_of_lines shown)

/-- Two runners at a time. The first one prints a value, in two reads with a line of the other one in
between. -/
def printedToken : List Event :=
  [.launch ["abc"], .spawn, .subscribe, .launch [], .spawn, .read ⟨0, .stdout⟩ [120, 61, 97],
    .read ⟨1, .stdout⟩ [111, 107, 10], .read ⟨0, .stdout⟩ [98, 99, 13, 10], .close ⟨0, .stdout⟩,
    .handle, .handle]

theorem short_printedToken (stream : Stream) :
    ((run printedToken).streamOf stream).length ≤ 7 := by
  by_cases first : stream = ⟨0, .stdout⟩
  · subst first
    decide
  · by_cases second : stream = ⟨1, .stdout⟩
    · subst second
      decide
    · have silent : (run printedToken).streamOf stream = [] := by
        simp only [streamOf, run, printedToken, List.foldl_cons, List.foldl_nil, forwarder_handle]
        simp [Session.perform, Session.new, forwarded, first, second, Forwarder.new]
      simp [silent]

theorem clean_printedToken :
    ∀ h ∈ (run printedToken).history, Clean (run printedToken).streamOf h := by
  intro h mem
  have values : h.values = ["abc"] := by
    have all : ∀ h ∈ (run printedToken).history, h.values = ["abc"] := by decide
    exact all h mem
  have letters : (payload h.line).map Prod.fst = ['x', '=', 'a', 'b', 'c'] ∨
      (payload h.line).map Prod.fst = ['o', 'k'] := by
    have all : ∀ h ∈ (run printedToken).history,
        (payload h.line).map Prod.fst = ['x', '=', 'a', 'b', 'c'] ∨
          (payload h.line).map Prod.fst = ['o', 'k'] := by decide
    exact all h mem
  have patterns : patternsOf h.values = [['a', 'b', 'c']] := by
    rw [values]
    decide
  have once : ∀ i, Occurs Prod.fst (payload h.line) i ['a', 'b', 'c'] → i = 2 := by
    intro i occurs
    have short := occurs.length_le (List.cons_ne_nil _ _)
    rw [← List.length_map Prod.fst] at short
    rw [Occurs] at occurs
    obtain token | other := letters
    · rw [token] at occurs short
      have all : ∀ i < 3, ['a', 'b', 'c'] <+: ['x', '=', 'a', 'b', 'c'].drop i → i = 2 := by decide
      exact all i (by simp only [List.length_cons, List.length_nil] at short; omega) occurs
    · rw [other] at short
      simp only [List.length_cons, List.length_nil] at short
      omega
  refine ⟨fun _ => ?_, ?_, fun i v j u hv hu lt => ?_, ?_⟩
  · rw [values]
    decide
  · intro _
    rw [values]
    decide
  · have v_eq := List.mem_singleton.mp (patterns ▸ hv.mem)
    have u_eq := List.mem_singleton.mp (patterns ▸ hu.mem)
    have := once i (v_eq ▸ hv.occurs)
    have := once j (u_eq ▸ hu.occurs)
    omega
  · rw [values]
    rintro value mem ⟨stream, place, _, broken⟩
    obtain rfl := List.mem_singleton.mp mem
    obtain never | never | ⟨base, chunk, rest, split, cut, some, _⟩ := broken
    · exact absurd never (by decide)
    · exact absurd never (by decide)
    · have short := short_printedToken stream
      have long := Nat.le_of_dvd (List.length_pos_iff.mpr some) cut.whole
      rw [split, List.length_append, List.length_append] at short
      change 65536 ≤ chunk.length at long
      omega

theorem redacted_printedToken : (run printedToken).history.length = 2 ∧
    ∀ h ∈ (run printedToken).history, Redacted (run printedToken).streamOf h :=
  ⟨by decide, (redacted_of_clean printedToken clean_printedToken).1⟩

/-- Two values that overlap in what the second runner prints. -/
def overlappingValues : List Event :=
  [.launch ["abc"], .spawn, .launch ["bcd"], .spawn, .read ⟨1, .stdout⟩ [97, 98, 99, 100, 10], .handle]

/-- The end of the second value gets out. -/
theorem not_redacted_overlapping :
    ∃ h ∈ (run overlappingValues).history, ¬ Redacted (run overlappingValues).streamOf h := by
  obtain ⟨h, mem, left, known⟩ : ∃ h ∈ (run overlappingValues).history,
      plain "<redacted>" ++ [('d', [(100, ⟨1, .stdout⟩, 3)])] ∈ h.emitted ∧ "bcd" ∈ h.values := by
    decide
  have said : Said (run overlappingValues).streamOf "bcd" ⟨1, .stdout⟩ 1 := by decide
  refine ⟨h, mem, fun redacted => ?_⟩
  have out := redacted.masked _ left ('d', [(100, ⟨1, .stdout⟩, 3)])
    (List.mem_append_right _ (List.mem_singleton.mpr rfl)) (100, ⟨1, .stdout⟩, 3)
    (List.mem_singleton.mpr rfl) "bcd" known 1 said
  exact absurd out (by decide)

end RoLauncher.Runners
