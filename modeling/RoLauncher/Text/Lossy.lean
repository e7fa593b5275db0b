import Mathlib.Data.List.Basic

/-!
# Lossy UTF-8 (`String::from_utf8_lossy`)

Bytes are read character by character; where no character begins, the longest
piece that could have become one is replaced by `U+FFFD`. Each character
comes with the bytes it was read from, which nothing else looks at.

The decoder is self-synchronizing: valid text inside arbitrary bytes reads as
itself (`decodeLossy_around`), because no character of UTF-8 begins with a
byte that continues one.
-/

namespace RoLauncher.Text

/-- The character that the bytes begin with. -/
def decodeChar? (bytes : List UInt8) : Option Char := bytes.toByteArray.utf8DecodeChar? 0

def isContinuation (byte : UInt8) : Bool := 0x80 ≤ byte && byte ≤ 0xBF

/-- The second bytes of the characters of more than two bytes with this first one: between these
two, if there are any. -/
def secondRange (first : UInt8) : Option (UInt8 × UInt8) :=
  if first = 0xE0 then some (0xA0, 0xBF)
  else if first = 0xED then some (0x80, 0x9F)
  else if first = 0xF0 then some (0x90, 0xBF)
  else if first = 0xF4 then some (0x80, 0x8F)
  else if 0xE1 ≤ first && first ≤ 0xF3 then some (0x80, 0xBF)
  else none

def allowsSecond (first second : UInt8) : Bool :=
  match secondRange first with
  | some (least, greatest) => least ≤ second && second ≤ greatest
  | none => false

/-- The bytes of an incomplete character of four, from its third one on. -/
def afterSecond : List UInt8 → Nat
  | third :: _ => if isContinuation third then 3 else 2
  | [] => 2

/-- How many bytes one replacement character stands for. -/
def invalidLength : List UInt8 → Nat
  | first :: second :: rest =>
    if allowsSecond first second then if first < 0xF0 then 2 else afterSecond rest else 1
  | _ => 1

section Decoding

variable {β : Type} (byte : β → UInt8)

/-- One character after the other; the first argument is an upper bound of their number. -/
def decodeFrom : Nat → List β → List (Char × List β)
  | 0, _ => []
  | _ + 1, [] => []
  | bound + 1, b :: rest =>
    match decodeChar? ((b :: rest).map byte) with
    | some c => (c, (b :: rest).take c.utf8Size) :: decodeFrom bound ((b :: rest).drop c.utf8Size)
    | none =>
      let length := invalidLength ((b :: rest).map byte)
      ('\uFFFD', (b :: rest).take length) :: decodeFrom bound ((b :: rest).drop length)

def decodeLossy (bytes : List β) : List (Char × List β) := decodeFrom byte bytes.length bytes

/-- The bytes of a text. -/
def encode (text : List Char) : List UInt8 := text.flatMap String.utf8EncodeChar

end Decoding

def fromUtf8Lossy (bytes : List UInt8) : String := String.ofList ((decodeLossy id bytes).map Prod.fst)

/-! ## One character -/

section Characters

variable {c : Char} {bytes more : List UInt8}

theorem decodeChar?_encode (c : Char) (more : List UInt8) :
    decodeChar? (String.utf8EncodeChar c ++ more) = some c := by
  rw [decodeChar?, List.toByteArray_append]
  exact ByteArray.utf8DecodeChar?_utf8EncodeChar_append

theorem encode_of_decodeChar? (h : decodeChar? bytes = some c) :
    ∃ more, bytes = String.utf8EncodeChar c ++ more := by
  obtain ⟨more, split⟩ := ByteArray.exists_of_utf8DecodeChar?_eq_some h
  refine ⟨more.data.toList, ?_⟩
  have lists := congrArg (fun bytes : ByteArray => bytes.data.toList) split
  simpa using lists

theorem utf8ByteSize_eq (value : String) : value.utf8ByteSize = (encode value.toList).length := by
  rw [← String.size_toByteArray, ← String.utf8Encode_toList, List.utf8Encode, ← ByteArray.size_data]
  simp [encode]

theorem encode_append (u v : List Char) : encode (u ++ v) = encode u ++ encode v :=
  List.flatMap_append

theorem length_encode (c : Char) : (String.utf8EncodeChar c).length = c.utf8Size :=
  String.length_utf8EncodeChar c

/-- Bytes that a character begins with, or none. -/
def AtBoundary (bytes : List UInt8) : Prop :=
  ∀ b, bytes.head? = some b → b.IsUTF8FirstByte

theorem not_first_of_continuation {b : UInt8} (h : isContinuation b = true) : ¬ b.IsUTF8FirstByte := by
  have all : ∀ n : Fin 256, isContinuation (UInt8.ofFin n) = true →
      ¬ (UInt8.ofFin n).IsUTF8FirstByte := by decide +kernel
  exact all b.toFin h

theorem continuation_of_allowed {first second : UInt8} (h : allowsSecond first second = true) :
    isContinuation second = true := by
  have ranges : ∀ least greatest, secondRange first = some (least, greatest) →
      0x80 ≤ least ∧ greatest ≤ 0xBF := by
    intro least greatest range
    unfold secondRange at range
    repeat' split at range
    all_goals cases range
    all_goals decide
  unfold allowsSecond at h
  split at h
  next least greatest range =>
    obtain ⟨low, high⟩ := ranges least greatest range
    rw [Bool.and_eq_true, decide_eq_true_eq, decide_eq_true_eq] at h
    rw [isContinuation, Bool.and_eq_true, decide_eq_true_eq, decide_eq_true_eq]
    exact ⟨UInt8.le_trans low h.1, UInt8.le_trans h.2 high⟩
  next => cases h

/-- A character ends before the next one begins. -/
theorem utf8Size_le (h : decodeChar? (bytes ++ more) = some c) (some : bytes ≠ [])
    (boundary : AtBoundary more) : c.utf8Size ≤ bytes.length := by
  by_contra long
  obtain ⟨rest, split⟩ := encode_of_decodeChar? h
  have inside : bytes.length < (String.utf8EncodeChar c).length := by
    rw [length_encode]
    omega
  have first : (String.utf8EncodeChar c)[bytes.length].IsUTF8FirstByte := by
    apply boundary
    have here : (bytes ++ more)[bytes.length]? = (String.utf8EncodeChar c ++ rest)[bytes.length]? := by
      rw [split]
    rw [List.getElem?_append_right (Nat.le_refl _), Nat.sub_self,
      List.getElem?_append_left inside, List.getElem?_eq_getElem inside] at here
    rw [List.head?_eq_getElem?]
    exact here
  rw [UInt8.isUTF8FirstByte_getElem_utf8EncodeChar] at first
  exact some (List.length_eq_zero_iff.mp first)

theorem afterSecond_bounds (rest : List UInt8) :
    2 ≤ afterSecond rest ∧ afterSecond rest ≤ rest.length + 2 := by
  cases rest with
  | nil => exact ⟨Nat.le_refl _, Nat.le_refl _⟩
  | cons third rest =>
    rw [afterSecond, List.length_cons]
    split <;> omega

theorem invalidLength_bounds (bytes : List UInt8) :
    0 < invalidLength bytes ∧ (bytes ≠ [] → invalidLength bytes ≤ bytes.length) := by
  obtain _ | ⟨first, _ | ⟨second, rest⟩⟩ := bytes
  · exact ⟨Nat.one_pos, fun some => absurd rfl some⟩
  · exact ⟨Nat.one_pos, fun _ => Nat.le_refl _⟩
  · have bounds := afterSecond_bounds rest
    rw [invalidLength, List.length_cons, List.length_cons]
    split
    · split <;> omega
    · omega

/-- What could not become a character ends before the next one begins. -/
theorem invalidLength_append (some : bytes ≠ []) (boundary : AtBoundary more) :
    invalidLength (bytes ++ more) = invalidLength bytes := by
  cases more with
  | nil => rw [List.append_nil]
  | cons b more =>
    have refused : isContinuation b = false :=
      Bool.eq_false_iff.mpr fun continues => not_first_of_continuation continues (boundary b rfl)
    have refused' : ∀ first, allowsSecond first b = false := fun first =>
      Bool.eq_false_iff.mpr fun allowed => by
        rw [continuation_of_allowed allowed] at refused
        cases refused
    obtain _ | ⟨first, _ | ⟨second, _ | ⟨third, rest⟩⟩⟩ := bytes
    · exact absurd rfl some
    · change invalidLength (first :: b :: more) = 1
      rw [invalidLength, refused']
      rfl
    · change invalidLength (first :: second :: b :: more) = _
      rw [invalidLength, invalidLength, afterSecond, refused]
      rfl
    · rfl

/-- A failed reading is not helped by the next character. -/
theorem decodeChar?_append (some : bytes ≠ []) (boundary : AtBoundary more) :
    decodeChar? (bytes ++ more) = decodeChar? bytes := by
  cases h : decodeChar? (bytes ++ more) with
  | none =>
    cases h' : decodeChar? bytes with
    | none => rfl
    | some c =>
      obtain ⟨rest, rfl⟩ := encode_of_decodeChar? h'
      rw [List.append_assoc, decodeChar?_encode] at h
      cases h
  | some c =>
    have le := utf8Size_le h some boundary
    obtain ⟨rest, split⟩ := encode_of_decodeChar? h
    have front : String.utf8EncodeChar c = bytes.take c.utf8Size := by
      have taken := congrArg (List.take c.utf8Size) split
      rw [List.take_append_of_le_length le, ← length_encode, List.take_left] at taken
      rw [← length_encode]
      exact taken.symm
    have whole : bytes = String.utf8EncodeChar c ++ bytes.drop c.utf8Size := by
      rw [front, List.take_append_drop]
    rw [whole, decodeChar?_encode]

theorem atBoundary_encode (c : Char) (more : List UInt8) :
    AtBoundary (String.utf8EncodeChar c ++ more) := by
  intro b head
  have inside : 0 < (String.utf8EncodeChar c).length := by
    rw [length_encode]
    exact c.utf8Size_pos
  rw [List.head?_eq_getElem?, List.getElem?_append_left inside, List.getElem?_eq_getElem inside] at head
  cases head
  exact UInt8.isUTF8FirstByte_getElem_zero_utf8EncodeChar

end Characters

/-! ## A whole text -/

section Texts

variable {β : Type} {byte : β → UInt8} {bytes more : List β} {bound : Nat}

theorem decodeFrom_nil (bound : Nat) : decodeFrom byte bound [] = [] := by cases bound <;> rfl

/-- What is taken first. -/
def firstLength (byte : β → UInt8) (bytes : List β) : Nat :=
  match decodeChar? (bytes.map byte) with
  | some c => c.utf8Size
  | none => invalidLength (bytes.map byte)

def firstChar (byte : β → UInt8) (bytes : List β) : Char := (decodeChar? (bytes.map byte)).getD '�'

theorem firstLength_pos (byte : β → UInt8) (bytes : List β) : 0 < firstLength byte bytes := by
  unfold firstLength
  split
  · exact Char.utf8Size_pos _
  · exact (invalidLength_bounds _).1

theorem decodeFrom_succ (some : bytes ≠ []) :
    decodeFrom byte (bound + 1) bytes =
      (firstChar byte bytes, bytes.take (firstLength byte bytes)) ::
        decodeFrom byte bound (bytes.drop (firstLength byte bytes)) := by
  cases bytes with
  | nil => exact absurd rfl some
  | cons b rest =>
    rw [decodeFrom, firstChar, firstLength]
    cases decodeChar? ((b :: rest).map byte) <;> rfl

/-- A larger bound reads no more. -/
theorem decodeFrom_eq (enough : bytes.length ≤ bound) :
    decodeFrom byte bound bytes = decodeLossy byte bytes := by
  induction hn : bytes.length using Nat.strongRecOn generalizing bytes bound with
  | ind n ih =>
    by_cases none : bytes = []
    · rw [none, decodeFrom_nil, decodeLossy, decodeFrom_nil]
    · obtain ⟨bound, rfl⟩ := Nat.exists_eq_succ_of_ne_zero (n := bound) (by
        have := List.length_pos_iff.mpr none
        omega)
      have shorter : (bytes.drop (firstLength byte bytes)).length < bytes.length := by
        have := firstLength_pos byte bytes
        have := List.length_pos_iff.mpr none
        rw [List.length_drop]
        omega
      obtain ⟨l, hl⟩ := Nat.exists_eq_succ_of_ne_zero (n := bytes.length) (by omega)
      rw [decodeLossy, hl, decodeFrom_succ none, decodeFrom_succ none,
        ih _ (by omega) (by omega) rfl, ih _ (by omega) (by omega) rfl]

theorem decodeLossy_cons (some : bytes ≠ []) :
    decodeLossy byte bytes = (firstChar byte bytes, bytes.take (firstLength byte bytes)) ::
      decodeLossy byte (bytes.drop (firstLength byte bytes)) := by
  obtain ⟨l, hl⟩ := Nat.exists_eq_succ_of_ne_zero (n := bytes.length)
    (Nat.pos_iff_ne_zero.mp (List.length_pos_iff.mpr some))
  have := firstLength_pos byte bytes
  rw [decodeLossy, hl, decodeFrom_succ some, decodeFrom_eq]
  rw [List.length_drop]
  omega

/-- The characters come from the bytes, in order, and from all of them. -/
theorem decodeLossy_source (bytes : List β) : (decodeLossy byte bytes).flatMap Prod.snd = bytes := by
  induction hn : bytes.length using Nat.strongRecOn generalizing bytes with
  | ind n ih =>
    by_cases none : bytes = []
    · rw [none]
      rfl
    · have := firstLength_pos byte bytes
      have := List.length_pos_iff.mpr none
      rw [decodeLossy_cons none, List.flatMap_cons, ih _ (by rw [List.length_drop]; omega) _ rfl,
        List.take_append_drop]

theorem fromUtf8Lossy_ne_empty {bytes : List UInt8} (some : bytes ≠ []) : fromUtf8Lossy bytes ≠ "" := by
  intro empty
  have chars := congrArg String.toList empty
  rw [fromUtf8Lossy, String.toList_ofList, decodeLossy_cons some] at chars
  cases chars

/-- Reading stops and begins again where a character begins. -/
theorem decodeLossy_append (boundary : AtBoundary (more.map byte)) :
    decodeLossy byte (bytes ++ more) = decodeLossy byte bytes ++ decodeLossy byte more := by
  induction hn : bytes.length using Nat.strongRecOn generalizing bytes with
  | ind n ih =>
    by_cases none : bytes = []
    · rw [none]
      rfl
    · have some : bytes.map byte ≠ [] := fun h => none (List.map_eq_nil_iff.mp h)
      have first : decodeChar? ((bytes ++ more).map byte) = decodeChar? (bytes.map byte) := by
        rw [List.map_append, decodeChar?_append some boundary]
      have char : firstChar byte (bytes ++ more) = firstChar byte bytes := by
        rw [firstChar, first, firstChar]
      have length : firstLength byte (bytes ++ more) = firstLength byte bytes ∧
          firstLength byte bytes ≤ bytes.length := by
        unfold firstLength
        rw [first]
        cases found : decodeChar? (bytes.map byte) with
        | some c =>
          refine ⟨rfl, ?_⟩
          rw [List.map_append, found] at first
          have le := utf8Size_le first some boundary
          rwa [List.length_map] at le
        | none =>
          have same := invalidLength_append some boundary
          have le := (invalidLength_bounds (bytes.map byte)).2 some
          rw [← List.map_append] at same
          rw [List.length_map] at le
          exact ⟨same, le⟩
      have := firstLength_pos byte bytes
      have := List.length_pos_iff.mpr none
      rw [decodeLossy_cons (by simp [none]), decodeLossy_cons none, char, length.1,
        List.take_append_of_le_length length.2, List.drop_append_of_le_length length.2,
        ih _ (by rw [List.length_drop]; omega) rfl, List.cons_append]

/-- Valid text reads as itself. -/
theorem decodeLossy_text (text : List Char) (encoded : bytes.map byte = encode text) :
    ∃ parts, decodeLossy byte (bytes ++ more) = parts ++ decodeLossy byte more ∧
      parts.map Prod.fst = text ∧ parts.flatMap Prod.snd = bytes := by
  induction text generalizing bytes with
  | nil =>
    rw [encode, List.flatMap_nil, List.map_eq_nil_iff] at encoded
    rw [encoded]
    exact ⟨[], rfl, rfl, rfl⟩
  | cons c text ih =>
    rw [encode, List.flatMap_cons] at encoded
    obtain ⟨front, rest, rfl, hfront, hrest⟩ := List.map_eq_append_iff.mp encoded
    obtain ⟨parts, read, chars, sources⟩ := ih hrest
    have width : front.length = c.utf8Size := by
      rw [← length_encode, ← hfront, List.length_map]
    have first : decodeChar? ((front ++ (rest ++ more)).map byte) = some c := by
      rw [List.map_append, hfront, decodeChar?_encode]
    have some : front ++ (rest ++ more) ≠ [] := by
      have := c.utf8Size_pos
      intro none
      rw [(List.append_eq_nil_iff.mp none).1] at width
      rw [← width] at this
      cases this
    refine ⟨(c, front) :: parts, ?_, by rw [List.map_cons, chars], by
      rw [List.flatMap_cons, sources]⟩
    rw [List.append_assoc, decodeLossy_cons some, firstChar, firstLength, first]
    dsimp only
    rw [← width, List.take_left, List.drop_left, read]
    rfl

/-- **Valid text reads as itself**, whatever the bytes around it. -/
theorem decodeLossy_around {c : Char} {text : List Char} {before occurrence after : List β}
    (encoded : occurrence.map byte = encode (c :: text)) :
    ∃ parts, decodeLossy byte (before ++ occurrence ++ after) =
        decodeLossy byte before ++ parts ++ decodeLossy byte after ∧
      parts.map Prod.fst = c :: text ∧ parts.flatMap Prod.snd = occurrence := by
  obtain ⟨parts, read, chars, sources⟩ := decodeLossy_text (c :: text) encoded
  refine ⟨parts, ?_, chars, sources⟩
  have boundary : AtBoundary ((occurrence ++ after).map byte) := by
    rw [List.map_append, encoded, encode, List.flatMap_cons, List.append_assoc]
    exact atBoundary_encode c _
  rw [List.append_assoc, decodeLossy_append boundary, read, List.append_assoc]

end Texts

end RoLauncher.Text
