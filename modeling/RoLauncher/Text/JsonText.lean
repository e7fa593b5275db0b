import Mathlib.Algebra.Ring.Nat
import RoLauncher.Text.Lossy

/-!
# JSON as it is written

Strings, arrays and objects without any space between their parts. Control
characters are escaped, so what is written is one line (`Printed`); how long it
is in bytes is said part by part.
-/

namespace RoLauncher.Text.Json

/-- How a character stands inside quotes. -/
def escapeChar (c : Char) : List Char :=
  if c.toNat = 0x22 then "\\\"".toList
  else if c.toNat = 0x5c then "\\\\".toList
  else if c.toNat = 0x08 then "\\b".toList
  else if c.toNat = 0x09 then "\\t".toList
  else if c.toNat = 0x0a then "\\n".toList
  else if c.toNat = 0x0c then "\\f".toList
  else if c.toNat = 0x0d then "\\r".toList
  else if c.toNat < 0x20 then
    "\\u00".toList ++ [(c.toNat / 16).digitChar, (c.toNat % 16).digitChar]
  else [c]

def escape (text : String) : String := String.ofList (text.toList.flatMap escapeChar)

def quote (text : String) : String := "\"" ++ escape text ++ "\""

/-- Parts with commas between them. -/
def commas : List String → String
  | [] => ""
  | [part] => part
  | part :: parts => part ++ "," ++ commas parts

def array (items : List String) : String := "[" ++ commas items ++ "]"

def member (field : String × String) : String := quote field.1 ++ ":" ++ field.2

def object (fields : List (String × String)) : String := "\x7b" ++ commas (fields.map member) ++ "\x7d"

def nullable {α : Type} (write : α → String) : Option α → String
  | none => "null"
  | some a => write a

/-! ## One line -/

/-- Without control characters. -/
def Printed (text : String) : Prop := ∀ c ∈ text.toList, 0x20 ≤ c.toNat

instance (text : String) : Decidable (Printed text) :=
  List.decidableBAll (fun c : Char => 0x20 ≤ c.toNat) text.toList

theorem printed_append {first second : String} (left : Printed first) (right : Printed second) :
    Printed (first ++ second) := by
  intro c mem
  rw [String.toList_append] at mem
  rcases List.mem_append.mp mem with mem | mem
  · exact left c mem
  · exact right c mem

theorem digitChar_printed {n : Nat} (small : n < 16) : 0x20 ≤ n.digitChar.toNat := by
  revert n
  decide

theorem escapeChar_printed (c : Char) : ∀ d ∈ escapeChar c, 0x20 ≤ d.toNat := by
  have short : ∀ text ∈ ["\\\"", "\\\\", "\\b", "\\t", "\\n", "\\f", "\\r", "\\u00"],
      Printed text := by decide
  unfold escapeChar
  intro d mem
  split at mem
  next => exact short _ (by simp) d mem
  split at mem
  next => exact short _ (by simp) d mem
  split at mem
  next => exact short _ (by simp) d mem
  split at mem
  next => exact short _ (by simp) d mem
  split at mem
  next => exact short _ (by simp) d mem
  split at mem
  next => exact short _ (by simp) d mem
  split at mem
  next => exact short _ (by simp) d mem
  split at mem
  next control =>
    rcases List.mem_append.mp mem with mem | mem
    · exact short _ (by simp) d mem
    · simp only [List.mem_cons, List.not_mem_nil, or_false] at mem
      rcases mem with rfl | rfl
      · exact digitChar_printed (by omega)
      · exact digitChar_printed (by omega)
  next plain =>
    rw [List.mem_singleton.mp mem]
    omega

theorem escape_printed (text : String) : Printed (escape text) := by
  intro c mem
  rw [escape, String.toList_ofList] at mem
  obtain ⟨d, -, mem⟩ := List.mem_flatMap.mp mem
  exact escapeChar_printed d c mem

theorem quote_printed (text : String) : Printed (quote text) := by
  have mark : Printed "\"" := by decide
  exact printed_append (printed_append mark (escape_printed text)) mark

theorem commas_printed {parts : List String} (printed : ∀ part ∈ parts, Printed part) :
    Printed (commas parts) := by
  have comma : Printed "," := by decide
  fun_induction commas parts with
  | case1 => decide
  | case2 part => exact printed part List.mem_cons_self
  | case3 part parts nonempty ih =>
    apply printed_append (printed_append (printed part List.mem_cons_self) comma)
    apply ih
    intro later mem
    exact printed later (List.mem_cons_of_mem _ mem)

theorem array_printed {items : List String} (printed : ∀ item ∈ items, Printed item) :
    Printed (array items) := by
  have first : Printed "[" := by decide
  have last : Printed "]" := by decide
  exact printed_append (printed_append first (commas_printed printed)) last

theorem object_printed {fields : List (String × String)}
    (printed : ∀ field ∈ fields, Printed field.2) : Printed (object fields) := by
  have first : Printed "\x7b" := by decide
  have last : Printed "\x7d" := by decide
  have colon : Printed ":" := by decide
  apply printed_append (printed_append first (commas_printed _)) last
  intro part mem
  obtain ⟨field, inFields, rfl⟩ := List.mem_map.mp mem
  exact printed_append (printed_append (quote_printed _) colon) (printed field inFields)

theorem repr_printed (n : Nat) : Printed n.repr := by
  intro c mem
  rw [Nat.toList_repr] at mem
  have digit := Nat.isDigit_of_mem_toDigits (by decide) (by decide) mem
  simp only [Char.isDigit, Bool.and_eq_true, decide_eq_true_eq] at digit
  have low := UInt32.le_iff_toNat_le.mp digit.1
  exact Nat.le_trans (by decide) low

theorem int_printed (n : Int) : Printed (toString n) := by
  have minus : Printed "-" := by decide
  cases n with
  | ofNat n => exact repr_printed n
  | negSucc n => exact printed_append minus (repr_printed _)

/-- No byte of a character that is printed is a control character. -/
theorem utf8EncodeChar_printed {c : Char} (printed : 0x20 ≤ c.toNat) :
    ∀ byte ∈ String.utf8EncodeChar c, 0x20 ≤ byte.toNat := by
  have printed : 0x20 ≤ c.val.toNat := printed
  unfold String.utf8EncodeChar
  dsimp only
  intro byte mem
  split at mem
  next ascii =>
    rw [List.mem_singleton.mp mem, UInt8.toNat_ofNat']
    omega
  next =>
    split at mem
    next => 
      simp only [List.mem_cons, List.not_mem_nil, or_false] at mem
      rcases mem with rfl | rfl
      all_goals
        rw [UInt8.toNat_ofNat']
        omega
    next =>
      split at mem
      all_goals
        simp only [List.mem_cons, List.not_mem_nil, or_false] at mem
        rcases mem with rfl | rfl | rfl | rfl
        all_goals
          rw [UInt8.toNat_ofNat']
          omega

theorem newline_not_mem_encode {text : String} (printed : Printed text) :
    10 ∉ encode text.toList := by
  intro mem
  obtain ⟨c, inText, mem⟩ := List.mem_flatMap.mp mem
  have large := utf8EncodeChar_printed (printed c inText) 10 mem
  exact absurd large (by decide)

/-! ## In bytes -/

theorem escape_append (first second : String) :
    escape (first ++ second) = escape first ++ escape second := by
  rw [escape, String.toList_append, List.flatMap_append, String.ofList_append]
  rfl

@[simp] theorem size_quote (text : String) :
    (quote text).utf8ByteSize = (escape text).utf8ByteSize + 2 := by
  have mark : "\"".utf8ByteSize = 1 := rfl
  rw [quote, String.utf8ByteSize_append, String.utf8ByteSize_append, mark]
  omega

theorem size_member (field : String × String) :
    (member field).utf8ByteSize = (escape field.1).utf8ByteSize + field.2.utf8ByteSize + 3 := by
  have colon : ":".utf8ByteSize = 1 := rfl
  rw [member, String.utf8ByteSize_append, String.utf8ByteSize_append, size_quote, colon]
  omega

theorem size_commas {parts : List String} (some : parts ≠ []) :
    (commas parts).utf8ByteSize + 1 = (parts.map fun part => part.utf8ByteSize + 1).sum := by
  have comma : ",".utf8ByteSize = 1 := rfl
  fun_induction commas parts with
  | case1 => exact absurd rfl some
  | case2 part => simp
  | case3 part parts nonempty ih =>
    rw [String.utf8ByteSize_append, String.utf8ByteSize_append, comma, List.map_cons,
      List.sum_cons, ← ih nonempty]
    omega

/-- An object is as long as its members, four marks for each, and one more. -/
theorem size_object {fields : List (String × String)} (some : fields ≠ []) :
    (object fields).utf8ByteSize =
      (fields.map fun field => (escape field.1).utf8ByteSize + field.2.utf8ByteSize + 4).sum + 1 := by
  have first : "\x7b".utf8ByteSize = 1 := rfl
  have last : "\x7d".utf8ByteSize = 1 := rfl
  have parts : fields.map member ≠ [] := by simpa using some
  have inner := size_commas parts
  simp only [List.map_map, Function.comp_def, size_member] at inner
  rw [object, String.utf8ByteSize_append, String.utf8ByteSize_append, first, last, ← inner]
  omega

theorem size_part_le {parts : List String} {part : String} (mem : part ∈ parts) :
    part.utf8ByteSize ≤ (commas parts).utf8ByteSize := by
  fun_induction commas parts with
  | case1 => cases mem
  | case2 only =>
    rw [List.mem_singleton.mp mem]
  | case3 first parts nonempty ih =>
    rw [String.utf8ByteSize_append, String.utf8ByteSize_append]
    rcases List.mem_cons.mp mem with rfl | later
    · omega
    · have := ih later
      omega

/-- An array is longer than each of its items. -/
theorem size_item_le {items : List String} {item : String} (mem : item ∈ items) :
    item.utf8ByteSize + 2 ≤ (array items).utf8ByteSize := by
  have first : "[".utf8ByteSize = 1 := rfl
  have last : "]".utf8ByteSize = 1 := rfl
  have part := size_part_le mem
  rw [array, String.utf8ByteSize_append, String.utf8ByteSize_append, first, last]
  omega

theorem size_array_ge (items : List String) : 2 ≤ (array items).utf8ByteSize := by
  have first : "[".utf8ByteSize = 1 := rfl
  have last : "]".utf8ByteSize = 1 := rfl
  rw [array, String.utf8ByteSize_append, String.utf8ByteSize_append, first, last]
  omega

theorem size_of_ascii {chars : List Char} (ascii : ∀ c ∈ chars, c.toNat < 128) :
    (String.ofList chars).utf8ByteSize = chars.length := by
  rw [utf8ByteSize_eq, String.toList_ofList]
  induction chars with
  | nil => rfl
  | cons c chars ih =>
    have one : c.utf8Size = 1 := by
      rw [Char.utf8Size_eq_one_iff, UInt32.le_iff_toNat_le]
      exact Nat.le_of_lt_succ (ascii c List.mem_cons_self)
    rw [encode, List.flatMap_cons, List.length_append, length_encode, one, List.length_cons,
      Nat.add_comm]
    exact congrArg (· + 1) (ih fun d mem => ascii d (List.mem_cons_of_mem _ mem))

/-- A number has no more digits than its bound allows. -/
theorem size_repr_le {n digits : Nat} (some : 0 < digits) (bound : n < 10 ^ digits) :
    n.repr.utf8ByteSize ≤ digits := by
  rw [Nat.repr_eq_ofList_toDigits, size_of_ascii]
  · exact (Nat.length_toDigits_le_iff (by decide) some).mpr bound
  · intro c mem
    have digit := Nat.isDigit_of_mem_toDigits (by decide) (by decide) mem
    simp only [Char.isDigit, Bool.and_eq_true, decide_eq_true_eq] at digit
    have high := UInt32.le_iff_toNat_le.mp digit.2
    exact Nat.lt_of_le_of_lt high (by decide)

theorem size_int_le {n : Int} {digits : Nat} (some : 0 < digits) (bound : n.natAbs < 10 ^ digits) :
    (toString n).utf8ByteSize ≤ digits + 1 := by
  have minus : "-".utf8ByteSize = 1 := rfl
  cases n with
  | ofNat n => exact Nat.le_succ_of_le (size_repr_le some bound)
  | negSucc n =>
    have short : (n + 1).repr.utf8ByteSize ≤ digits := size_repr_le some bound
    have written : toString (Int.negSucc n) = "-" ++ (n + 1).repr := rfl
    rw [written, String.utf8ByteSize_append, minus]
    omega

/-- The size of an escaped text, when the text is given by its characters. -/
theorem size_escape_ofList (chars : List Char) : (escape (String.ofList chars)).utf8ByteSize =
    ((chars.flatMap escapeChar).map Char.utf8Size).sum := by
  rw [escape, String.toList_ofList, utf8ByteSize_eq, String.toList_ofList]
  induction chars.flatMap escapeChar with
  | nil => rfl
  | cons c rest ih =>
    rw [encode, List.flatMap_cons, List.length_append, length_encode, List.map_cons, List.sum_cons]
    exact congrArg (c.utf8Size + ·) ih

theorem size_escape_le {chars : List Char} {bound : Nat}
    (small : ((chars.flatMap escapeChar).map Char.utf8Size).sum ≤ bound) :
    (escape (String.ofList chars)).utf8ByteSize ≤ bound := by
  rw [size_escape_ofList]
  exact small

theorem escapeChar_plain {c : Char} (printed : 0x20 ≤ c.toNat) (noQuote : c.toNat ≠ 0x22)
    (noBackslash : c.toNat ≠ 0x5c) : escapeChar c = [c] := by
  unfold escapeChar
  rw [if_neg noQuote, if_neg noBackslash, if_neg (by omega), if_neg (by omega), if_neg (by omega),
    if_neg (by omega), if_neg (by omega), if_neg (by omega)]

/-- Plain characters stand as they are. -/
theorem escape_plain {chars : List Char} (plain : ∀ c ∈ chars, escapeChar c = [c]) :
    escape (String.ofList chars) = String.ofList chars := by
  rw [escape, String.toList_ofList]
  apply congrArg
  induction chars with
  | nil => rfl
  | cons c chars ih =>
    rw [List.flatMap_cons, plain c List.mem_cons_self,
      ih fun d mem => plain d (List.mem_cons_of_mem _ mem)]
    rfl

theorem escape_repr (n : Nat) : escape n.repr = n.repr := by
  rw [Nat.repr_eq_ofList_toDigits]
  apply escape_plain
  intro c mem
  have digit := Nat.isDigit_of_mem_toDigits (by decide) (by decide) mem
  simp only [Char.isDigit, Bool.and_eq_true, decide_eq_true_eq] at digit
  have low : 48 ≤ c.toNat := UInt32.le_iff_toNat_le.mp digit.1
  have high : c.toNat ≤ 57 := UInt32.le_iff_toNat_le.mp digit.2
  exact escapeChar_plain (by omega) (by omega) (by omega)

end RoLauncher.Text.Json
