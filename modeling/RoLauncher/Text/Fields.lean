import Mathlib.Data.List.Basic

/-!
# Fields joined by a separator

Texts joined by a letter that none of them holds are read back from the joined
text.
-/

namespace RoLauncher.Text

/-- The letter does not occur in the text. -/
def Without (sep : Char) (text : String) : Prop := sep ∉ text.toList

instance (sep : Char) (text : String) : Decidable (Without sep text) :=
  inferInstanceAs (Decidable (sep ∉ text.toList))

namespace Without

variable {sep : Char} {first second : String}

theorem append (left : Without sep first) (right : Without sep second) :
    Without sep (first ++ second) := by
  intro occurs
  rw [String.toList_append, List.mem_append] at occurs
  cases occurs with
  | inl before => exact left before
  | inr after => exact right after

theorem empty : Without sep "" := by
  intro occurs
  cases occurs

/-- Numbers are written in digits. -/
theorem nat (n : Nat) (letter : sep.isDigit = false) : Without sep (toString n) := by
  intro occurs
  have digit : sep.isDigit = true := by
    apply Nat.isDigit_of_mem_toDigits (b := 10) (n := n) (by decide) (by decide)
    rw [← Nat.toList_repr]
    exact occurs
  rw [letter] at digit
  cases digit

end Without

theorem toString_nat_inj {m n : Nat} (same : toString m = toString n) : m = n := by
  have digits : Nat.toDigits 10 m = Nat.toDigits 10 n := by
    rw [← Nat.toList_repr, ← Nat.toList_repr]
    exact congrArg String.toList same
  rw [← Nat.ofDigitChars_toDigits (b := 10) (n := m) (by decide) (by decide), digits,
    Nat.ofDigitChars_toDigits (by decide) (by decide)]

theorem toString_bool_inj {b c : Bool} (same : toString b = toString c) : b = c := by
  cases b <;> cases c <;> first | rfl | exact absurd same (by decide)

/-- Joining loses nothing where the separator is in none of the fields. -/
theorem intercalate_inj {sep : Char} {fields others : List String}
    (plain : ∀ t ∈ fields, Without sep t) (plain' : ∀ t ∈ others, Without sep t)
    (some : fields ≠ []) (some' : others ≠ [])
    (same : (String.singleton sep).intercalate fields
      = (String.singleton sep).intercalate others) : fields = others := by
  have joined : [sep].intercalate (fields.map String.toList)
      = [sep].intercalate (others.map String.toList) := by
    have lists := congrArg String.toList same
    rw [String.toList_intercalate, String.toList_intercalate, String.toList_singleton] at lists
    exact lists
  have split {texts : List String} (plain : ∀ t ∈ texts, Without sep t) (some : texts ≠ []) :
      ([sep].intercalate (texts.map String.toList)).splitOn sep = texts.map String.toList := by
    apply List.splitOn_intercalate
    · intro l mem
      obtain ⟨t, listed, rfl⟩ := List.mem_map.mp mem
      exact plain t listed
    · exact fun none => some (List.map_eq_nil_iff.mp none)
  apply List.map_injective_iff.mpr (fun _ _ => String.toList_injective)
  rw [← split plain some, ← split plain' some', joined]

end RoLauncher.Text
