import Mathlib.Algebra.Group.Nat.Defs
import Mathlib.Data.List.Nodup

/-!
# Bytes of numbers and strings

Big-endian numbers of a fixed width, little-endian numbers that are read, and the UTF-8
bytes of a string, and what an encoding needs of them: that a number fills its
width, that different small numbers have different bytes, and that different
strings have different bytes.
-/

namespace RoLauncher.Runtime

/-- `to_be_bytes` of the lowest `width` bytes. -/
def beBytes : Nat → Nat → List UInt8
  | 0, _ => []
  | width + 1, n => beBytes width (n / 256) ++ [UInt8.ofNat n]

@[simp] theorem length_beBytes (width n : Nat) : (beBytes width n).length = width := by
  induction width generalizing n with
  | zero => rfl
  | succ width ih => rw [beBytes, List.length_append, ih]; rfl

/-- Numbers below `256 ^ width` are told apart by their bytes. -/
theorem beBytes_injective {width m n : Nat} (hm : m < 256 ^ width) (hn : n < 256 ^ width)
    (h : beBytes width m = beBytes width n) : m = n := by
  induction width generalizing m n with
  | zero =>
    rw [Nat.pow_zero] at hm hn
    omega
  | succ width ih =>
    rw [beBytes, beBytes] at h
    obtain ⟨high, low⟩ := List.append_inj h (by rw [length_beBytes, length_beBytes])
    rw [Nat.pow_succ] at hm hn
    have quotient := ih (Nat.div_lt_of_lt_mul (by rwa [Nat.mul_comm])) (Nat.div_lt_of_lt_mul
      (by rwa [Nat.mul_comm])) high
    have remainder : m % 256 = n % 256 := by
      have := congrArg UInt8.toNat (List.cons.inj low).1
      simpa using this
    omega

/-- `from_le_bytes`. -/
def fromLeBytes : List UInt8 → Nat
  | [] => 0
  | byte :: bytes => byte.toNat + 256 * fromLeBytes bytes

theorem fromLeBytes_injective {first second : List UInt8} (length : first.length = second.length)
    (same : fromLeBytes first = fromLeBytes second) : first = second := by
  induction first generalizing second with
  | nil => rw [List.eq_nil_of_length_eq_zero length.symm]
  | cons b first ih =>
    cases second with
    | nil => cases length
    | cons c second =>
      have low := b.toNat_lt
      have low' := c.toNat_lt
      simp only [fromLeBytes] at same
      rw [ih (Nat.succ.inj length) (by omega), UInt8.toNat_inj.mp (by omega : b.toNat = c.toNat)]

/-- `as_bytes`. -/
def utf8 (text : String) : List UInt8 := text.toUTF8.data.toList

theorem utf8_injective {s t : String} (h : utf8 s = utf8 t) : s = t := by
  have arrays : s.toUTF8 = t.toUTF8 := ByteArray.ext (Array.toList_inj.mp h)
  exact String.toByteArray_inj.mp arrays

/-! ## Sequences of codes -/

/-- What follows a code of fixed length is determined with it. -/
theorem append_cancel {α : Type} {s t u v : List α} (h : s ++ u = t ++ v)
    (length : s.length = t.length) : s = t ∧ u = v := List.append_inj h length

end RoLauncher.Runtime
