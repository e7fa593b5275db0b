import Mathlib.Order.Basic

/-!
# ASCII case
-/

namespace RoLauncher.Text

/-- `str::to_ascii_lowercase`. -/
def toAsciiLowercase (text : String) : String := String.ofList (text.toList.map Char.toLower)

theorem toLower_idem (c : Char) : c.toLower.toLower = c.toLower := by
  unfold Char.toLower
  split
  next upper =>
    rw [dif_neg]
    grind
  next => rfl

theorem toUpper_idem (c : Char) : c.toUpper.toUpper = c.toUpper := by
  unfold Char.toUpper
  split
  next =>
    rw [dif_neg]
    grind
  next => rfl

theorem toNat_toUpper (c : Char) :
    c.toUpper.toNat = if 97 ≤ c.toNat ∧ c.toNat ≤ 122 then c.toNat - 32 else c.toNat := by
  unfold Char.toUpper
  split
  next lower =>
    have range : 97 ≤ c.toNat ∧ c.toNat ≤ 122 := lower
    have val : 97 ≤ c.val.toNat ∧ c.val.toNat ≤ 122 := range
    have distance : ('A'.val - 'a'.val).toNat = 2 ^ 32 - 32 := rfl
    rw [if_pos range]
    change (c.val + ('A'.val - 'a'.val)).toNat = c.val.toNat - 32
    rw [UInt32.toNat_add, distance]
    omega
  next other =>
    have range : ¬ (97 ≤ c.toNat ∧ c.toNat ≤ 122) := other
    rw [if_neg range]

@[simp] theorem toAsciiLowercase_idem (text : String) :
    toAsciiLowercase (toAsciiLowercase text) = toAsciiLowercase text := by
  simp [toAsciiLowercase, Function.comp_def, toLower_idem]

end RoLauncher.Text
