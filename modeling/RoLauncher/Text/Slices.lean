import Mathlib.Algebra.Ring.Nat
import RoLauncher.Text.Template

/-!
# Slices of a text by bytes

A string of UTF-8 is sliced by the offsets of its bytes. An offset that is
inside a character, or beyond the end, cannot be sliced at: the slice is none.
What a search finds is an offset in bytes too, and both ends of what it found
can be sliced at (`find_split`).
-/

namespace RoLauncher.Text

def byteLength (text : List Char) : Nat := (text.map Char.utf8Size).sum

/-- `&text[offset..]` -/
def sliceFrom : List Char → Nat → Option (List Char)
  | text, 0 => some text
  | [], _ + 1 => none
  | c :: rest, n + 1 => if c.utf8Size ≤ n + 1 then sliceFrom rest (n + 1 - c.utf8Size) else none

/-- `&text[..offset]` -/
def sliceTo : List Char → Nat → Option (List Char)
  | _, 0 => some []
  | [], _ + 1 => none
  | c :: rest, n + 1 =>
    if c.utf8Size ≤ n + 1 then (sliceTo rest (n + 1 - c.utf8Size)).map (c :: ·) else none

/-- `&text[start..stop]` -/
def slice (text : List Char) (start stop : Nat) : Option (List Char) :=
  if start ≤ stop then (sliceFrom text start).bind fun rest => sliceTo rest (stop - start) else none

/-- `text.find(pattern)`: an offset in bytes. -/
def byteFind (pattern text : List Char) : Option Nat :=
  (find pattern text).map fun i => byteLength (text.take i)

section Slices

variable {before middle after : List Char}

theorem byteLength_append (first second : List Char) :
    byteLength (first ++ second) = byteLength first + byteLength second := by
  rw [byteLength, List.map_append, List.sum_append]
  rfl

theorem byteLength_cons (c : Char) (rest : List Char) :
    byteLength (c :: rest) = c.utf8Size + byteLength rest := rfl

/-- Between two characters a text can be sliced. -/
theorem sliceFrom_append : sliceFrom (before ++ after) (byteLength before) = some after := by
  induction before with
  | nil => rw [List.nil_append, byteLength, List.map_nil, List.sum_nil, sliceFrom]
  | cons c before ih =>
    obtain ⟨n, size⟩ := Nat.exists_eq_succ_of_ne_zero (Nat.ne_of_gt c.utf8Size_pos)
    have length : byteLength (c :: before) = n + byteLength before + 1 := by
      rw [byteLength_cons, size]
      omega
    rw [List.cons_append, length, sliceFrom, if_pos (by omega)]
    have rest : n + byteLength before + 1 - c.utf8Size = byteLength before := by omega
    rw [rest, ih]

theorem sliceTo_append : sliceTo (before ++ after) (byteLength before) = some before := by
  induction before with
  | nil => rw [List.nil_append, byteLength, List.map_nil, List.sum_nil, sliceTo]
  | cons c before ih =>
    obtain ⟨n, size⟩ := Nat.exists_eq_succ_of_ne_zero (Nat.ne_of_gt c.utf8Size_pos)
    have length : byteLength (c :: before) = n + byteLength before + 1 := by
      rw [byteLength_cons, size]
      omega
    rw [List.cons_append, length, sliceTo, if_pos (by omega)]
    have rest : n + byteLength before + 1 - c.utf8Size = byteLength before := by omega
    rw [rest, ih]
    rfl

theorem slice_append :
    slice (before ++ (middle ++ after)) (byteLength before)
      (byteLength before + byteLength middle) = some middle := by
  rw [slice, if_pos (Nat.le_add_right _ _), sliceFrom_append, Option.bind_some,
    Nat.add_sub_cancel_left, sliceTo_append]

end Slices

end RoLauncher.Text
