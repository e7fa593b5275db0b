import RoLauncher.Text.Template

/-!
# Patterns with stars

A star stands for any text, every other letter for itself (`Glob`). A pattern is
its pieces between the stars: the first is where the text begins, the last where
it ends, and each of the others is somewhere after the one before. It does no
harm to take each at the first place where it occurs (`afterStar_find`).
-/

namespace RoLauncher.Text

variable {κ : Type}

/-- What a pattern with stars stands for. -/
inductive Glob (star : κ) : List κ → List κ → Prop
  | nil : Glob star [] []
  | letter {k : κ} {pattern text : List κ} (plain : k ≠ star) (rest : Glob star pattern text) :
      Glob star (k :: pattern) (k :: text)
  | star {pattern text : List κ} (any : List κ) (rest : Glob star pattern text) :
      Glob star (star :: pattern) (any ++ text)

/-- A text of these pieces, with any texts between them. -/
def Pieces : List (List κ) → List κ → Prop
  | [], _ => False
  | [piece], text => text = piece
  | piece :: next :: pieces, text =>
    ∃ any rest, text = piece ++ (any ++ rest) ∧ Pieces (next :: pieces) rest

/-- Such a text, after any other. -/
def AfterStar (pieces : List (List κ)) (text : List κ) : Prop :=
  ∃ any rest, text = any ++ rest ∧ Pieces pieces rest

section Pieces

variable {piece next text : List κ} {pieces : List (List κ)}

theorem pieces_cons : Pieces (piece :: next :: pieces) text ↔
    ∃ rest, text = piece ++ rest ∧ AfterStar (next :: pieces) rest := by
  constructor
  · rintro ⟨any, rest, same, matched⟩
    exact ⟨any ++ rest, same, any, rest, rfl, matched⟩
  · rintro ⟨whole, same, any, rest, rfl, matched⟩
    exact ⟨any, rest, same, matched⟩

/-- One letter more in front. -/
theorem pieces_letter {k : κ} : Pieces ((k :: piece) :: pieces) (k :: text) ↔
    Pieces (piece :: pieces) text := by
  cases pieces with
  | nil => simp [Pieces]
  | cons next pieces => simp [Pieces]

theorem pieces_head {k : κ} (matched : Pieces ((k :: piece) :: pieces) text) :
    ∃ rest, text = k :: rest := by
  cases pieces with
  | nil => exact ⟨piece, matched⟩
  | cons next pieces =>
    obtain ⟨any, rest, same, -⟩ := matched
    exact ⟨_, same⟩

theorem afterStar_of_suffix {whole : List κ} (matched : AfterStar pieces text)
    (suffix : text <:+ whole) : AfterStar pieces whole := by
  obtain ⟨any, rest, rfl, matched⟩ := matched
  obtain ⟨before, rfl⟩ := suffix
  exact ⟨before ++ any, rest, (List.append_assoc _ _ _).symm, matched⟩

theorem afterStar_last : AfterStar [piece] text ↔ piece <:+ text := by
  constructor
  · rintro ⟨any, rest, rfl, rfl⟩
    exact List.suffix_append _ _
  · rintro ⟨any, rfl⟩
    exact ⟨any, piece, rfl, rfl⟩

theorem afterStar_cons : AfterStar (piece :: next :: pieces) text ↔
    ∃ before after, text = before ++ piece ++ after ∧ AfterStar (next :: pieces) after := by
  constructor
  · rintro ⟨any, rest, rfl, matched⟩
    obtain ⟨after, rfl, matched'⟩ := pieces_cons.mp matched
    exact ⟨any, after, (List.append_assoc _ _ _).symm, matched'⟩
  · rintro ⟨before, after, rfl, matched⟩
    exact ⟨before, piece ++ after, List.append_assoc _ _ _, pieces_cons.mpr ⟨after, rfl, matched⟩⟩

/-- Two stars are as good as one. -/
theorem afterStar_nil_cons : AfterStar ([] :: next :: pieces) text ↔
    AfterStar (next :: pieces) text := by
  rw [afterStar_cons]
  constructor
  · rintro ⟨before, after, rfl, matched⟩
    exact afterStar_of_suffix matched (List.suffix_append _ _)
  · intro matched
    exact ⟨[], text, rfl, matched⟩

variable [DecidableEq κ]

/-- A piece may be taken where it first occurs: what is left then has every other choice in it. -/
theorem afterStar_find : AfterStar (piece :: next :: pieces) text ↔
    ∃ i, find piece text = some i ∧ AfterStar (next :: pieces) (text.drop (i + piece.length)) := by
  rw [afterStar_cons]
  cases found : find piece text with
  | none =>
    constructor
    · rintro ⟨before, after, rfl, -⟩
      exact absurd ⟨before, after, rfl⟩ (find_none found)
    · rintro ⟨i, never, -⟩
      cases never
  | some i =>
    obtain ⟨first, left, rfl, rfl, earliest⟩ := find_some found
    have drop : (first ++ piece ++ left).drop (first.length + piece.length) = left := by
      rw [← List.length_append, List.drop_left]
    constructor
    · rintro ⟨before, after, same, matched⟩
      refine ⟨_, rfl, ?_⟩
      rw [drop]
      apply afterStar_of_suffix matched
      rw [List.append_assoc, List.append_assoc] at same
      rcases List.append_eq_append_iff.mp same with ⟨more, same', rest⟩ | ⟨more, same', rest⟩
      · -- The other choice is later, so what follows it is the end of what is left.
        have longer : after.length ≤ left.length := by
          have := congrArg List.length rest
          simp only [List.length_append] at this
          omega
        have inLeft : left <:+ piece ++ left := List.suffix_append _ _
        have inAfter : after <:+ piece ++ left := by
          rw [rest]
          exact (List.suffix_append _ _).trans (List.suffix_append _ _)
        exact List.suffix_of_suffix_length_le inAfter inLeft longer
      · -- No other choice is earlier.
        by_cases none : more = []
        · rw [none, List.nil_append] at rest
          rw [List.append_cancel_left rest]
        · exfalso
          apply earliest more none (same' ▸ List.suffix_append _ _)
          rw [List.append_assoc, ← rest]
          exact List.prefix_append _ _
    · rintro ⟨_, same, matched⟩
      cases same
      rw [drop] at matched
      exact ⟨first, left, rfl, matched⟩

end Pieces

/-! ## A pattern is its pieces -/

theorem glob_iff_pieces [DecidableEq κ] {star : κ} {pattern text : List κ} :
    Glob star pattern text ↔ Pieces (pattern.splitOn star) text := by
  induction pattern generalizing text with
  | nil =>
    rw [List.splitOn_nil]
    constructor
    · intro matched
      cases matched
      rfl
    · intro same
      cases same
      exact .nil
  | cons k pattern ih =>
    obtain ⟨piece, pieces, split⟩ := List.exists_cons_of_ne_nil (List.splitOn_ne_nil star pattern)
    rw [List.splitOn_cons_eq_if_modifyHead, split]
    rw [split] at ih
    by_cases plain : k = star
    · rw [if_pos (beq_iff_eq.mpr plain), pieces_cons, plain]
      constructor
      · intro matched
        cases matched with
        | letter other => exact absurd rfl other
        | star any rest => exact ⟨_, rfl, any, _, rfl, ih.mp rest⟩
      · rintro ⟨_, rfl, any, rest, rfl, matched⟩
        exact .star any (ih.mpr matched)
    · rw [if_neg (by simpa using plain), List.modifyHead_cons]
      constructor
      · intro matched
        cases matched with
        | letter _ rest => exact pieces_letter.mpr (ih.mp rest)
        | star => exact absurd rfl plain
      · intro matched
        obtain ⟨rest, rfl⟩ := pieces_head matched
        exact .letter plain (ih.mpr (pieces_letter.mp matched))

end RoLauncher.Text
