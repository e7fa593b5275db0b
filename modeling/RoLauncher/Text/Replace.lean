import Mathlib.Data.List.Infix

/-!
# Replacing patterns in a text

A text is a list of anything that has a letter: characters, or characters that
also know where they come from. `replace` is the usual one: from the left, matches that do not
overlap, and what was put in their place is not looked at again. A sequence of
patterns is replaced one after the other, so a later pattern does look at it.

`Piece` remembers what a replacement took away. Where a pattern cannot touch
the mask (`Foreign`), replacing it in the rendered pieces hides pieces and does
nothing else (`replace_render`), and what is hidden where can be said in terms
of the source alone.
-/

namespace RoLauncher.Text

variable {α κ : Type}

section Replace

variable [DecidableEq κ] (letter : α → κ) (pattern : List κ) (mask : List α)

def startsWith (text : List α) : Bool := pattern.isPrefixOf (text.map letter)

/-- `str::replace`; `skip` is what is left of the last match. -/
def replaceFrom : Nat → List α → List α
  | _, [] => []
  | skip + 1, _ :: rest => replaceFrom skip rest
  | 0, a :: rest =>
    if startsWith letter pattern (a :: rest) then mask ++ replaceFrom (pattern.length - 1) rest
    else a :: replaceFrom 0 rest

def replace (text : List α) : List α := replaceFrom letter pattern mask 0 text

end Replace

/-- One pattern after the other, over the text that the last one left. -/
def replaceAll [DecidableEq κ] (letter : α → κ) (mask : List α) (patterns : List (List κ)) (text : List α) : List α :=
  patterns.foldl (fun text pattern => replace letter pattern mask text) text

section Steps

variable [DecidableEq κ] {letter : α → κ} {pattern : List κ} {mask text : List α}

theorem startsWith_iff : startsWith letter pattern text = true ↔ pattern <+: text.map letter :=
  List.isPrefixOf_iff_prefix

theorem replaceFrom_skip (skip : Nat) (text : List α) :
    replaceFrom letter pattern mask skip text = replace letter pattern mask (text.drop skip) := by
  induction text generalizing skip with
  | nil => cases skip <;> rfl
  | cons a rest ih =>
    cases skip with
    | zero => rfl
    | succ skip => exact ih skip

@[simp] theorem replace_nil : replace letter pattern mask [] = [] := rfl

theorem replace_miss {a : α} (h : ¬ pattern <+: (a :: text).map letter) :
    replace letter pattern mask (a :: text) = a :: replace letter pattern mask text := by
  rw [← startsWith_iff] at h
  rw [replace, replaceFrom, if_neg h]
  rfl

theorem replace_hit {w : List α} (hw : w.map letter = pattern) (nonempty : pattern ≠ []) :
    replace letter pattern mask (w ++ text) = mask ++ replace letter pattern mask text := by
  cases w with
  | nil => exact absurd hw.symm nonempty
  | cons a w =>
    have starts : startsWith letter pattern (a :: w ++ text) = true := by
      rw [startsWith_iff, List.map_append, hw]
      exact List.prefix_append _ _
    have left : (w ++ text).drop (pattern.length - 1) = text := by
      rw [← hw, List.length_map, List.length_cons, Nat.add_sub_cancel, List.drop_left]
    rw [List.cons_append] at starts ⊢
    rw [replace, replaceFrom, if_pos starts, replaceFrom_skip, left]

theorem replaceAll_cons (patterns : List (List κ)) (text : List α) :
    replaceAll letter mask (pattern :: patterns) text =
      replaceAll letter mask patterns (replace letter pattern mask text) := rfl

end Steps

/-! ## Patterns that cannot touch a text -/

/-- A pattern that begins inside the text runs out of neither: no end of the text is its beginning,
and it lies in none. -/
def NeverStartsIn (text pattern : List κ) : Prop :=
  ∀ s, s ≠ [] → s <:+ text → ¬ s <+: pattern ∧ ¬ pattern <+: s

/-- A pattern that ends inside the text, or around it. -/
def NeverStopsIn (text pattern : List κ) : Prop :=
  ∀ s, s ≠ [] → s <:+ pattern → ¬ s <+: text ∧ ¬ text <+: s

/-- No match of the pattern has anything of the text. -/
structure Foreign (text pattern : List κ) : Prop where
  starts : NeverStartsIn text pattern
  stops : NeverStopsIn text pattern

instance [DecidableEq κ] (text pattern : List κ) : Decidable (NeverStartsIn text pattern) :=
  decidable_of_iff (∀ s ∈ text.tails, s ≠ [] → ¬ s <+: pattern ∧ ¬ pattern <+: s)
    ⟨fun h s some suffix => h s ((List.mem_tails _ _).mpr suffix) some,
      fun h s mem some => h s some ((List.mem_tails _ _).mp mem)⟩

instance [DecidableEq κ] (text pattern : List κ) : Decidable (NeverStopsIn text pattern) :=
  decidable_of_iff (∀ s ∈ pattern.tails, s ≠ [] → ¬ s <+: text ∧ ¬ text <+: s)
    ⟨fun h s some suffix => h s ((List.mem_tails _ _).mpr suffix) some,
      fun h s mem some => h s some ((List.mem_tails _ _).mp mem)⟩

instance [DecidableEq κ] (text pattern : List κ) : Decidable (Foreign text pattern) :=
  decidable_of_iff (NeverStartsIn text pattern ∧ NeverStopsIn text pattern)
    ⟨fun h => ⟨h.1, h.2⟩, fun h => ⟨h.starts, h.stops⟩⟩

theorem NeverStartsIn.not_starts {text pattern s more : List κ} (h : NeverStartsIn text pattern)
    (suffix : s <:+ text) (some : s ≠ []) : ¬ pattern <+: s ++ more := by
  intro starts
  obtain ⟨first, second⟩ := h s some suffix
  obtain long | short := Nat.le_total s.length pattern.length
  · exact first (List.prefix_of_prefix_length_le (List.prefix_append _ _) starts long)
  · exact second (List.prefix_of_prefix_length_le starts (List.prefix_append _ _) short)

theorem NeverStopsIn.not_starts {text pattern more : List κ} (h : NeverStopsIn text pattern)
    (some : pattern ≠ []) : ¬ pattern <+: text ++ more := by
  intro starts
  obtain ⟨first, second⟩ := h pattern some List.suffix_rfl
  obtain long | short := Nat.le_total text.length pattern.length
  · exact second (List.prefix_of_prefix_length_le (List.prefix_append _ _) starts long)
  · exact first (List.prefix_of_prefix_length_le starts (List.prefix_append _ _) short)

theorem NeverStopsIn.tail {text pattern : List κ} {k : κ} (h : NeverStopsIn text (k :: pattern)) :
    NeverStopsIn text pattern := fun s some suffix => h s some (suffix.trans (List.suffix_cons _ _))

/-! ## Pieces -/

/-- A piece of a text: as it was, or hidden behind the mask. -/
inductive Piece (α : Type) where
  | raw (a : α)
  | hidden (w : List α)

namespace Piece

def source : Piece α → List α
  | .raw a => [a]
  | .hidden w => w

def render (mask : List α) : Piece α → List α
  | .raw a => [a]
  | .hidden _ => mask

end Piece

/-- The text before anything was hidden. -/
def source (ps : List (Piece α)) : List α := ps.flatMap Piece.source

/-- The text that is left. -/
def render (mask : List α) (ps : List (Piece α)) : List α := ps.flatMap (Piece.render mask)

section Pieces

variable {letter : α → κ} {pattern : List κ} {mask : List α} {ps qs : List (Piece α)} {p : Piece α}

@[simp] theorem source_nil : source ([] : List (Piece α)) = [] := rfl

@[simp] theorem source_cons : source (p :: ps) = p.source ++ source ps := rfl

@[simp] theorem source_append : source (ps ++ qs) = source ps ++ source qs := List.flatMap_append

@[simp] theorem source_raws (w : List α) : source (w.map Piece.raw) = w := by
  induction w with
  | nil => rfl
  | cons a w ih => rw [List.map_cons, source_cons, ih]; rfl

@[simp] theorem render_nil : render mask ([] : List (Piece α)) = [] := rfl

@[simp] theorem render_cons : render mask (p :: ps) = p.render mask ++ render mask ps := rfl

@[simp] theorem render_append : render mask (ps ++ qs) = render mask ps ++ render mask qs :=
  List.flatMap_append

@[simp] theorem render_raws (w : List α) : render mask (w.map Piece.raw) = w := by
  induction w with
  | nil => rfl
  | cons a w ih => rw [List.map_cons, render_cons, ih]; rfl

/-- The pattern is there, and nothing of it is hidden. -/
def Matches (letter : α → κ) (pattern : List κ) (ps : List (Piece α)) : Prop :=
  ∃ (w : List α) (rest : List (Piece α)), ps = w.map Piece.raw ++ rest ∧ w.map letter = pattern

/-- What one replacement hides. -/
inductive Hides (letter : α → κ) (pattern : List κ) : List (Piece α) → List (Piece α) → Prop
  | nil : Hides letter pattern [] []
  | hit {w : List α} {ps ps' : List (Piece α)} : w.map letter = pattern →
      Hides letter pattern ps ps' → Hides letter pattern (w.map Piece.raw ++ ps) (.hidden w :: ps')
  | miss {p : Piece α} {ps ps' : List (Piece α)} : ¬ Matches letter pattern (p :: ps) →
      Hides letter pattern ps ps' → Hides letter pattern (p :: ps) (p :: ps')

/-- A pattern that never stops in the mask is matched by raw pieces only. -/
theorem matches_of_starts (stops : NeverStopsIn (mask.map letter) pattern)
    (starts : pattern <+: (render mask ps).map letter) : Matches letter pattern ps := by
  induction ps generalizing pattern with
  | nil =>
    rw [render_nil, List.map_nil, List.prefix_nil] at starts
    exact ⟨[], [], rfl, starts.symm⟩
  | cons p ps ih =>
    cases pattern with
    | nil => exact ⟨[], p :: ps, rfl, rfl⟩
    | cons k pattern =>
      cases p with
      | raw a =>
        obtain ⟨same, starts⟩ := List.cons_prefix_cons.mp starts
        obtain ⟨w, rest, rfl, hw⟩ := ih stops.tail starts
        exact ⟨a :: w, rest, rfl, by rw [List.map_cons, hw, same]⟩
      | hidden w =>
        rw [render_cons, List.map_append] at starts
        exact absurd starts (stops.not_starts (List.cons_ne_nil _ _))

section Rendered

variable [DecidableEq κ]

/-- A replacement walks over a mask that its pattern cannot start in. -/
theorem replace_mask (starts : NeverStartsIn (mask.map letter) pattern) {s : List α}
    (suffix : s <:+ mask) (text : List α) :
    replace letter pattern mask (s ++ text) = s ++ replace letter pattern mask text := by
  induction s with
  | nil => rfl
  | cons a s ih =>
    rw [List.cons_append, replace_miss, ih ((List.suffix_cons _ _).trans suffix), List.cons_append]
    rw [← List.cons_append, List.map_append]
    exact starts.not_starts (suffix.map letter) (List.cons_ne_nil _ _)

/-- **A replacement hides pieces**, and does nothing else. -/
theorem replace_render (nonempty : pattern ≠ []) (foreign : Foreign (mask.map letter) pattern)
    (ps : List (Piece α)) :
    ∃ ps', Hides letter pattern ps ps' ∧
      replace letter pattern mask (render mask ps) = render mask ps' := by
  induction hn : ps.length using Nat.strongRecOn generalizing ps with
  | ind n ih =>
    cases ps with
    | nil => exact ⟨[], .nil, rfl⟩
    | cons p ps =>
      by_cases matched : Matches letter pattern (p :: ps)
      · obtain ⟨w, rest, split, hw⟩ := matched
        have shorter : rest.length < n := by
          have lengths := congrArg List.length split
          have some : w.length ≠ 0 := fun none => nonempty (by
            rw [← hw, List.length_eq_zero_iff.mp none, List.map_nil])
          simp only [List.length_cons, List.length_append, List.length_map] at lengths hn
          omega
        obtain ⟨rest', hides, replaced⟩ := ih rest.length shorter rest rfl
        rw [split]
        refine ⟨_, .hit hw hides, ?_⟩
        rw [render_append, render_raws, replace_hit hw nonempty, replaced]
        rfl
      · obtain ⟨ps', hides, replaced⟩ := ih ps.length (by rw [← hn]; exact Nat.lt_succ_self _) ps rfl
        refine ⟨_, .miss matched hides, ?_⟩
        cases p with
        | raw a =>
          have miss : ¬ pattern <+: (a :: render mask ps).map letter := fun starts =>
            matched (matches_of_starts foreign.stops (show _ <+: (render mask (.raw a :: ps)).map letter from starts))
          rw [render_cons, render_cons, ← replaced]
          exact replace_miss miss
        | hidden w =>
          rw [render_cons, render_cons, ← replaced]
          exact replace_mask foreign.starts List.suffix_rfl _

end Rendered

end Pieces

end RoLauncher.Text
