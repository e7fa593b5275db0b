import RoLauncher.Text.Glob

/-!
# Which executables a memory profile is for (`presence.rs`)

A profile lists names of executables, some of them patterns with stars.
`glob_match` cuts a pattern at its stars and looks for the pieces from left to
right, each at its first place; the last has to be where the text ends. It finds
exactly the texts that the pattern stands for (`matchesExe_iff`).
-/

namespace RoLauncher.Presence

open Text

/-- `str::to_ascii_lowercase`. -/
def toAsciiLowercase (text : String) : List Char := text.toList.map Char.toLower

section Loop

-- Whether the pattern starts and ends with a star, and how many parts it has.
variable (starts ends : Bool) (count : Nat)

/-- The loop of `glob_match`: `index` counts the parts, `rest` is what is left of the text. -/
def globLoop : Nat → List (List Char) → List Char → Bool
  | _, [], _ => true
  | index, part :: parts, rest =>
    if part.isEmpty then globLoop (index + 1) parts rest
    else if index = 0 ∧ starts = false then
      if part.isPrefixOf rest then globLoop (index + 1) parts (rest.drop part.length) else false
    else if index = count - 1 ∧ ends = false then part.isSuffixOf rest
    else
      match find part rest with
      | none => false
      | some position => globLoop (index + 1) parts (rest.drop (position + part.length))

end Loop

def globMatch (pattern text : List Char) : Bool :=
  if '*' ∉ pattern then pattern = text
  else
    let parts := pattern.splitOn '*'
    globLoop (pattern.head? = some '*') (pattern.getLast? = some '*') parts.length 0 parts text

/-- `PresenceMemoryProfile`, as far as it names executables. -/
structure PresenceMemoryProfile where
  exeNames : List String
  deriving DecidableEq, Repr

def PresenceMemoryProfile.matchesExe (profile : PresenceMemoryProfile) (exeName : String) : Bool :=
  let exeLower := toAsciiLowercase exeName
  profile.exeNames.any fun pattern =>
    let pattern := toAsciiLowercase pattern
    if '*' ∈ pattern then globMatch pattern exeLower else pattern = exeLower

/-! ## The ends of a pattern -/

section Ends

variable {star : Char} {pattern : List Char}

/-- A pattern with a star has a part in front of it, and one after it. -/
theorem splitOn_head (starred : star ∈ pattern) : ∃ part next parts,
    pattern.splitOn star = part :: next :: parts ∧ (part = [] ↔ pattern.head? = some star) := by
  obtain ⟨part, later, rfl, none⟩ := List.eq_append_cons_of_mem starred
  obtain ⟨next, parts, split⟩ := List.exists_cons_of_ne_nil (List.splitOn_ne_nil star later)
  refine ⟨part, next, parts, ?_, ?_⟩
  · rw [List.splitOn_append_cons_self, List.splitOn_eq_singleton none, split, List.singleton_append]
  · cases part with
    | nil => simp
    | cons k part =>
      have other : k ≠ star := by
        rintro rfl
        exact none List.mem_cons_self
      simp [other]

/-- The last part is empty when nothing follows the last star. -/
theorem splitOn_last : (pattern.splitOn star).getLast? = some [] ↔
    pattern = [] ∨ pattern.getLast? = some star := by
  induction pattern with
  | nil => simp
  | cons k pattern ih =>
    by_cases later : star ∈ pattern
    · obtain ⟨part, next, parts, split, -⟩ := splitOn_head later
      have nonempty := List.ne_nil_of_mem later
      have same : ((k :: pattern).splitOn star).getLast? = (pattern.splitOn star).getLast? := by
        rw [List.splitOn_cons_eq_if_modifyHead, split]
        split
        · simp
        · simp
      have last : (k :: pattern).getLast? = pattern.getLast? := by
        rw [List.getLast?_cons_of_ne_nil nonempty]
      rw [same, ih, last]
      simp [nonempty]
    · by_cases first : k = star
      · rw [List.splitOn_cons_eq_if_modifyHead, if_pos (beq_iff_eq.mpr first),
          List.splitOn_eq_singleton later]
        cases pattern with
        | nil => simp [first]
        | cons l pattern =>
          have absent : (l :: pattern).getLast? ≠ some star := fun last =>
            later (List.mem_of_getLast? last)
          simpa [List.getLast?_cons_cons] using absent
      · have none : star ∉ k :: pattern := by
          simp [Ne.symm first, later]
        have absent : (k :: pattern).getLast? ≠ some star := fun last =>
          none (List.mem_of_getLast? last)
        rw [List.splitOn_eq_singleton none]
        simp [absent]

end Ends

/-! ## The loop -/

section Loop

variable {starts ends : Bool} {count index : Nat} {part next rest text : List Char}
  {parts : List (List Char)}

/-- After the first part, the loop looks for the others in what follows a star. -/
theorem globLoop_afterStar (later : 0 < index) (nonempty : parts ≠ [])
    (counted : index + parts.length = count) (last : ends = true ↔ parts.getLast? = some []) :
    globLoop starts ends count index parts rest = true ↔ AfterStar parts rest := by
  induction parts generalizing index rest with
  | nil => exact absurd rfl nonempty
  | cons part parts ih =>
    rw [List.length_cons] at counted
    rw [globLoop]
    cases parts with
    | nil =>
      rw [afterStar_last]
      split
      next empty =>
        rw [List.isEmpty_iff.mp empty]
        simp [globLoop]
      next full =>
        have open_ : ends = false := by
          cases ends with
          | false => rfl
          | true =>
            have := last.mp rfl
            simp_all
        rw [if_neg (by omega), if_pos ⟨by simp at counted; omega, open_⟩,
          List.isSuffixOf_iff_suffix]
    | cons next parts =>
      have ih' {rest : List Char} := @ih (index + 1) rest (Nat.succ_pos _) (List.cons_ne_nil _ _)
        (by rw [← counted]; exact Nat.add_right_comm _ _ _) (by rw [last, List.getLast?_cons_cons])
      split
      next empty => rw [ih', List.isEmpty_iff.mp empty, afterStar_nil_cons]
      next full =>
        rw [if_neg (by omega), if_neg (by rw [List.length_cons] at counted; omega), afterStar_find]
        split
        next missing => simp [missing]
        next position found => simp [found, ih']

end Loop

/-- **The matcher** accepts what the pattern stands for. -/
theorem globMatch_iff {pattern text : List Char} :
    globMatch pattern text = true ↔ Glob '*' pattern text := by
  rw [glob_iff_pieces]
  unfold globMatch
  split
  next plain =>
    rw [List.splitOn_eq_singleton plain, decide_eq_true_eq]
    exact eq_comm
  next starred =>
    obtain ⟨part, next, parts, split, first⟩ := splitOn_head (not_not.mp starred)
    have nonempty : pattern ≠ [] := List.ne_nil_of_mem (not_not.mp starred)
    have last : decide (pattern.getLast? = some '*') = true ↔
        (next :: parts).getLast? = some [] := by
      rw [decide_eq_true_eq, ← List.getLast?_cons_cons (a := part), ← split, splitOn_last]
      simp [nonempty]
    have loop {rest : List Char} := @globLoop_afterStar (decide (pattern.head? = some '*')) _
      (part :: next :: parts).length 1 rest (next :: parts) Nat.one_pos (List.cons_ne_nil _ _)
      (by simp [Nat.add_comm]) last
    dsimp only
    rw [split, globLoop, pieces_cons]
    split
    next empty =>
      rw [loop, List.isEmpty_iff.mp empty]
      simp
    next full =>
      have unstarred : decide (pattern.head? = some '*') = false := by
        rw [decide_eq_false_iff_not, ← first]
        simpa using full
      rw [if_pos ⟨rfl, unstarred⟩]
      split
      next starts =>
        obtain ⟨rest, rfl⟩ := List.isPrefixOf_iff_prefix.mp starts
        rw [List.drop_left, loop]
        simp
      next misses =>
        simp only [Bool.false_eq_true, false_iff, not_exists, not_and]
        rintro rest rfl
        exact absurd (List.isPrefixOf_iff_prefix.mpr (List.prefix_append _ _)) misses

/-- A profile is for an executable when one of its names stands for it, in lower case; that is, when
the name's pieces stand in it in order and at both ends. -/
theorem matchesExe_iff (profile : PresenceMemoryProfile) (exeName : String) :
    (profile.matchesExe exeName = true ↔ ∃ pattern ∈ profile.exeNames,
      Glob '*' (toAsciiLowercase pattern) (toAsciiLowercase exeName)) ∧
    ∀ pattern text, (globMatch pattern text = true ↔ Glob '*' pattern text) ∧
      (globMatch pattern text = true ↔ Pieces (pattern.splitOn '*') text) := by
  refine ⟨?_, fun pattern text => ⟨globMatch_iff, globMatch_iff.trans glob_iff_pieces⟩⟩
  unfold PresenceMemoryProfile.matchesExe
  rw [List.any_eq_true]
  refine exists_congr fun pattern => and_congr_right fun _ => ?_
  dsimp only
  split
  next => exact globMatch_iff
  next plain =>
    have whole := @globMatch_iff (toAsciiLowercase pattern) (toAsciiLowercase exeName)
    rw [globMatch, if_pos plain] at whole
    exact whole

end RoLauncher.Presence
