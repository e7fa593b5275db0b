import Mathlib.Data.List.DropRight
import Mathlib.Data.List.Infix

/-!
# UTF-16

The strings of a language whose strings are sequences of 16-bit units: any
sequence is one, also with halves of pairs on their own. `codePoints` is how
such a string is iterated; a string of characters is the same text when it has
the same code points (`fromUnits_eq_some`).

A unit that is no surrogate is a code point wherever it stands, so splitting at
one splits the code points (`codePoints_split`, `exists_split`).
-/

namespace RoLauncher.Text

abbrev Units := List UInt16

def isLeading (u : UInt16) : Bool := 0xD800 ≤ u.toNat && u.toNat < 0xDC00

def isTrailing (u : UInt16) : Bool := 0xDC00 ≤ u.toNat && u.toNat < 0xE000

/-- A code point of one unit that is no surrogate. -/
def IsPlain (n : Nat) : Prop := n < 0xD800 ∨ (0xE000 ≤ n ∧ n < 0x10000)

def pairValue (leading trailing : UInt16) : Nat :=
  0x10000 + (leading.toNat - 0xD800) * 0x400 + (trailing.toNat - 0xDC00)

/-- A half on its own stands for itself. -/
def codePoints : Units → List Nat
  | [] => []
  | [u] => [u.toNat]
  | u :: w :: rest =>
    if isLeading u && isTrailing w then pairValue u w :: codePoints rest
    else u.toNat :: codePoints (w :: rest)

def charOf? (n : Nat) : Option Char := if n.isValidChar then some (Char.ofNat n) else none

/-- The text as characters, unless there are halves on their own. -/
def fromUnits (units : Units) : Option String :=
  ((codePoints units).mapM charOf?).map String.ofList

/-- Units of characters that need one each. -/
def units (text : String) : Units := text.toList.map fun c => UInt16.ofNat c.toNat

/-- `trim`, whatever is blank. -/
def trimBy {κ : Type} (blank : κ → Bool) (text : List κ) : List κ :=
  ((text.dropWhile blank).reverse.dropWhile blank).reverse

section

variable {u : UInt16} {x y : Units} {n : Nat}

theorem codePoints_cons (h : isLeading u = false) : codePoints (u :: y) = u.toNat :: codePoints y := by
  cases y with
  | nil => rfl
  | cons w rest => rw [codePoints, h, Bool.false_and, if_neg Bool.false_ne_true]

theorem codePoints_append (h : ∀ w, y.head? = some w → isTrailing w = false) :
    codePoints (x ++ y) = codePoints x ++ codePoints y := by
  induction x using codePoints.induct with
  | case1 => rfl
  | case2 u =>
    cases y with
    | nil => rfl
    | cons w rest =>
      change codePoints (u :: w :: rest) = u.toNat :: codePoints (w :: rest)
      rw [codePoints, h w rfl, Bool.and_false, if_neg Bool.false_ne_true]
  | case3 u w rest pair ih => rw [List.cons_append, List.cons_append, codePoints, if_pos pair, ih,
      codePoints, if_pos pair, List.cons_append]
  | case4 u w rest pair ih =>
    rw [List.cons_append, List.cons_append, codePoints, if_neg pair, ← List.cons_append, ih, codePoints,
      if_neg pair, List.cons_append]

theorem codePoints_length_le (x : Units) : (codePoints x).length ≤ x.length := by
  induction x using codePoints.induct with
  | case1 => exact Nat.le_refl _
  | case2 u => exact Nat.le_refl _
  | case3 u w rest pair ih =>
    rw [codePoints, if_pos pair]
    simp only [List.length_cons]
    omega
  | case4 u w rest pair ih =>
    rw [codePoints, if_neg pair]
    simp only [List.length_cons] at ih ⊢
    omega

theorem codePoints_eq_nil : codePoints x = [] ↔ x = [] := by
  refine ⟨fun h => ?_, fun h => by rw [h, codePoints]⟩
  cases x using codePoints.induct with
  | case1 => rfl
  | case2 u => cases h
  | case3 u w rest pair =>
    rw [codePoints, if_pos pair] at h
    cases h
  | case4 u w rest pair =>
    rw [codePoints, if_neg pair] at h
    cases h

theorem not_surrogate (h : IsPlain u.toNat) : isLeading u = false ∧ isTrailing u = false := by
  simp only [isLeading, isTrailing, Bool.and_eq_false_iff, decide_eq_false_iff_not]
  obtain low | high := h <;> omega

theorem codePoints_split (h : IsPlain u.toNat) :
    codePoints (x ++ u :: y) = codePoints x ++ u.toNat :: codePoints y := by
  obtain ⟨leading, trailing⟩ := not_surrogate h
  rw [codePoints_append, codePoints_cons leading]
  intro w head
  cases head
  exact trailing

theorem pairValue_ge (leading trailing : UInt16) : 0x10000 ≤ pairValue leading trailing := by
  unfold pairValue
  omega

theorem exists_split {before after : List Nat} (h : codePoints x = before ++ n :: after)
    (plain : IsPlain n) : ∃ x' u y', x = x' ++ u :: y' ∧ u.toNat = n ∧
      codePoints x' = before ∧ codePoints y' = after := by
  induction x using codePoints.induct generalizing before with
  | case1 => cases before <;> cases h
  | case2 u =>
    cases before with
    | nil =>
      obtain ⟨same, rest⟩ := List.cons.inj h
      exact ⟨[], u, [], rfl, same, rfl, rest⟩
    | cons b before => cases before <;> cases (List.cons.inj h).2
  | case3 u w rest pair ih =>
    rw [codePoints, if_pos pair] at h
    cases before with
    | nil =>
      have large := pairValue_ge u w
      rw [(List.cons.inj h).1] at large
      obtain low | high := plain <;> omega
    | cons b before =>
      obtain ⟨same, rest⟩ := List.cons.inj h
      obtain ⟨x', v, y', rfl, hv, hx, hy⟩ := ih rest
      refine ⟨u :: w :: x', v, y', rfl, hv, ?_, hy⟩
      rw [codePoints, if_pos pair, hx, same]
  | case4 u w rest pair ih =>
    rw [codePoints, if_neg pair] at h
    cases before with
    | nil =>
      obtain ⟨same, rest⟩ := List.cons.inj h
      exact ⟨[], u, _, rfl, same, rfl, rest⟩
    | cons b before =>
      obtain ⟨same, tail⟩ := List.cons.inj h
      obtain ⟨x', v, y', split, hv, hx, hy⟩ := ih tail
      refine ⟨u :: x', v, y', by rw [split]; rfl, hv, ?_, hy⟩
      cases x' with
      | nil =>
        rw [← hx, ← same]
        rfl
      | cons w' x' =>
        obtain ⟨rfl, _⟩ := List.cons.inj split
        rw [codePoints, if_neg pair, hx, same]

/-- Without surrogates, the code points are the units. -/
theorem codePoints_eq_map (h : ∀ u ∈ x, IsPlain u.toNat) : codePoints x = x.map UInt16.toNat := by
  induction x with
  | nil => rfl
  | cons u x ih =>
    rw [codePoints_cons (not_surrogate (h u List.mem_cons_self)).1,
      ih fun w mem => h w (List.mem_cons_of_mem _ mem), List.map_cons]

/-- And without code points that need or are surrogates there are none. -/
theorem plain_of_codePoints (h : ∀ n ∈ codePoints x, IsPlain n) : ∀ u ∈ x, IsPlain u.toNat := by
  induction x using codePoints.induct with
  | case1 => exact fun u never => (List.not_mem_nil never).elim
  | case2 u =>
    intro w mem
    obtain rfl := List.mem_singleton.mp mem
    exact h _ (List.mem_singleton.mpr rfl)
  | case3 u w rest pair =>
    rw [codePoints, if_pos pair] at h
    have large := pairValue_ge u w
    obtain low | high := h _ List.mem_cons_self <;> omega
  | case4 u w rest pair ih =>
    rw [codePoints, if_neg pair] at h
    intro v mem
    obtain rfl | mem := List.mem_cons.mp mem
    · exact h _ List.mem_cons_self
    · exact ih (fun n mem => h n (List.mem_cons_of_mem _ mem)) v mem

/-- The last code point is the last unit, or a pair. -/
theorem codePoints_concat (x : Units) (u : UInt16) :
    ∃ before n, codePoints (x ++ [u]) = before ++ [n] ∧ (n = u.toNat ∨ 0x10000 ≤ n) := by
  induction x using codePoints.induct with
  | case1 => exact ⟨[], u.toNat, rfl, .inl rfl⟩
  | case2 v =>
    change ∃ before n, codePoints [v, u] = before ++ [n] ∧ _
    rw [codePoints]
    split
    · exact ⟨[], _, rfl, .inr (pairValue_ge v u)⟩
    · exact ⟨[v.toNat], u.toNat, rfl, .inl rfl⟩
  | case3 v w rest pair ih =>
    obtain ⟨before, n, split, last⟩ := ih
    refine ⟨pairValue v w :: before, n, ?_, last⟩
    rw [List.cons_append, List.cons_append, codePoints, if_pos pair, split, List.cons_append]
  | case4 v w rest pair ih =>
    obtain ⟨before, n, split, last⟩ := ih
    refine ⟨v.toNat :: before, n, ?_, last⟩
    rw [List.cons_append, List.cons_append, codePoints, if_neg pair, ← List.cons_append, split,
      List.cons_append]

section Trimming

variable {blank : Nat → Bool}

theorem trimBy_eq_nil {κ : Type} {blank : κ → Bool} {text : List κ} :
    trimBy blank text = [] ↔ ∀ a ∈ text, blank a = true := by
  change List.rdropWhile blank (text.dropWhile blank) = [] ↔ _
  rw [List.rdropWhile_eq_nil_iff]
  constructor
  · intro all a mem
    rw [← List.takeWhile_append_dropWhile (p := blank) (l := text)] at mem
    obtain front | back := List.mem_append.mp mem
    · exact List.mem_takeWhile_imp front
    · exact all a back
  · exact fun all a mem => all a ((List.dropWhile_sublist _).subset mem)

/-- **Trimming** the units trims the code points, where nothing blank needs or is a surrogate. -/
theorem codePoints_trimBy (plain : ∀ n, blank n = true → IsPlain n) (x : Units) :
    codePoints (trimBy (fun u => blank u.toNat) x) = trimBy blank (codePoints x) := by
  have left : ∀ x : Units, codePoints (x.dropWhile fun u => blank u.toNat) =
      (codePoints x).dropWhile blank := by
    intro x
    induction x with
    | nil => rfl
    | cons u x ih =>
      by_cases h : blank u.toNat = true
      · rw [List.dropWhile_cons_of_pos (p := fun u : UInt16 => blank u.toNat) h,
          codePoints_cons (not_surrogate (plain _ h)).1, List.dropWhile_cons_of_pos h, ih]
      · rw [List.dropWhile_cons_of_neg (p := fun u : UInt16 => blank u.toNat) h]
        cases x with
        | nil => rw [codePoints, List.dropWhile_cons_of_neg h]
        | cons w x =>
          rw [codePoints]
          split
          · rw [List.dropWhile_cons_of_neg]
            intro never
            have large := pairValue_ge u w
            obtain low | high := plain _ never <;> omega
          · rw [List.dropWhile_cons_of_neg h]
  have right : ∀ x : Units, codePoints (x.rdropWhile fun u => blank u.toNat) =
      (codePoints x).rdropWhile blank := by
    intro x
    induction x using List.reverseRecOn with
    | nil => rfl
    | append_singleton x u ih =>
      by_cases h : blank u.toNat = true
      · rw [List.rdropWhile_concat_pos (fun u : UInt16 => blank u.toNat) _ _ h,
          codePoints_split (plain _ h), codePoints, List.rdropWhile_concat_pos _ _ _ h, ih]
      · rw [List.rdropWhile_concat_neg (fun u : UInt16 => blank u.toNat) _ _ h]
        obtain ⟨before, n, split, last⟩ := codePoints_concat x u
        rw [split, List.rdropWhile_concat_neg]
        obtain rfl | large := last
        · exact h
        · intro never
          obtain low | high := plain _ never <;> omega
  change codePoints (List.rdropWhile _ (List.dropWhile _ x)) = _
  rw [right, left]
  rfl

end Trimming

end

section Characters

variable {x : Units} {s : String}

theorem charOf?_eq_some {n : Nat} {c : Char} : charOf? n = some c ↔ n = c.toNat := by
  unfold charOf?
  constructor
  · intro h
    split at h
    next valid =>
      cases h
      rw [Char.ofNat, dif_pos valid]
      rfl
    next => cases h
  · rintro rfl
    have valid : c.toNat.isValidChar := c.valid
    rw [if_pos valid, Char.ofNat_toNat]

theorem mapM_charOf? {ns : List Nat} {cs : List Char} :
    ns.mapM charOf? = some cs ↔ ns = cs.map Char.toNat := by
  induction ns generalizing cs with
  | nil => cases cs <;> simp
  | cons n ns ih =>
    rw [List.mapM_cons]
    cases cs with
    | nil => simp [Option.bind_eq_some_iff]
    | cons c cs => simp [Option.bind_eq_some_iff, charOf?_eq_some, ih]

/-- **The same text** has the same code points. -/
theorem fromUnits_eq_some : fromUnits x = some s ↔ codePoints x = s.toList.map Char.toNat := by
  rw [fromUnits, Option.map_eq_some_iff]
  constructor
  · rintro ⟨cs, read, rfl⟩
    rw [mapM_charOf?.mp read, String.toList_ofList]
  · intro same
    exact ⟨s.toList, mapM_charOf?.mpr same, String.ofList_toList⟩

end Characters

end RoLauncher.Text
