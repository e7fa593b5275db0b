import RoLauncher.Contracts.Launch
import RoLauncher.Runtime.Bytes
import RoLauncher.Text.Ascii

/-!
# Names of maps (`presence.rs`)

A map is looked for in memory by its normalized name, alone and with its extension,
and what is found there is normalized again. Text is cut to `MAX_TEXT_LEN`
characters before its extension is taken away, so a name that leaves less room than
the extension needs is not recognized with it (`map_names_consistent_iff`).
-/

namespace RoLauncher.Presence

open Contracts.Backend (isAsciiAlphabetic isAsciiAlphanumeric isControl isWhitespace)
open RoLauncher.Runtime (utf8 utf8_injective)
open Text (trimBy toLower_idem)

def MAX_TEXT_LEN : Nat := 40

def sanitizeText (value : List Char) : Option (List Char) :=
  let value := (value.filter fun character => !isControl character).take MAX_TEXT_LEN
  let value := trimBy isWhitespace value
  if value.isEmpty then none else some value

/-- `str::strip_suffix`. -/
def stripSuffix (text suffix : List Char) : Option (List Char) :=
  if suffix <:+ text then some (text.take (text.length - suffix.length)) else none

def rsw : List Char := ['.', 'r', 's', 'w']

def gat : List Char := ['.', 'g', 'a', 't']

def stripExtension (value : List Char) : List Char :=
  ((stripSuffix value rsw).or (stripSuffix value gat)).getD value

/-- The alphabet of a normalized name. -/
def isMapChar (c : Char) : Bool := isAsciiAlphanumeric c || ['_', '@', '-'].contains c

def normalizeMapName (value : String) : Option String := do
  let value ← sanitizeText value.toList
  let value := stripExtension (value.map Char.toLower)
  if value.isEmpty || !value.all isMapChar then none else some (String.ofList value)

def mapScanNeedles (raw : String) : Option (List (List UInt8)) := do
  let name ← normalizeMapName raw
  return [utf8 (name ++ "\x00"), utf8 (name ++ ".rsw\x00")]

def mapLabelMatches (raw expected : String) : Bool := normalizeMapName raw = some expected

/-! ## Normalizing a normalized name -/

section Normal

variable {name : List Char}

/-- The letters of a normalized name. -/
structure IsNormal (name : List Char) : Prop where
  some : name ≠ []
  short : name.length ≤ MAX_TEXT_LEN
  chars : ∀ c ∈ name, isMapChar c = true
  lower : ∀ c ∈ name, c.toLower = c

theorem isMapChar_cases {c : Char} (allowed : isMapChar c = true) :
    isControl c = false ∧ isWhitespace c = false ∧ c ≠ '.' := by
  simp only [isMapChar, isAsciiAlphanumeric, isAsciiAlphabetic, Bool.or_eq_true, Bool.and_eq_true,
    decide_eq_true_eq, List.contains_iff_mem, List.mem_cons, List.not_mem_nil, or_false] at allowed
  rcases allowed with letter | rfl | rfl | rfl
  · refine ⟨?_, ?_, ?_⟩
    · simp [isControl]
      omega
    · simp [isWhitespace]
      omega
    · rintro rfl
      have dot : '.'.toNat = 46 := rfl
      omega
  all_goals decide

theorem IsNormal.plain (normal : IsNormal name) : '.' ∉ name := fun mem =>
  (isMapChar_cases (normal.chars '.' mem)).2.2 rfl

theorem trimBy_plain {blank : Char → Bool} {text : List Char} (plain : ∀ c ∈ text, blank c = false) :
    trimBy blank text = text := by
  have kept : ∀ text : List Char, (∀ c ∈ text, blank c = false) → text.dropWhile blank = text := by
    intro text plain
    cases text with
    | nil => rfl
    | cons c text => rw [List.dropWhile_cons_of_neg (by simp [plain c List.mem_cons_self])]
  unfold trimBy
  rw [kept text plain, kept text.reverse (fun c mem => plain c (List.mem_reverse.mp mem)),
    List.reverse_reverse]

theorem stripExtension_plain {text : List Char} (plain : '.' ∉ text) : stripExtension text = text := by
  have none : ∀ suffix : List Char, '.' ∈ suffix → stripSuffix text suffix = .none := by
    intro suffix dot
    exact if_neg fun found => plain (found.subset dot)
  unfold stripExtension
  rw [none rsw (by decide), none gat (by decide)]
  rfl

theorem sanitizeText_eq {value text : List Char}
    (kept : (value.filter fun character => !isControl character) = text) (some : text ≠ [])
    (plain : ∀ c ∈ text, isWhitespace c = false) : sanitizeText value = .some (text.take MAX_TEXT_LEN) := by
  have trimmed : trimBy isWhitespace (text.take MAX_TEXT_LEN) = text.take MAX_TEXT_LEN :=
    trimBy_plain fun c mem => plain c (List.mem_of_mem_take mem)
  have cut : (text.take MAX_TEXT_LEN).isEmpty = false := by
    cases text with
    | nil => exact absurd rfl some
    | cons c text => rfl
  unfold sanitizeText
  dsimp only
  rw [kept, trimmed, cut]
  rfl

theorem length_sanitizeText {value text : List Char} (done : sanitizeText value = some text) :
    text.length ≤ MAX_TEXT_LEN := by
  unfold sanitizeText at done
  dsimp only at done
  split at done
  next => cases done
  next =>
    cases done
    have cut := List.length_take_le MAX_TEXT_LEN (value.filter fun character => !isControl character)
    have drop (cs : List Char) : (cs.dropWhile isWhitespace).length ≤ cs.length :=
      (List.dropWhile_sublist _).length_le
    unfold trimBy
    rw [List.length_reverse]
    apply Nat.le_trans (drop _)
    rw [List.length_reverse]
    exact Nat.le_trans (drop _) cut

theorem stripExtension_prefix (text : List Char) : stripExtension text <+: text := by
  have taken : ∀ {suffix rest : List Char}, stripSuffix text suffix = some rest → rest <+: text := by
    intro suffix rest done
    unfold stripSuffix at done
    split at done
    next =>
      cases done
      exact List.take_prefix _ _
    next => cases done
  unfold stripExtension
  cases first : stripSuffix text rsw with
  | some rest => exact taken first
  | none =>
    cases second : stripSuffix text gat with
    | some rest => exact taken second
    | none => exact List.prefix_refl text

/-- What a name is made of. -/
theorem isNormal_of_normalize {raw name : String} (done : normalizeMapName raw = some name) :
    IsNormal name.toList := by
  obtain ⟨text, sanitized, rest⟩ := Option.bind_eq_some_iff.mp done
  dsimp only at rest
  split at rest
  next => cases rest
  next valid =>
    cases rest
    rw [String.toList_ofList]
    simp only [Bool.or_eq_true, Bool.not_eq_true', not_or, Bool.not_eq_true, Bool.not_eq_false] at valid
    have prefixed := stripExtension_prefix (text.map Char.toLower)
    constructor
    · intro none
      rw [none] at valid
      exact absurd valid.1 (by decide)
    · have short := prefixed.length_le
      rw [List.length_map] at short
      exact Nat.le_trans short (length_sanitizeText sanitized)
    · exact List.all_eq_true.mp valid.2
    · intro c mem
      obtain ⟨d, -, rfl⟩ := List.mem_map.mp (prefixed.subset mem)
      exact toLower_idem d

/-- A name followed by its extension and a zero, or by a zero, as far as it is kept. -/
theorem normalizeMapName_append (normal : IsNormal name) {suffix : List Char}
    (kept : ∀ c ∈ suffix, isControl c = false ∧ isWhitespace c = false ∧ c.toLower = c) :
    normalizeMapName (String.ofList (name ++ suffix ++ ['\x00'])) =
      let value := stripExtension ((name ++ suffix).take MAX_TEXT_LEN)
      if value.isEmpty || !value.all isMapChar then none else some (String.ofList value) := by
  have plain : ∀ c ∈ name ++ suffix, isControl c = false ∧ isWhitespace c = false ∧ c.toLower = c := by
    intro c mem
    rcases List.mem_append.mp mem with mem | mem
    · have cases := isMapChar_cases (normal.chars c mem)
      exact ⟨cases.1, cases.2.1, normal.lower c mem⟩
    · exact kept c mem
  have filtered : ((name ++ suffix ++ ['\x00']).filter fun character => !isControl character) =
      name ++ suffix := by
    rw [List.filter_append, List.filter_eq_self.mpr]
    · exact List.append_nil _
    · intro c mem
      rw [(plain c mem).1]
      rfl
  have lower : ((name ++ suffix).take MAX_TEXT_LEN).map Char.toLower = (name ++ suffix).take MAX_TEXT_LEN := by
    rw [List.map_congr_left (g := id)]
    · exact List.map_id _
    · intro c mem
      exact (plain c (List.mem_of_mem_take mem)).2.2
  unfold normalizeMapName
  rw [String.toList_ofList, sanitizeText_eq filtered]
  · show (if _ then _ else _) = _
    rw [lower]
  · exact List.append_ne_nil_of_left_ne_nil normal.some _
  · intro c mem
    exact (plain c mem).2.1

theorem accepted_iff {value : List Char} {name : String} :
    (if value.isEmpty || !value.all isMapChar then none else some (String.ofList value)) = some name ↔
      value = name.toList ∧ value ≠ [] ∧ ∀ c ∈ value, isMapChar c = true := by
  split
  next refused =>
    simp only [Bool.or_eq_true, List.isEmpty_iff, Bool.not_eq_true', ← Bool.not_eq_true, List.all_eq_true]
      at refused
    constructor
    · intro never
      cases never
    · intro fine
      exact absurd fine.2 (not_and_or.mpr (refused.imp not_not.mpr id))
  next fine =>
    simp only [Bool.or_eq_true, List.isEmpty_iff, Bool.not_eq_true', ← Bool.not_eq_true, List.all_eq_true,
      not_or, not_not] at fine
    constructor
    · intro same
      cases same
      exact ⟨(String.toList_ofList).symm, fine⟩
    · intro same
      rw [same.1, String.ofList_toList]

/-- A normalized name is normalized to itself, and so is its first needle. -/
theorem normalizeMapName_zero (normal : IsNormal name) :
    normalizeMapName (String.ofList (name ++ ['\x00'])) = some (String.ofList name) := by
  have appended := @normalizeMapName_append name normal [] (fun _ never => by cases never)
  rw [List.append_nil, List.take_of_length_le normal.short, stripExtension_plain normal.plain] at appended
  rw [appended, accepted_iff, String.toList_ofList]
  exact ⟨rfl, normal.some, normal.chars⟩

theorem normalizeMapName_normal (normal : IsNormal name) :
    normalizeMapName (String.ofList name) = some (String.ofList name) := by
  have filtered : (name.filter fun character => !isControl character) = name := by
    rw [List.filter_eq_self]
    intro c mem
    rw [(isMapChar_cases (normal.chars c mem)).1]
    rfl
  have lower : name.map Char.toLower = name := by
    rw [List.map_congr_left (g := id)]
    · exact List.map_id _
    · exact normal.lower
  unfold normalizeMapName
  rw [String.toList_ofList, sanitizeText_eq filtered normal.some
    (fun c mem => (isMapChar_cases (normal.chars c mem)).2.1), List.take_of_length_le normal.short]
  show (if _ then _ else _) = _
  rw [lower, stripExtension_plain normal.plain, accepted_iff, String.toList_ofList]
  exact ⟨rfl, normal.some, normal.chars⟩

theorem stripExtension_rsw (name : List Char) : stripExtension (name ++ rsw) = name := by
  unfold stripExtension stripSuffix
  rw [if_pos (List.suffix_append name rsw), List.length_append, Nat.add_sub_cancel, List.take_left']
  · rfl
  · rfl

theorem stripSuffix_last {text suffix : List Char} (some : suffix ≠ [])
    (last : text.getLast? ≠ suffix.getLast?) : stripSuffix text suffix = none := by
  unfold stripSuffix
  rw [if_neg]
  rintro ⟨before, rfl⟩
  exact last (List.getLast?_append_of_ne_nil before some)

/-- Part of the extension is not taken away. -/
theorem stripExtension_of_cut (name : List Char) {part : List Char}
    (cut : part ∈ [['.'], ['.', 'r'], ['.', 'r', 's']]) : stripExtension (name ++ part) = name ++ part := by
  have last : part ≠ [] ∧ part.getLast? ≠ rsw.getLast? ∧ part.getLast? ≠ gat.getLast? := by
    revert part
    decide
  have same : (name ++ part).getLast? = part.getLast? := List.getLast?_append_of_ne_nil name last.1
  unfold stripExtension
  rw [stripSuffix_last (by decide) (by rw [same]; exact last.2.1),
    stripSuffix_last (by decide) (by rw [same]; exact last.2.2)]
  rfl

theorem rsw_kept : ∀ c ∈ rsw, isControl c = false ∧ isWhitespace c = false ∧ c.toLower = c := by
  intro c mem
  simp only [rsw, List.mem_cons, List.not_mem_nil, or_false] at mem
  rcases mem with rfl | rfl | rfl | rfl
  all_goals exact ⟨by decide, by decide, by decide⟩

/-- With its extension a name is recognized when there is room for all of it or none of it. -/
theorem normalize_rsw_iff (normal : IsNormal name) :
    normalizeMapName (String.ofList (name ++ rsw ++ ['\x00'])) = some (String.ofList name) ↔
      name.length ≤ 36 ∨ name.length = 40 := by
  have limit : MAX_TEXT_LEN = 40 := rfl
  have size : rsw.length = 4 := rfl
  have short := normal.short
  rw [normalizeMapName_append normal rsw_kept, List.take_append, List.take_of_length_le short]
  dsimp only
  rw [accepted_iff, String.toList_ofList]
  by_cases room : name.length ≤ 36
  · rw [List.take_of_length_le (by omega), stripExtension_rsw]
    exact iff_of_true ⟨rfl, normal.some, normal.chars⟩ (.inl room)
  by_cases full : name.length = 40
  · have none : MAX_TEXT_LEN - name.length = 0 := by omega
    rw [none, List.take_zero, List.append_nil, stripExtension_plain normal.plain]
    exact iff_of_true ⟨rfl, normal.some, normal.chars⟩ (.inr full)
  · have cut : rsw.take (MAX_TEXT_LEN - name.length) ∈ [['.'], ['.', 'r'], ['.', 'r', 's']] := by
      have some : MAX_TEXT_LEN - name.length ∈ [1, 2, 3] := by
        simp only [List.mem_cons, List.not_mem_nil, or_false]
        omega
      revert some
      generalize MAX_TEXT_LEN - name.length = kept
      revert kept
      decide
    rw [stripExtension_of_cut name cut]
    apply iff_of_false
    · intro same
      have longer := congrArg List.length same.1
      simp only [List.length_append, List.length_take] at longer
      omega
    · omega

end Normal

/-! ## A map and its needles -/

/-- Names, needles and labels of a map agree. -/
def Consistent (raw : String) : Prop :=
  ∀ name, normalizeMapName raw = some name →
    normalizeMapName name = some name ∧ (∀ c ∈ name.toList, isMapChar c = true) ∧
      ∀ needles, mapScanNeedles raw = some needles → ∀ text, utf8 text ∈ needles →
        mapLabelMatches text name = true

/-- What is left of a text without its extension. -/
def baseName (raw : String) : Option (List Char) :=
  (sanitizeText raw.toList).map fun text => stripExtension (text.map Char.toLower)

/-- The letters a name may have. -/
def Allowed (base : List Char) : Prop := base ≠ [] ∧ ∀ c ∈ base, isMapChar c = true

theorem normalizeMapName_eq_some {raw name : String} :
    normalizeMapName raw = some name ↔ baseName raw = some name.toList ∧ Allowed name.toList := by
  unfold normalizeMapName baseName
  cases sanitizeText raw.toList with
  | none =>
    constructor
    · intro never
      cases never
    · intro never
      cases never.1
  | some text =>
    show (if _ then _ else _) = _ ↔ _
    rw [accepted_iff, Option.map_some, Option.some.injEq]
    constructor
    · rintro ⟨same, allowed⟩
      rw [same] at allowed ⊢
      exact ⟨rfl, allowed⟩
    · rintro ⟨same, allowed⟩
      rw [same]
      exact ⟨rfl, allowed⟩

/-- Of the two needles, the second may be too long. -/
theorem consistent_of_normalize {raw name : String} (done : normalizeMapName raw = some name) :
    Consistent raw ↔ name.toList.length ≤ 36 ∨ name.toList.length = 40 := by
  have normal := isNormal_of_normalize done
  have zero : String.ofList ['\x00'] = "\x00" := rfl
  have extension : String.ofList (rsw ++ ['\x00']) = ".rsw\x00" := rfl
  have first : name ++ "\x00" = String.ofList (name.toList ++ ['\x00']) := by
    rw [String.ofList_append, String.ofList_toList, zero]
  have second : name ++ ".rsw\x00" = String.ofList (name.toList ++ rsw ++ ['\x00']) := by
    rw [List.append_assoc, String.ofList_append, String.ofList_toList, extension]
  have needles : mapScanNeedles raw = some [utf8 (name ++ "\x00"), utf8 (name ++ ".rsw\x00")] := by
    unfold mapScanNeedles
    rw [done]
    rfl
  have label : mapLabelMatches (name ++ ".rsw\x00") name = true ↔
      name.toList.length ≤ 36 ∨ name.toList.length = 40 := by
    have room := normalize_rsw_iff normal
    rw [String.ofList_toList] at room
    unfold mapLabelMatches
    rw [decide_eq_true_eq, second]
    exact room
  constructor
  · intro consistent
    obtain ⟨_, _, accepted⟩ := consistent name done
    exact label.mp (accepted _ needles _ (List.mem_cons_of_mem _ List.mem_cons_self))
  · intro room name' done'
    rw [done] at done'
    cases done'
    refine ⟨?_, normal.chars, ?_⟩
    · have again := normalizeMapName_normal normal
      rw [String.ofList_toList] at again
      exact again
    · intro found same text mem
      rw [needles] at same
      cases same
      simp only [List.mem_cons, List.not_mem_nil, or_false] at mem
      rcases mem with text_eq | text_eq
      · rw [utf8_injective text_eq, first]
        have zero := normalizeMapName_zero normal
        rw [String.ofList_toList] at zero
        exact decide_eq_true zero
      · rw [utf8_injective text_eq]
        exact label.mpr room

/-- **Names of maps**: a normalized name stays as it is, has only the letters a name may have, and
its needles are recognized, unless it leaves room for a part of its extension. -/
theorem map_names_consistent_iff (raw : String) :
    Consistent raw ↔ ∀ base, baseName raw = some base → Allowed base →
      base.length ≤ 36 ∨ base.length = 40 := by
  constructor
  · intro consistent base left allowed
    have done : normalizeMapName raw = some (String.ofList base) := by
      rw [normalizeMapName_eq_some, String.toList_ofList]
      exact ⟨left, allowed⟩
    have room := (consistent_of_normalize done).mp consistent
    rw [String.toList_ofList] at room
    exact room
  · intro room name done
    have base := normalizeMapName_eq_some.mp done
    exact (consistent_of_normalize done).mpr (room _ base.1 base.2) name done

/-- A map whose second needle is not recognized. -/
def longMap : String := String.ofList (List.replicate 38 'a')

theorem not_consistent_longMap : ¬ Consistent longMap := by
  have done : normalizeMapName longMap = some longMap := by decide
  rw [consistent_of_normalize done]
  decide

end RoLauncher.Presence
