import Mathlib.Algebra.Ring.Nat
import Mathlib.Data.List.Forall2
import RoLauncher.Contracts.Launch
import RoLauncher.Text.Lossy
import RoLauncher.Results.Except

/-!
# The rules for launch arguments

What both validators mean, as predicates of code points: a list is `Orderly`,
whatever is said of blank arguments, and its fields are `FieldsOf` it. Each
side is shown to accept by these rules. They differ in one thing: what a blank
argument is.
-/

namespace RoLauncher.Contracts

open RoLauncher.Text RoLauncher.Results

/-! ## The rules -/

/-- A code point that both sides call white space. -/
def isSharedBlank (n : Nat) : Bool :=
  (9 ≤ n && n ≤ 13) || n = 0x20 || n = 0xA0 || n = 0x1680 || (0x2000 ≤ n && n ≤ 0x200A) ||
    n = 0x2028 || n = 0x2029 || n = 0x202F || n = 0x205F || n = 0x3000

def nextLine : Nat := 0x85

def byteOrderMark : Nat := 0xFEFF

/-- White space of the interface. -/
def isFrontBlank (n : Nat) : Bool := isSharedBlank n || n = byteOrderMark

/-- White space of the backend. -/
def isBackBlank (n : Nat) : Bool := isSharedBlank n || n = nextLine

def isControlPoint (n : Nat) : Bool := n ≤ 0x1f || (0x7f ≤ n && n ≤ 0x9f)

def isLetterPoint (n : Nat) : Bool := (65 ≤ n && n ≤ 90) || (97 ≤ n && n ≤ 122)

def isKeyPoint (n : Nat) : Bool :=
  isLetterPoint n || (48 ≤ n && n ≤ 57) || n = 95 || n = 45

/-- The name of a field. -/
structure IsFieldName (name : List Nat) : Prop where
  starts : ∃ first rest, name = first :: rest ∧ isLetterPoint first = true
  letters : ∀ n ∈ name, isKeyPoint n = true
  short : name.length ≤ 32

/-- `${name}` -/
def FieldsIn (argument : List Nat) (names : List (List Nat)) : Prop :=
  Template (0x24, 0x7b) 0x7d IsFieldName argument names

/-- One occurrence of each, in the order of the first ones. -/
def addNew {α : Type} [DecidableEq α] (seen : List α) (name : α) : List α :=
  if name ∈ seen then seen else seen ++ [name]

def distinct {α : Type} [DecidableEq α] (names : List α) : List α := names.foldl addNew []

/-- The fields of a list of arguments. -/
def FieldsOf (args : List (List Nat)) (fields : List (List Nat)) : Prop :=
  ∃ names, List.Forall₂ FieldsIn args names ∧ fields = distinct names.flatten ∧ fields.length ≤ 16

/-- An argument that is allowed wherever it stands. -/
structure ArgumentOk (blank : Nat → Bool) (argument : List Nat) : Prop where
  visible : ∃ n ∈ argument, blank n = false
  printable : ∀ n ∈ argument, isControlPoint n = false
  short : argument.length ≤ 4096

/-- A list of arguments that is accepted, where this is blank. -/
structure Accepted (blank : Nat → Bool) (args : List (List Nat)) : Prop where
  count : args.length ≤ 64
  each : ∀ argument ∈ args, ArgumentOk blank argument
  total : (args.map List.length).sum ≤ 16384
  fields : ∃ fields, FieldsOf args fields

/-! ## Distinct names -/

section Distinct

variable {α β : Type} [DecidableEq α] [DecidableEq β]

theorem length_addNew (seen : List α) (name : α) : seen.length ≤ (addNew seen name).length := by
  unfold addNew
  split
  · exact Nat.le_refl _
  · rw [List.length_append]
    exact Nat.le_add_right _ _

theorem length_foldl_addNew (names seen : List α) : seen.length ≤ (names.foldl addNew seen).length := by
  induction names generalizing seen with
  | nil => exact Nat.le_refl _
  | cons name names ih => exact Nat.le_trans (length_addNew seen name) (ih _)

/-- Adding names with a limit fails when there are too many in the end. -/
theorem foldlM_limited {ε : Type} {error : ε} {limit : Nat} {names seen fields : List α}
    (add : List α → α → Except ε (List α))
    (spec : ∀ seen name, add seen name = if name ∈ seen then .ok seen
      else if seen.length ≥ limit then .error error else .ok (seen ++ [name]))
    (room : seen.length ≤ limit) :
    names.foldlM add seen = .ok fields ↔
      fields = names.foldl addNew seen ∧ (names.foldl addNew seen).length ≤ limit := by
  induction names generalizing seen with
  | nil =>
    rw [List.foldlM_nil, List.foldl_nil]
    exact ⟨fun h => ⟨(Except.ok.inj h).symm, room⟩, fun h => by rw [h.1]; rfl⟩
  | cons name names ih =>
    rw [List.foldlM_cons, List.foldl_cons, spec]
    by_cases known : name ∈ seen
    · rw [if_pos known, addNew, if_pos known]
      exact ih room
    · rw [if_neg known, addNew, if_neg known]
      by_cases full : seen.length ≥ limit
      · rw [if_pos full]
        constructor
        · intro never
          cases never
        · intro h
          have more := length_foldl_addNew names (seen ++ [name])
          rw [List.length_append, List.length_singleton] at more
          have := h.2
          omega
      · rw [if_neg full]
        exact ih (by rw [List.length_append, List.length_singleton]; omega)

theorem foldl_addNew_map {f : α → β} {names seen : List α}
    (inj : ∀ a ∈ seen ++ names, ∀ b ∈ seen ++ names, f a = f b → a = b) :
    (names.map f).foldl addNew (seen.map f) = (names.foldl addNew seen).map f := by
  induction names generalizing seen with
  | nil => rfl
  | cons name names ih =>
    have same : f name ∈ seen.map f ↔ name ∈ seen := by
      constructor
      · intro mem
        obtain ⟨other, there, equal⟩ := List.mem_map.mp mem
        rwa [← inj other (List.mem_append_left _ there) name
          (List.mem_append_right _ List.mem_cons_self) equal]
      · exact List.mem_map_of_mem
    rw [List.map_cons, List.foldl_cons, List.foldl_cons, addNew, addNew]
    by_cases known : name ∈ seen
    · rw [if_pos known, if_pos (same.mpr known)]
      refine ih fun a ha b hb => inj a ?_ b ?_
      · exact (List.mem_append.mp ha).elim (List.mem_append_left _)
          fun h => List.mem_append_right _ (List.mem_cons_of_mem _ h)
      · exact (List.mem_append.mp hb).elim (List.mem_append_left _)
          fun h => List.mem_append_right _ (List.mem_cons_of_mem _ h)
    · rw [if_neg known, if_neg fun h => known (same.mp h)]
      have moved : seen ++ [name] ++ names = seen ++ name :: names := by simp
      have rest := @ih (seen ++ [name]) (by rw [moved]; exact inj)
      rwa [List.map_append] at rest

end Distinct

/-! ## Reading the fields of a list -/

section Fields

variable {σ ε : Type} {read : σ → List Nat} {fields : σ → List σ → Prop}

/-- Strings that are read as code points, and the fields of one as strings. -/
structure ReadsFields (read : σ → List Nat) (fields : σ → List σ → Prop) : Prop where
  template : ∀ argument names, FieldsIn (read argument) names ↔
    ∃ names', fields argument names' ∧ names = names'.map read
  inj : ∀ a b, IsFieldName (read a) → read a = read b → a = b

theorem ReadsFields.forall₂ (h : ReadsFields read fields) {args : List σ}
    {names : List (List (List Nat))} : List.Forall₂ FieldsIn (args.map read) names ↔
      ∃ names', List.Forall₂ fields args names' ∧ names = names'.map (List.map read) := by
  induction args generalizing names with
  | nil =>
    rw [List.map_nil, List.forall₂_nil_left_iff]
    constructor
    · rintro rfl
      exact ⟨[], .nil, rfl⟩
    · rintro ⟨names', all, rfl⟩
      rw [List.forall₂_nil_left_iff.mp all]
      rfl
  | cons argument args ih =>
    rw [List.map_cons, List.forall₂_cons_left_iff]
    constructor
    · rintro ⟨first, rest, template, others, rfl⟩
      obtain ⟨first', template', rfl⟩ := (h.template _ _).mp template
      obtain ⟨rest', others', rfl⟩ := ih.mp others
      exact ⟨first' :: rest', .cons template' others', rfl⟩
    · rintro ⟨names', all, rfl⟩
      obtain ⟨first, rest, template, others, rfl⟩ := List.forall₂_cons_left_iff.mp all
      exact ⟨_, _, (h.template _ _).mpr ⟨first, template, rfl⟩, ih.mpr ⟨rest, others, rfl⟩, rfl⟩

theorem ReadsFields.named (h : ReadsFields read fields) {args : List σ} {names : List (List σ)}
    (all : List.Forall₂ fields args names) : ∀ name ∈ names.flatten, IsFieldName (read name) := by
  induction all with
  | nil => exact fun name never => (List.not_mem_nil never).elim
  | @cons argument first args names template _ ih =>
    intro name mem
    rw [List.flatten_cons] at mem
    obtain here | later := List.mem_append.mp mem
    · exact ((h.template _ _).mpr ⟨first, template, rfl⟩).named _ (List.mem_map_of_mem here)
    · exact ih name later

/-- **The fields of a list** are those that adding them one by one finds. -/
theorem ReadsFields.fieldsOf [DecidableEq σ] (h : ReadsFields read fields) (error : ε)
    (add : List σ → σ → Except ε (List σ))
    (spec : ∀ seen name, add seen name = if name ∈ seen then .ok seen
      else if seen.length ≥ 16 then .error error else .ok (seen ++ [name]))
    {args : List σ} {found : List (List Nat)} :
    FieldsOf (args.map read) found ↔ ∃ names result, List.Forall₂ fields args names ∧
      names.flatten.foldlM add [] = .ok result ∧ found = result.map read := by
  have same : ∀ names, List.Forall₂ fields args names →
      distinct (names.map (List.map read)).flatten = (distinct names.flatten).map read := by
    intro names all
    rw [← List.map_flatten]
    refine @foldl_addNew_map _ _ _ _ _ _ [] fun a ha b _ => h.inj a b (h.named all a ?_)
    exact ha
  constructor
  · rintro ⟨_, all, rfl, short⟩
    obtain ⟨names, all', rfl⟩ := h.forall₂.mp all
    rw [same names all', List.length_map] at short
    exact ⟨names, _, all', (foldlM_limited add spec (Nat.zero_le _)).mpr ⟨rfl, short⟩, same names all'⟩
  · rintro ⟨names, result, all, done, rfl⟩
    obtain ⟨rfl, short⟩ := (foldlM_limited add spec (Nat.zero_le _)).mp done
    refine ⟨_, h.forall₂.mpr ⟨names, all, rfl⟩, (same names all).symm, ?_⟩
    rw [List.length_map]
    exact short

end Fields

/-! ## The interface keeps the rules -/

namespace Frontend

theorem isFieldName_plain {name : List Nat} (h : IsFieldName name) : ∀ n ∈ name, IsPlain n := by
  intro n mem
  have letter := h.letters n mem
  simp only [isKeyPoint, isLetterPoint, Bool.or_eq_true, Bool.and_eq_true, decide_eq_true_eq] at letter
  exact .inl (by omega)

theorem isKey_iff {key : Units} : isKey key = true ∧ key.length ≤ 32 ↔ IsFieldName (codePoints key) := by
  have letters : ∀ u : UInt16, isLetter u = isLetterPoint u.toNat := fun _ => rfl
  have keys : ∀ u : UInt16, isKeyUnit u = isKeyPoint u.toNat := fun _ => rfl
  constructor
  · rintro ⟨valid, short⟩
    cases key with
    | nil => cases valid
    | cons u rest =>
      rw [isKey, Bool.and_eq_true, List.all_eq_true] at valid
      have all : ∀ w ∈ u :: rest, isKeyPoint w.toNat = true := by
        intro w mem
        obtain rfl | mem := List.mem_cons.mp mem
        · rw [isKeyPoint, ← letters, valid.1]
          rfl
        · exact valid.2 w mem
      have plain : ∀ w ∈ u :: rest, IsPlain w.toNat := by
        intro w mem
        have letter := all w mem
        simp only [isKeyPoint, isLetterPoint, Bool.or_eq_true, Bool.and_eq_true,
          decide_eq_true_eq] at letter
        exact .inl (by omega)
      rw [codePoints_eq_map plain]
      refine ⟨⟨u.toNat, rest.map UInt16.toNat, rfl, valid.1⟩, fun n mem => ?_, ?_⟩
      · obtain ⟨w, there, rfl⟩ := List.mem_map.mp mem
        exact all w there
      · rwa [List.length_map]
  · intro h
    have same := codePoints_eq_map (plain_of_codePoints (isFieldName_plain h))
    rw [same] at h
    obtain ⟨first, rest, split, letter⟩ := h.starts
    obtain ⟨u, rest', rfl, rfl, rfl⟩ := List.map_eq_cons_iff.mp split
    refine ⟨?_, by rw [← List.length_map UInt16.toNat]; exact h.short⟩
    rw [isKey, Bool.and_eq_true, List.all_eq_true]
    exact ⟨letter, fun w mem => h.letters _ (List.mem_cons_of_mem _ (List.mem_map_of_mem mem))⟩

theorem validateLaunchFieldKey_eq_none {key : Units} :
    validateLaunchFieldKey key = none ↔ IsFieldName (codePoints key) := by
  rw [← isKey_iff, validateLaunchFieldKey]
  by_cases valid : isKey key = true
  · by_cases short : key.length ≤ 32
    · rw [if_neg (by simp [valid, maxLaunchFieldKeyLength, short])]
      exact ⟨fun _ => ⟨valid, short⟩, fun _ => rfl⟩
    · rw [if_pos (by simp [maxLaunchFieldKeyLength]; omega)]
      exact ⟨fun never => absurd never (Option.some_ne_none _), fun h => absurd h.2 short⟩
  · rw [if_pos (by simp [valid])]
    exact ⟨fun never => absurd never (Option.some_ne_none _), fun h => absurd h.1 valid⟩

/-- The fields of one argument, in units. -/
def UnitFields (argument : Units) (names : List Units) : Prop :=
  Template (0x24, 0x7b) 0x7d (fun name => IsFieldName (codePoints name)) argument names

theorem rereading_codePoints : Rereading codePoints UInt16.toNat fun u => IsPlain u.toNat where
  split plain := codePoints_split plain
  unsplit plain h := by
    obtain ⟨x', u, y', split, same, hx, hy⟩ := exists_split h plain
    obtain rfl := UInt16.toNat_inj.mp same
    exact ⟨x', y', split, hx, hy⟩
  nil := codePoints_eq_nil

theorem fieldsIn_codePoints {argument : Units} {names : List (List Nat)} :
    FieldsIn (codePoints argument) names ↔
      ∃ names', UnitFields argument names' ∧ names = names'.map codePoints :=
  have dollar : IsPlain (0x24 : UInt16).toNat := .inl (by decide)
  have brace : IsPlain (0x7b : UInt16).toNat := .inl (by decide)
  have closing : IsPlain (0x7d : UInt16).toNat := .inl (by decide)
  @Rereading.template _ _ _ _ _ (0x24, 0x7b) 0x7d _ rereading_codePoints dollar brace closing _ _

/-- **The loop over an argument** reads its fields, and adds them one by one. -/
theorem collectArgument_eq_ok {argument : Units} {index bound cursor : Nat} {fields result : List Units}
    (enough : (argument.drop cursor).length < bound) :
    collectArgument argument index bound cursor fields = .ok result ↔
      ∃ names, UnitFields (argument.drop cursor) names ∧ names.foldlM addField fields = .ok result := by
  induction bound generalizing cursor fields with
  | zero => exact absurd enough (Nat.not_lt_zero _)
  | succ bound ih =>
    have dollar : units "$\x7b" = [0x24, 0x7b] := by decide
    have brace : units "\x7d" = [0x7d] := by decide
    have ne : (0x24 : UInt16) ≠ 0x7b := by decide
    rw [collectArgument, indexOf, dollar]
    unfold UnitFields
    cases opened : find [0x24, 0x7b] (argument.drop cursor) with
    | none =>
      simp only [Option.map_none, @template_of_find_none _ (0x24, 0x7b) _ _ _ _ _ opened, exists_eq_left]
      exact Iff.rfl
    | some start =>
      have later : argument.drop (cursor + start + 2) = (argument.drop cursor).drop (start + 2) := by
        rw [List.drop_drop, Nat.add_assoc]
      simp only [Option.map_some, indexOf, brace, later]
      cases closed : find [0x7d] ((argument.drop cursor).drop (start + 2)) with
      | none =>
        simp only [Option.map_none]
        constructor
        · intro never
          cases never
        · rintro ⟨names, template, _⟩
          exact absurd template (@not_template_of_find _ (0x24, 0x7b) _ _ _ _ _ _ ne opened closed)
      | some length =>
        have key : slice argument (cursor + start + 2) (cursor + start + 2 + length) =
            ((argument.drop cursor).drop (start + 2)).take length := by
          rw [slice, List.drop_take, later, Nat.add_sub_cancel_left]
        have rest : argument.drop (cursor + start + 2 + length + 1) =
            ((argument.drop cursor).drop (start + 2)).drop (length + 1) := by
          rw [← later, List.drop_drop, ← Nat.add_assoc]
        have shorter := @scan_shorter _ (0x24, 0x7b) _ _ _ length opened
        simp only [Option.map_some, key, @template_of_find _ (0x24, 0x7b) _ _ _ _ _ _ _ ne opened closed]
        cases valid : validateLaunchFieldKey
            (((argument.drop cursor).drop (start + 2)).take length) with
        | some error =>
          constructor
          · intro never
            cases never
          · rintro ⟨names, ⟨tail, _, named, _⟩, _⟩
            rw [validateLaunchFieldKey_eq_none.mpr named] at valid
            cases valid
        | none =>
          have named := validateLaunchFieldKey_eq_none.mp valid
          dsimp only
          cases added : addField fields (((argument.drop cursor).drop (start + 2)).take length) with
          | error error =>
            constructor
            · intro never
              cases never
            · rintro ⟨names, ⟨tail, rfl, _⟩, done⟩
              rw [List.foldlM_cons, added] at done
              cases done
          | ok fields' =>
            have tail := @ih (cursor + start + 2 + length + 1) fields' (by rw [rest]; omega)
            rw [rest] at tail
            refine tail.trans ⟨?_, ?_⟩
            · rintro ⟨names, template, done⟩
              refine ⟨_, ⟨names, rfl, named, template⟩, ?_⟩
              rw [List.foldlM_cons, added]
              exact done
            · rintro ⟨names, ⟨tail, rfl, _, template⟩, done⟩
              rw [List.foldlM_cons, added] at done
              exact ⟨tail, template, done⟩

theorem readsFields : ReadsFields codePoints UnitFields where
  template _ _ := fieldsIn_codePoints
  inj a b named same := by
    have plain := isFieldName_plain named
    have ha := codePoints_eq_map (plain_of_codePoints plain)
    rw [same] at plain
    have hb := codePoints_eq_map (plain_of_codePoints plain)
    rw [ha, hb] at same
    exact List.map_injective_iff.mpr (fun _ _ => UInt16.toNat_inj.mp) same

theorem collectFrom_eq_ok {index : Nat} {args fields result : List Units} :
    collectFrom index args fields = .ok result ↔ ∃ names, List.Forall₂ UnitFields args names ∧
      names.flatten.foldlM addField fields = .ok result := by
  induction args generalizing index fields with
  | nil =>
    constructor
    · intro done
      exact ⟨[], .nil, done⟩
    · rintro ⟨names, all, done⟩
      obtain rfl := List.forall₂_nil_left_iff.mp all
      exact done
  | cons argument args ih =>
    rw [collectFrom]
    have first := fun middle => @collectArgument_eq_ok argument index (argument.length + 1) 0 fields middle
      (Nat.lt_succ_self _)
    rw [List.drop_zero] at first
    constructor
    · intro done
      obtain ⟨middle, here, rest⟩ := ok_of_bind.mp done
      obtain ⟨names, template, added⟩ := (first middle).mp here
      obtain ⟨others, all, done⟩ := ih.mp rest
      refine ⟨names :: others, .cons template all, ?_⟩
      rw [List.flatten_cons, List.foldlM_append, added]
      exact done
    · rintro ⟨_, all, done⟩
      obtain ⟨names, others, template, rest, rfl⟩ := List.forall₂_cons_left_iff.mp all
      rw [List.flatten_cons, List.foldlM_append] at done
      obtain ⟨middle, added, done⟩ := ok_of_bind.mp done
      exact ok_of_bind.mpr ⟨middle, (first middle).mpr ⟨names, template, added⟩,
        ih.mpr ⟨others, rest, done⟩⟩

/-- **The fields that the interface finds.** -/
theorem collectLaunchFields_ok {args : List Units} {fields : List (List Nat)} :
    FieldsOf (args.map codePoints) fields ↔
      ∃ result, collectLaunchFields args = .ok result ∧ fields = result.map codePoints := by
  have one : ∀ (seen : List Units) (name : Units), addField seen name = if name ∈ seen then .ok seen
      else if seen.length ≥ 16 then .error (units "Los argumentos no pueden usar más de 16 campos")
      else .ok (seen ++ [name]) := fun _ _ => rfl
  rw [readsFields.fieldsOf _ addField fun seen name => (one seen name).trans (by congr)]
  constructor
  · rintro ⟨names, result, all, done, same⟩
    exact ⟨result, collectFrom_eq_ok.mpr ⟨names, all, done⟩, same⟩
  · rintro ⟨result, done, same⟩
    obtain ⟨names, all, done⟩ := collectFrom_eq_ok.mp done
    exact ⟨names, result, all, done, same⟩

theorem isFrontBlank_plain {n : Nat} (h : isFrontBlank n = true) : IsPlain n := by
  rw [isFrontBlank, Bool.or_eq_true, decide_eq_true_eq] at h
  unfold IsPlain
  obtain shared | mark := h
  · simp only [isSharedBlank, Bool.or_eq_true, Bool.and_eq_true, decide_eq_true_eq] at shared
    omega
  · rw [mark]
    exact .inr (by decide)

theorem codePoints_trim (value : Units) :
    codePoints (trim value) = trimBy isFrontBlank (codePoints value) :=
  codePoints_trimBy (fun _ => isFrontBlank_plain) value

theorem trim_eq_nil {value : Units} :
    trim value = [] ↔ ¬ ∃ n ∈ codePoints value, isFrontBlank n = false := by
  rw [← codePoints_eq_nil, codePoints_trim, trimBy_eq_nil]
  simp

theorem containsControlCharacter_eq_false {value : Units} :
    containsControlCharacter value = false ↔ ∀ n ∈ codePoints value, isControlPoint n = false := by
  rw [containsControlCharacter, List.any_eq_false]
  simp only [Bool.not_eq_true]
  rfl

/-- The loop over the arguments keeps a sum that stays in bounds. -/
theorem checkArguments_eq_none {label : Units} {index total : Nat} {args : List Units} :
    checkArguments label index total args = none ↔
      (∀ argument ∈ args, ArgumentOk isFrontBlank (codePoints argument)) ∧
        (args = [] ∨ total + ((args.map codePoints).map List.length).sum ≤ 16384) := by
  induction args generalizing index total with
  | nil => simp [checkArguments]
  | cons argument args ih =>
    rw [checkArguments, List.forall_mem_cons, List.map_cons, List.map_cons, List.sum_cons]
    split
    next blank =>
      exact ⟨fun never => absurd never (Option.some_ne_none _), fun h => absurd h.1.1.visible (trim_eq_nil.mp blank)⟩
    next some =>
      split
      next control =>
        refine ⟨fun never => absurd never (Option.some_ne_none _), fun h => ?_⟩
        rw [containsControlCharacter_eq_false.mpr h.1.1.printable] at control
        cases control
      next printable =>
        split
        next long =>
          refine ⟨fun never => absurd never (Option.some_ne_none _), fun h => ?_⟩
          exact absurd h.1.1.short (Nat.not_le.mpr long)
        next short =>
          have ok : ArgumentOk isFrontBlank (codePoints argument) :=
            ⟨Classical.not_not.mp (mt trim_eq_nil.mpr some),
              containsControlCharacter_eq_false.mp (Bool.eq_false_iff.mpr printable),
              Nat.not_lt.mp short⟩
          split
          next beyond =>
            refine ⟨fun never => absurd never (Option.some_ne_none _), fun h => ?_⟩
            change total + (codePoints argument).length > 16384 at beyond
            obtain never | within := h.2
            · cases never
            · omega
          next within =>
            change ¬ total + (codePoints argument).length > 16384 at within
            rw [ih]
            constructor
            · rintro ⟨all, none | sum⟩
              · rw [none] at all ⊢
                exact ⟨⟨ok, all⟩, .inr (by simp; omega)⟩
              · refine ⟨⟨ok, all⟩, .inr ?_⟩
                change total + (codePoints argument).length + _ ≤ 16384 at sum
                omega
            · rintro ⟨⟨_, all⟩, never | sum⟩
              · cases never
              · refine ⟨all, .inr ?_⟩
                change total + (codePoints argument).length + _ ≤ 16384
                omega

/-- **The interface accepts** by the rules, with its own white space. -/
theorem validateArgumentList_eq_none {label : Units} {args : List Units} :
    validateArgumentList label (some args) = none ↔ Accepted isFrontBlank (args.map codePoints) := by
  have fields : (∃ fields, FieldsOf (args.map codePoints) fields) ↔
      ∃ result, collectLaunchFields args = .ok result := by
    constructor
    · rintro ⟨fields, found⟩
      obtain ⟨result, done, _⟩ := collectLaunchFields_ok.mp found
      exact ⟨result, done⟩
    · rintro ⟨result, done⟩
      exact ⟨_, collectLaunchFields_ok.mpr ⟨result, done, rfl⟩⟩
  rw [validateArgumentList]
  split
  next many =>
    refine ⟨fun never => absurd never (Option.some_ne_none _), fun h => ?_⟩
    have count := h.count
    rw [List.length_map] at count
    exact absurd many (Nat.not_lt.mpr count)
  next few =>
    rw [Option.or_eq_none_iff, checkArguments_eq_none]
    constructor
    · rintro ⟨⟨each, total⟩, collected⟩
      refine ⟨by rw [List.length_map]; exact Nat.not_lt.mp few, ?_, ?_, fields.mpr ?_⟩
      · intro argument mem
        obtain ⟨argument, there, rfl⟩ := List.mem_map.mp mem
        exact each argument there
      · obtain rfl | sum := total
        · exact Nat.zero_le _
        · rwa [Nat.zero_add] at sum
      · cases done : collectLaunchFields args with
        | ok result => exact ⟨result, rfl⟩
        | error error =>
          rw [done] at collected
          cases collected
    · intro h
      refine ⟨⟨fun argument mem => h.each _ (List.mem_map_of_mem mem), .inr ?_⟩, ?_⟩
      · rw [Nat.zero_add]
        exact h.total
      · obtain ⟨result, done⟩ := fields.mp h.fields
        rw [done]

end Frontend

/-! ## The backend keeps the rules -/

namespace Backend

/-- The code points of a string. -/
def points (value : String) : List Nat := value.toList.map Char.toNat

theorem points_inj {a b : String} (same : points a = points b) : a = b :=
  String.toList_inj.mp (List.map_injective_iff.mpr (fun _ _ => Char.toNat_inj.mp) same)

theorem length_points (value : String) : (points value).length = value.length := by
  rw [points, List.length_map, String.length_toList]

/-- A key of one-byte characters is as long in bytes. -/
theorem utf8ByteSize_of_ascii {value : String} (ascii : ∀ n ∈ points value, n < 128) :
    value.utf8ByteSize = value.length := by
  rw [utf8ByteSize_eq, ← String.length_toList]
  have all : ∀ cs : List Char, (∀ c ∈ cs, c.toNat < 128) → (encode cs).length = cs.length := by
    intro cs
    induction cs with
    | nil => exact fun _ => rfl
    | cons c cs ih =>
      intro small
      have one : c.utf8Size = 1 := by
        have le : c.val ≤ 0x7f := UInt32.le_iff_toNat_le.mpr
          (Nat.le_of_lt_succ (small c List.mem_cons_self))
        exact if_pos le
      rw [encode, List.flatMap_cons, List.length_append, length_encode, one, List.length_cons,
        Nat.add_comm]
      exact congrArg (· + 1) (ih fun d mem => small d (List.mem_cons_of_mem _ mem))
  exact all value.toList fun c mem => ascii _ (List.mem_map_of_mem mem)

theorem length_le_utf8ByteSize (value : String) : value.length ≤ value.utf8ByteSize := by
  rw [utf8ByteSize_eq, ← String.length_toList]
  induction value.toList with
  | nil => exact Nat.le_refl _
  | cons c cs ih =>
    rw [encode, List.flatMap_cons, List.length_append, length_encode, List.length_cons]
    have := c.utf8Size_pos
    change cs.length ≤ (List.flatMap _ cs).length at ih
    omega

theorem validateFieldKey_eq_ok {key : String} :
    validateFieldKey key = .ok () ↔ IsFieldName (points key) := by
  have letter : ∀ c : Char, (isAsciiAlphanumeric c || c = '_' || c = '-') = isKeyPoint c.toNat := by
    intro c
    have underscore : decide (c = '_') = decide (c.toNat = 95) :=
      decide_eq_decide.mpr ⟨fun h => by rw [h]; rfl, fun h => Char.toNat_inj.mp h⟩
    have dash : decide (c = '-') = decide (c.toNat = 45) :=
      decide_eq_decide.mpr ⟨fun h => by rw [h]; rfl, fun h => Char.toNat_inj.mp h⟩
    rw [underscore, dash]
    rfl
  have accepted : validateFieldKey key = .ok () ↔ key.toList.head?.any isAsciiAlphabetic = true ∧
      (key.toList.tail.all fun c => isAsciiAlphanumeric c || c = '_' || c = '-') = true ∧
      key.utf8ByteSize ≤ 32 := by
    unfold validateFieldKey
    dsimp only
    split
    next refused =>
      constructor
      · intro never
        cases never
      · rintro ⟨starts, rest, short⟩
        rw [starts, rest] at refused
        simp [maxLaunchFieldKeyLength] at refused
        omega
    next kept =>
      simp only [Bool.or_eq_true, Bool.not_eq_true', not_or, Bool.not_eq_false] at kept
      have short : key.utf8ByteSize ≤ 32 := Nat.not_lt.mp fun more => kept.2 (decide_eq_true more)
      exact ⟨fun _ => ⟨kept.1.1, kept.1.2, short⟩, fun _ => rfl⟩
  rw [accepted]
  constructor
  · rintro ⟨starts, rest, short⟩
    have lengths := length_le_utf8ByteSize key
    rw [← length_points] at lengths
    unfold points at lengths ⊢
    cases chars : key.toList with
    | nil =>
      rw [chars] at starts
      cases starts
    | cons c cs =>
      rw [chars] at starts rest lengths
      refine ⟨⟨c.toNat, cs.map Char.toNat, rfl, starts⟩, fun n mem => ?_, Nat.le_trans lengths short⟩
      obtain ⟨d, there, rfl⟩ := List.mem_map.mp mem
      obtain rfl | there := List.mem_cons.mp there
      · have first : isLetterPoint d.toNat = true := starts
        rw [isKeyPoint, first]
        rfl
      · rw [← letter]
        exact List.all_eq_true.mp rest d there
  · intro h
    have ascii : ∀ n ∈ points key, n < 128 := by
      intro n mem
      have key := h.letters n mem
      simp only [isKeyPoint, isLetterPoint, Bool.or_eq_true, Bool.and_eq_true,
        decide_eq_true_eq] at key
      omega
    have short := h.short
    rw [length_points, ← utf8ByteSize_of_ascii ascii] at short
    obtain ⟨first, rest, split, starts⟩ := h.starts
    obtain ⟨c, cs, chars, rfl, rfl⟩ := List.map_eq_cons_iff.mp split
    refine ⟨by rw [chars]; exact starts, ?_, short⟩
    rw [List.all_eq_true]
    intro d mem
    rw [letter]
    refine h.letters _ (List.mem_map_of_mem ?_)
    exact List.mem_of_mem_tail mem

/-- The fields of one argument. -/
def StringFields (argument : String) (names : List String) : Prop :=
  Template ('$', '\x7b') '\x7d' (fun name => IsFieldName (name.map Char.toNat)) argument.toList
    (names.map String.toList)

theorem readsFields : ReadsFields points StringFields where
  template argument names := by
    have letters := @Rereading.template _ _ _ _ _ ('$', '\x7b') '\x7d' argument.toList
      (rereading_map fun _ _ => Char.toNat_inj.mp) trivial trivial trivial IsFieldName names
    refine letters.trans ⟨?_, ?_⟩
    · rintro ⟨names', template, rfl⟩
      refine ⟨names'.map String.ofList, ?_, ?_⟩
      · rw [StringFields, List.map_map]
        simpa [Function.comp_def] using template
      · rw [List.map_map]
        refine List.map_congr_left fun name _ => ?_
        rw [Function.comp, points, String.toList_ofList]
    · rintro ⟨names', template, rfl⟩
      exact ⟨_, template, by rw [List.map_map]; rfl⟩
  inj _ _ _ same := points_inj same

theorem templateFieldsFrom_eq_ok {index bound : Nat} {argument : List Char} {keys : List String}
    (enough : argument.length < bound) :
    templateFieldsFrom index bound argument = .ok keys ↔
      Template ('$', '\x7b') '\x7d' (fun name => IsFieldName (name.map Char.toNat)) argument
        (keys.map String.toList) := by
  have ne : '$' ≠ '\x7b' := by decide
  induction bound generalizing argument keys with
  | zero => exact absurd enough (Nat.not_lt_zero _)
  | succ bound ih =>
    rw [templateFieldsFrom]
    cases opened : find ['$', '\x7b'] argument with
    | none =>
      rw [@template_of_find_none _ ('$', '\x7b') _ _ _ _ _ opened, List.map_eq_nil_iff]
      constructor
      · intro done
        cases done
        rfl
      · rintro rfl
        rfl
    | some start =>
      dsimp only
      cases closed : find ['\x7d'] (argument.drop (start + 2)) with
      | none =>
        constructor
        · intro never
          cases never
        · intro template
          exact absurd template (@not_template_of_find _ ('$', '\x7b') _ _ _ _ _ _ ne opened closed)
      | some length =>
        have shorter := @scan_shorter _ ('$', '\x7b') _ _ _ length opened
        have rest : argument.drop (start + 2 + length + 1) =
            (argument.drop (start + 2)).drop (length + 1) := by rw [List.drop_drop, ← Nat.add_assoc]
        have named := @validateFieldKey_eq_ok (String.ofList ((argument.drop (start + 2)).take length))
        rw [points, String.toList_ofList] at named
        rw [@template_of_find _ ('$', '\x7b') _ _ _ _ _ _ _ ne opened closed]
        dsimp only
        rw [rest, ok_of_bind]
        constructor
        · rintro ⟨_, valid, more⟩
          obtain ⟨fields, read, done⟩ := ok_of_bind.mp more
          cases done
          exact ⟨_, by rw [List.map_cons, String.toList_ofList], named.mp valid,
            (ih (by omega)).mp read⟩
        · rintro ⟨others, split, valid, template⟩
          obtain ⟨key, fields, rfl, hkey, rfl⟩ := List.map_eq_cons_iff.mp split
          refine ⟨(), named.mpr valid, ok_of_bind.mpr ⟨fields, (ih (by omega)).mpr template, ?_⟩⟩
          rw [← hkey, String.ofList_toList]

theorem templateFields_eq_ok {argument : String} {index : Nat} {keys : List String} :
    templateFields argument index = .ok keys ↔ StringFields argument keys :=
  templateFieldsFrom_eq_ok (by rw [String.length_toList]; exact Nat.lt_succ_self _)

theorem extractFrom_eq_ok {index : Nat} {args fields result : List String} :
    extractFrom index args fields = .ok result ↔ ∃ names, List.Forall₂ StringFields args names ∧
      names.flatten.foldlM addField fields = .ok result := by
  induction args generalizing index fields with
  | nil =>
    constructor
    · intro done
      exact ⟨[], .nil, done⟩
    · rintro ⟨names, all, done⟩
      obtain rfl := List.forall₂_nil_left_iff.mp all
      exact done
  | cons argument args ih =>
    rw [extractFrom, ok_of_bind]
    constructor
    · rintro ⟨names, read, more⟩
      obtain ⟨middle, added, rest⟩ := ok_of_bind.mp more
      obtain ⟨others, all, done⟩ := ih.mp rest
      refine ⟨names :: others, .cons (templateFields_eq_ok.mp read) all, ?_⟩
      rw [List.flatten_cons, List.foldlM_append, added]
      exact done
    · rintro ⟨_, all, done⟩
      obtain ⟨names, others, template, rest, rfl⟩ := List.forall₂_cons_left_iff.mp all
      rw [List.flatten_cons, List.foldlM_append] at done
      obtain ⟨middle, added, done⟩ := ok_of_bind.mp done
      exact ⟨names, templateFields_eq_ok.mpr template,
        ok_of_bind.mpr ⟨middle, added, ih.mpr ⟨others, rest, done⟩⟩⟩

/-- **The fields that the backend finds.** -/
theorem extractLaunchFields_ok {args : List String} {fields : List (List Nat)} :
    FieldsOf (args.map points) fields ↔
      ∃ result, extractLaunchFields args = .ok result ∧ fields = result.map points := by
  have one : ∀ (seen : List String) (name : String), addField seen name =
      if name ∈ seen then .ok seen
      else if seen.length ≥ 16 then .error "Los argumentos no pueden usar más de 16 campos"
      else .ok (seen ++ [name]) := fun _ _ => rfl
  rw [readsFields.fieldsOf _ addField fun seen name => (one seen name).trans (by congr)]
  constructor
  · rintro ⟨names, result, all, done, same⟩
    exact ⟨result, extractFrom_eq_ok.mpr ⟨names, all, done⟩, same⟩
  · rintro ⟨result, done, same⟩
    obtain ⟨names, all, done⟩ := extractFrom_eq_ok.mp done
    exact ⟨names, result, all, done, same⟩

theorem isWhitespace_eq (c : Char) : isWhitespace c = isBackBlank c.toNat := by
  unfold isWhitespace isBackBlank isSharedBlank nextLine
  generalize c.toNat = n
  rw [Bool.eq_iff_iff]
  simp only [Bool.or_eq_true, Bool.and_eq_true, decide_eq_true_eq]
  omega

theorem trim_eq_nil {value : String} :
    trim value = [] ↔ ¬ ∃ n ∈ points value, isBackBlank n = false := by
  rw [trim, trimBy_eq_nil]
  simp only [isWhitespace_eq, points, List.mem_map, not_exists, not_and, Bool.not_eq_false]
  constructor
  · rintro all n ⟨c, mem, rfl⟩
    exact all c mem
  · intro all c mem
    exact all c.toNat ⟨c, mem, rfl⟩

theorem containsControlCharacter_eq_false {value : String} :
    containsControlCharacter value = false ↔ ∀ n ∈ points value, isControlPoint n = false := by
  rw [containsControlCharacter, List.any_eq_false]
  simp only [Bool.not_eq_true, points, List.mem_map]
  constructor
  · rintro all n ⟨c, mem, rfl⟩
    exact all c mem
  · intro all c mem
    exact all c.toNat ⟨c, mem, rfl⟩

theorem checkArguments_eq_ok {label : String} {index total : Nat} {args : List String} :
    checkArguments label index total args = .ok () ↔
      (∀ argument ∈ args, ArgumentOk isBackBlank (points argument) ∧
          ∃ names, StringFields argument names) ∧
        (args = [] ∨ total + ((args.map points).map List.length).sum ≤ 16384) := by
  induction args generalizing index total with
  | nil => simp [checkArguments]
  | cons argument args ih =>
    rw [checkArguments, List.forall_mem_cons, List.map_cons, List.map_cons, List.sum_cons]
    split
    next blank =>
      refine (iff_false_left (error_ne_ok _ _)).mpr fun h => ?_
      exact trim_eq_nil.mp blank h.1.1.1.visible
    next some =>
      split
      next control =>
        refine (iff_false_left (error_ne_ok _ _)).mpr fun h => ?_
        rw [containsControlCharacter_eq_false.mpr h.1.1.1.printable] at control
        cases control
      next printable =>
        split
        next long =>
          refine (iff_false_left (error_ne_ok _ _)).mpr fun h => ?_
          have short := h.1.1.1.short
          rw [length_points] at short
          exact absurd long (Nat.not_lt.mpr short)
        next short =>
          have ok : ArgumentOk isBackBlank (points argument) :=
            ⟨Classical.not_not.mp (mt trim_eq_nil.mpr some),
              containsControlCharacter_eq_false.mp (Bool.eq_false_iff.mpr printable),
              by rw [length_points]; exact Nat.not_lt.mp short⟩
          have length : (points argument).length = argument.length := length_points argument
          split
          next beyond =>
            refine (iff_false_left (error_ne_ok _ _)).mpr fun h => ?_
            change total + argument.length > 16384 at beyond
            obtain never | within := h.2
            · cases never
            · omega
          next within =>
            change ¬ total + argument.length > 16384 at within
            rw [ok_of_bind]
            simp only [ih]
            constructor
            · rintro ⟨names, read, all, none | sum⟩
              · rw [none] at all ⊢
                exact ⟨⟨⟨ok, names, templateFields_eq_ok.mp read⟩, all⟩, .inr (by simp; omega)⟩
              · exact ⟨⟨⟨ok, names, templateFields_eq_ok.mp read⟩, all⟩, .inr (by omega)⟩
            · rintro ⟨⟨⟨_, names, template⟩, all⟩, never | sum⟩
              · cases never
              · exact ⟨names, templateFields_eq_ok.mpr template, all, .inr (by omega)⟩

/-- **The backend accepts** by the rules, with its own white space. -/
theorem validateArgumentList_eq_ok {label : String} {args : List String} :
    validateArgumentList label args = .ok () ↔ Accepted isBackBlank (args.map points) := by
  have fields : (∃ fields, FieldsOf (args.map points) fields) ↔
      ∃ result, extractLaunchFields args = .ok result := by
    constructor
    · rintro ⟨fields, found⟩
      obtain ⟨result, done, _⟩ := extractLaunchFields_ok.mp found
      exact ⟨result, done⟩
    · rintro ⟨result, done⟩
      exact ⟨_, extractLaunchFields_ok.mpr ⟨result, done, rfl⟩⟩
  rw [validateArgumentList]
  split
  next many =>
    refine (iff_false_left (error_ne_ok _ _)).mpr fun h => ?_
    have count := h.count
    rw [List.length_map] at count
    exact absurd many (Nat.not_lt.mpr count)
  next few =>
    constructor
    · intro done
      obtain ⟨_, checked, more⟩ := ok_of_bind.mp done
      obtain ⟨result, collected, _⟩ := ok_of_bind.mp more
      obtain ⟨each, total⟩ := checkArguments_eq_ok.mp checked
      refine ⟨by rw [List.length_map]; exact Nat.not_lt.mp few, ?_, ?_, fields.mpr ⟨result, collected⟩⟩
      · intro argument mem
        obtain ⟨argument, there, rfl⟩ := List.mem_map.mp mem
        exact (each argument there).1
      · obtain rfl | sum := total
        · exact Nat.zero_le _
        · rwa [Nat.zero_add] at sum
    · intro h
      obtain ⟨result, done⟩ := fields.mp h.fields
      obtain ⟨names, all, _⟩ := extractFrom_eq_ok.mp done
      refine ok_of_bind.mpr ⟨(), checkArguments_eq_ok.mpr
        ⟨fun argument mem => ⟨h.each _ (List.mem_map_of_mem mem), ?_⟩, .inr ?_⟩,
        ok_of_bind.mpr ⟨result, done, rfl⟩⟩
      · obtain ⟨i, lt, rfl⟩ := List.mem_iff_getElem.mp mem
        have others := all.length_eq
        exact ⟨_, all.get lt (others ▸ lt)⟩
      · rw [Nat.zero_add]
        exact h.total

end Backend

end RoLauncher.Contracts
