import RoLauncher.Contracts.Rules
import RoLauncher.Tables.Table
import RoLauncher.Text.Slices

/-!
# Launch arguments with their values (`models/launch.rs`)

The backend checks the templates, then the values, and then fills the values
in. Each of these reads the templates on its own, by the offsets of bytes. The
scans never slice inside a character and come to an end (`scanFields_eq`,
`renderArgument_eq`), and all of them find the same fields.

What is filled in is not read again: an argument is its template with each
field replaced, once, whatever the values look like (`renderLaunchArgs_eq`). Filling in
can make an argument too long, or all of them together; that is refused too.
-/

namespace RoLauncher.Contracts.Backend

open Text Results Tables

def maxLaunchValueLength : Nat := 4096

abbrev LaunchValues := Table String String

/-! ## Scanning by bytes -/

/-- A scan reports an error, or slices where it cannot, or does not end: then it is none. -/
abbrev Scan := ExceptT String Option

def sliced {α : Type} (part : Option α) : Scan α := ExceptT.lift part

def checked {α : Type} (result : Except String α) : Scan α := ExceptT.mk (some result)

def unclosed (index : Nat) : String :=
  "El argumento " ++ toString (index + 1) ++ " contiene un campo de lanzamiento sin cerrar"

/-- The loop of `template_fields`. -/
def scanFrom (argument : List Char) (index : Nat) : Nat → Nat → Scan (List String)
  | 0, _ => ExceptT.mk none
  | bound + 1, cursor => do
    let tail ← sliced (sliceFrom argument cursor)
    match byteFind ['$', '\x7b'] tail with
    | none => return []
    | some relativeStart =>
      let keyStart := cursor + relativeStart + 2
      let tail ← sliced (sliceFrom argument keyStart)
      match byteFind ['\x7d'] tail with
      | none => checked (.error (unclosed index))
      | some relativeEnd =>
        let key ← sliced (slice argument keyStart (keyStart + relativeEnd))
        checked (validateFieldKey (String.ofList key))
        let fields ← scanFrom argument index bound (keyStart + relativeEnd + 1)
        return String.ofList key :: fields

def scanFields (argument : String) (index : Nat) : Scan (List String) :=
  scanFrom argument.toList index (argument.length + 1) 0

def missingValue (key : String) : String :=
  "Falta el valor del campo de lanzamiento '$\x7b" ++ key ++ "\x7d'"

/-- The loop of `render_argument`. -/
def renderFrom (argument : List Char) (index : Nat) (values : LaunchValues) :
    Nat → Nat → List Char → Scan String
  | 0, _, _ => ExceptT.mk none
  | bound + 1, cursor, rendered => do
    let tail ← sliced (sliceFrom argument cursor)
    match byteFind ['$', '\x7b'] tail with
    | none =>
      let tail ← sliced (sliceFrom argument cursor)
      return String.ofList (rendered ++ tail)
    | some relativeStart =>
      let start := cursor + relativeStart
      let before ← sliced (slice argument cursor start)
      let tail ← sliced (sliceFrom argument (start + 2))
      match byteFind ['\x7d'] tail with
      | none => checked (.error (unclosed index))
      | some relativeEnd =>
        let key ← sliced (slice argument (start + 2) (start + 2 + relativeEnd))
        checked (validateFieldKey (String.ofList key))
        match values.lookup (String.ofList key) with
        | none => checked (.error (missingValue (String.ofList key)))
        | some value =>
          renderFrom argument index values bound (start + 2 + relativeEnd + 1)
            (rendered ++ before ++ value.toList)

def renderArgument (argument : String) (index : Nat) (values : LaunchValues) : Scan String :=
  renderFrom argument.toList index values (argument.length + 1) 0 []

/-! ## Values -/

def checkValue (required : List String) (key value : String) : Except String Unit := do
  validateFieldKey key
  let named := "del campo de lanzamiento '$\x7b" ++ key ++ "\x7d'"
  if key ∉ required then .error ("El campo de lanzamiento '$\x7b" ++ key ++ "\x7d' no es esperado")
  else if value.toList = [] then .error ("El valor " ++ named ++ " no puede estar vacío")
  else if containsControlCharacter value then
    .error ("El valor " ++ named ++ " contiene un carácter de control")
  else if value.length > maxLaunchValueLength then
    .error ("El valor " ++ named ++ " supera 4096 caracteres")
  else .ok ()

/-- The map is walked in some order, the fields in theirs. -/
def validateValues (required : List String) (values : LaunchValues) : Except String Unit :=
  if values.entries.length > maxLaunchFields then
    .error "No se pueden proporcionar más de 16 valores de lanzamiento"
  else do
    values.entries.forM fun entry => checkValue required entry.1 entry.2
    required.forM fun key =>
      if (values.lookup key).isNone then .error (missingValue key) else .ok ()

/-! ## Rendering -/

/-- The loop of `render_launch_args`. -/
def renderLoop (values : LaunchValues) : Nat → Nat → List String → Scan (List String)
  | _, _, [] => return []
  | index, totalLength, argument :: args => do
    let value ← renderArgument argument index values
    if value.length > maxLaunchArgumentLength then
      checked (.error ("El argumento de lanzamiento " ++ toString (index + 1) ++
        " supera 4096 caracteres tras resolver sus campos"))
    else if totalLength + value.length > maxLaunchTotalLength then
      checked (.error "Los argumentos de lanzamiento superan 16384 caracteres en total")
    else
      let rendered ← renderLoop values (index + 1) (totalLength + value.length) args
      return value :: rendered

def renderLaunchArgs (args : List String) (values : LaunchValues) : Scan (List String) := do
  checked (validateArgumentList "de lanzamiento" args)
  let required ← checked (extractLaunchFields args)
  checked (validateValues required values)
  renderLoop values 0 0 args

/-! ## The scans -/

section Scans

variable {α β : Type}

theorem sliced_bind {part : Option α} {a : α} (whole : part = some a) (f : α → Scan β) :
    (sliced part >>= f) = f a := by
  rw [whole]
  rfl

theorem checked_ok (a : α) (f : α → Scan β) : (checked (.ok a) >>= f) = f a := rfl

variable {argument seen rest : List Char} {i j : Nat}

/-- What is sliced before a field, when everything up to `seen` has been read. -/
theorem tail_of_find (split : argument = seen ++ rest) (opened : find ['$', '\x7b'] rest = some i) :
    slice argument (byteLength seen) (byteLength seen + byteLength (rest.take i)) =
        some (rest.take i) ∧
      sliceFrom argument (byteLength seen + byteLength (rest.take i) + 2) =
        some (rest.drop (i + 2)) ∧
      argument = (seen ++ rest.take i ++ ['$', '\x7b']) ++ rest.drop (i + 2) ∧
      byteLength (seen ++ rest.take i ++ ['$', '\x7b']) =
        byteLength seen + byteLength (rest.take i) + 2 := by
  obtain ⟨before, whole, length, -⟩ := @find_opening _ ('$', '\x7b') _ _ _ opened
  have first : rest.take i = before := by
    rw [whole, ← length, List.take_left]
  rw [first]
  have cut : argument = (seen ++ before ++ ['$', '\x7b']) ++ rest.drop (i + 2) := by
    rw [split]
    nth_rewrite 1 [whole]
    rw [List.append_assoc, List.append_assoc]
    rfl
  have bytes : byteLength (seen ++ before ++ ['$', '\x7b']) =
      byteLength seen + byteLength before + 2 := by
    rw [byteLength_append, byteLength_append]
    rfl
  refine ⟨?_, ?_, cut, bytes⟩
  · rw [split, whole]
    exact slice_append
  · rw [← bytes, cut]
    exact sliceFrom_append

/-- What is sliced at a field, and where the scan goes on. -/
theorem key_of_find (split : argument = seen ++ rest) (closed : find ['\x7d'] rest = some j) :
    slice argument (byteLength seen) (byteLength seen + byteLength (rest.take j)) =
        some (rest.take j) ∧
      argument = (seen ++ rest.take j ++ ['\x7d']) ++ rest.drop (j + 1) ∧
      byteLength (seen ++ rest.take j ++ ['\x7d']) = byteLength seen + byteLength (rest.take j) + 1 := by
  obtain ⟨whole, -⟩ := find_closing closed
  have cut : argument = (seen ++ rest.take j ++ ['\x7d']) ++ rest.drop (j + 1) := by
    rw [split]
    nth_rewrite 1 [whole]
    rw [List.append_assoc, List.append_assoc]
    rfl
  refine ⟨?_, cut, ?_⟩
  · rw [cut, List.append_assoc, List.append_assoc]
    exact slice_append
  · rw [byteLength_append, byteLength_append]
    rfl

theorem byteFind_none {pattern text : List Char} (missing : find pattern text = none) :
    byteFind pattern text = none := by
  rw [byteFind, missing]
  rfl

theorem byteFind_some {pattern text : List Char} (found : find pattern text = some i) :
    byteFind pattern text = some (byteLength (text.take i)) := by
  rw [byteFind, found]
  rfl

/-- **The scan for fields**, by bytes and by characters. -/
theorem scanFrom_eq {index bound : Nat} (split : argument = seen ++ rest) (enough : rest.length < bound) :
    scanFrom argument index bound (byteLength seen) = checked (templateFieldsFrom index bound rest) := by
  induction bound generalizing seen rest with
  | zero => exact absurd enough (Nat.not_lt_zero _)
  | succ bound ih =>
    have whole : sliceFrom argument (byteLength seen) = some rest := by
      rw [split]
      exact sliceFrom_append
    rw [scanFrom, templateFieldsFrom, sliced_bind whole]
    cases opened : find ['$', '\x7b'] rest with
    | none =>
      rw [byteFind_none opened]
      rfl
    | some i =>
      obtain ⟨-, tail, cut, bytes⟩ := tail_of_find split opened
      rw [byteFind_some opened]
      dsimp only
      rw [sliced_bind tail]
      cases closed : find ['\x7d'] (rest.drop (i + 2)) with
      | none =>
        rw [byteFind_none closed]
        rfl
      | some j =>
        obtain ⟨key, cut', bytes'⟩ := key_of_find cut closed
        rw [bytes] at key bytes'
        have shorter := @scan_shorter _ ('$', '\x7b') _ _ _ j opened
        have later : rest.drop (i + 2 + j + 1) = (rest.drop (i + 2)).drop (j + 1) := by
          rw [List.drop_drop, ← Nat.add_assoc]
        have more := ih cut' (by omega)
        rw [byteFind_some closed]
        dsimp only
        rw [sliced_bind key, later]
        cases valid : validateFieldKey (String.ofList ((rest.drop (i + 2)).take j)) with
        | error error => rfl
        | ok _ =>
          rw [checked_ok, ← bytes', more]
          cases templateFieldsFrom index bound ((rest.drop (i + 2)).drop (j + 1)) with
          | error error => rfl
          | ok fields => rfl

theorem scanFields_eq (argument : String) (index : Nat) :
    scanFields argument index = checked (templateFields argument index) :=
  scanFrom_eq (List.nil_append _).symm (by rw [String.length_toList]; exact Nat.lt_succ_self _)

/-- A template and its text. -/
def FilledIn (text : List Char → Option (List Char)) (argument rendered : String) : Prop :=
  Filled ('$', '\x7b') '\x7d' text argument.toList rendered.toList

/-- The text of a field with a valid name. -/
def fieldText (values : LaunchValues) (name : List Char) : Option (List Char) :=
  ((validateFieldKey (String.ofList name)).toOption.bind fun _ =>
    values.lookup (String.ofList name)).map String.toList

/-- **The scan that fills in** does so once, from the left. -/
theorem renderFrom_eq {index bound : Nat} {values : LaunchValues} {rendered : List Char}
    (split : argument = seen ++ rest) (enough : rest.length < bound) :
    ∃ result, renderFrom argument index values bound (byteLength seen) rendered = checked result ∧
      ∀ text, result = .ok text ↔ ∃ out, Filled ('$', '\x7b') '\x7d' (fieldText values) rest out ∧
        text.toList = rendered ++ out := by
  have ne : '$' ≠ '\x7b' := by decide
  induction bound generalizing seen rest rendered with
  | zero => exact absurd enough (Nat.not_lt_zero _)
  | succ bound ih =>
    have whole : sliceFrom argument (byteLength seen) = some rest := by
      rw [split]
      exact sliceFrom_append
    rw [renderFrom, sliced_bind whole]
    cases opened : find ['$', '\x7b'] rest with
    | none =>
      rw [byteFind_none opened]
      dsimp only
      rw [sliced_bind whole]
      refine ⟨.ok (String.ofList (rendered ++ rest)), rfl, fun text => ?_⟩
      simp only [@filled_of_find_none _ ('$', '\x7b') _ _ _ _ _ opened, exists_eq_left]
      constructor
      · intro same
        cases same
        rw [String.toList_ofList]
      · intro same
        rw [← same, String.ofList_toList]
    | some i =>
      obtain ⟨before, tail, cut, bytes⟩ := tail_of_find split opened
      rw [byteFind_some opened]
      dsimp only
      rw [sliced_bind before, sliced_bind tail]
      cases closed : find ['\x7d'] (rest.drop (i + 2)) with
      | none =>
        rw [byteFind_none closed]
        refine ⟨.error (unclosed index), rfl, fun text => ?_⟩
        refine (iff_false_left (error_ne_ok _ _)).mpr ?_
        rintro ⟨out, filled, -⟩
        exact @not_filled_of_find _ ('$', '\x7b') _ _ _ _ _ _ ne opened closed filled
      | some j =>
        obtain ⟨key, cut', bytes'⟩ := key_of_find cut closed
        rw [bytes] at key bytes'
        have shorter := @scan_shorter _ ('$', '\x7b') _ _ _ j opened
        have round := fun out => @filled_of_find _ ('$', '\x7b') _ (fieldText values) _ out _ _ _ ne
          opened closed
        rw [byteFind_some closed]
        dsimp only
        rw [sliced_bind key]
        have refused (error : String)
            (missing : fieldText values ((rest.drop (i + 2)).take j) = none) :
            ∃ result, (checked (.error error) : Scan String) = checked result ∧
              ∀ text, result = .ok text ↔ ∃ out,
                Filled ('$', '\x7b') '\x7d' (fieldText values) rest out ∧
                  text.toList = rendered ++ out := by
          refine ⟨.error error, rfl, fun text => (iff_false_left (error_ne_ok _ _)).mpr ?_⟩
          rintro ⟨out, filled, -⟩
          obtain ⟨field, -, named, -⟩ := (round out).mp filled
          rw [missing] at named
          cases named
        cases valid : validateFieldKey (String.ofList ((rest.drop (i + 2)).take j)) with
        | error error =>
          apply refused error
          rw [fieldText, valid]
          rfl
        | ok _ =>
          rw [checked_ok]
          cases found : values.lookup (String.ofList ((rest.drop (i + 2)).take j)) with
          | none =>
            apply refused
            rw [fieldText, valid, found]
            rfl
          | some value =>
            have named : fieldText values ((rest.drop (i + 2)).take j) = some value.toList := by
              rw [fieldText, valid, found]
              rfl
            obtain ⟨result, done, spec⟩ := @ih _ _ (rendered ++ rest.take i ++ value.toList) cut'
              (by omega)
            rw [bytes'] at done
            refine ⟨result, done, fun text => (spec text).trans ?_⟩
            constructor
            · rintro ⟨out, filled, same⟩
              refine ⟨_, (round _).mpr ⟨value.toList, out, named, filled, rfl⟩, ?_⟩
              rw [same, List.append_assoc, List.append_assoc]
            · rintro ⟨_, filled, same⟩
              obtain ⟨field, out, named', later, rfl⟩ := (round _).mp filled
              rw [named] at named'
              cases named'
              refine ⟨out, later, ?_⟩
              rw [same, List.append_assoc, List.append_assoc]

theorem renderArgument_eq (argument : String) (index : Nat) (values : LaunchValues) :
    ∃ result, renderArgument argument index values = checked result ∧
      ∀ text, result = .ok text ↔
        FilledIn (fieldText values) argument text := by
  obtain ⟨result, done, spec⟩ := @renderFrom_eq argument.toList [] argument.toList index
    (argument.length + 1) values [] (List.nil_append _).symm
    (by rw [String.length_toList]; exact Nat.lt_succ_self _)
  refine ⟨result, done, fun text => (spec text).trans ?_⟩
  simp only [List.nil_append, exists_eq_right']
  exact Iff.rfl

end Scans

/-! ## The rules -/

/-- A value that may be filled in. -/
structure ValueOk (value : String) : Prop where
  some : value.toList ≠ []
  printable : ∀ n ∈ points value, isControlPoint n = false
  short : value.length ≤ 4096

/-- A field of the templates. -/
def Declares (args : List String) (key : String) : Prop :=
  ∃ fields, FieldsOf (args.map points) fields ∧ points key ∈ fields

def valueText (values : LaunchValues) (name : List Char) : Option (List Char) :=
  (values.lookup (String.ofList name)).map String.toList

/-- What the templates are with the values filled in. -/
def Renders (values : LaunchValues) (args rendered : List String) : Prop :=
  List.Forall₂ (FilledIn (valueText values)) args rendered

/-- It is short enough, one by one and all together. -/
structure Fits (rendered : List String) : Prop where
  each : ∀ text ∈ rendered, text.length ≤ 4096
  total : (rendered.map String.length).sum ≤ 16384

section Values

variable {required : List String} {values : LaunchValues} {key value : String}

theorem checkValue_eq_ok (valid : IsFieldName (points key) ∨ key ∉ required) :
    checkValue required key value = .ok () ↔ key ∈ required ∧ ValueOk value := by
  unfold checkValue
  rw [ok_of_bind]
  constructor
  · rintro ⟨_, -, done⟩
    dsimp only at done
    split at done
    next => cases done
    next expected =>
    split at done
    next => cases done
    next some =>
    split at done
    next => cases done
    next printable =>
    split at done
    next => cases done
    next short =>
    refine ⟨Classical.not_not.mp expected, some, ?_, Nat.not_lt.mp short⟩
    exact containsControlCharacter_eq_false.mp (Bool.eq_false_iff.mpr printable)
  · rintro ⟨expected, ok⟩
    have named : validateFieldKey key = .ok () := by
      rcases valid with named | never
      · exact validateFieldKey_eq_ok.mpr named
      · exact absurd expected never
    have short : ¬ value.length > maxLaunchValueLength := Nat.not_lt.mpr ok.short
    refine ⟨(), named, ?_⟩
    dsimp only
    rw [if_neg (not_not_intro expected), if_neg ok.some,
      if_neg (Bool.eq_false_iff.mp (containsControlCharacter_eq_false.mpr ok.printable)),
      if_neg short]

/-- The values are those of the fields, each of them allowed. -/
theorem validateValues_eq_ok (named : ∀ key ∈ required, IsFieldName (points key))
    (few : required.length ≤ 16) :
    validateValues required values = .ok () ↔
      (∀ key, (values.lookup key).isSome ↔ key ∈ required) ∧
        ∀ key value, values.lookup key = some value → ValueOk value := by
  have entries : (∀ entry ∈ values.entries, checkValue required entry.1 entry.2 = .ok ()) ↔
      ∀ key value, values.lookup key = some value → key ∈ required ∧ ValueOk value := by
    constructor
    · intro all key value found
      have checked := all ⟨key, value⟩ (AList.mem_lookup_iff.mp found)
      by_cases there : key ∈ required
      · exact (checkValue_eq_ok (.inl (named key there))).mp checked
      · exact (checkValue_eq_ok (.inr there)).mp checked
    · intro all entry mem
      have found : values.lookup entry.1 = some entry.2 := AList.mem_lookup_iff.mpr mem
      have ok := all entry.1 entry.2 found
      exact (checkValue_eq_ok (.inl (named entry.1 ok.1))).mpr ok
  have missing : (∀ key ∈ required,
      (if (values.lookup key).isNone then .error (missingValue key) else .ok ()) =
        (.ok () : Except String Unit)) ↔ ∀ key ∈ required, (values.lookup key).isSome := by
    apply forall₂_congr
    intro key _
    cases values.lookup key with
    | none => simp
    | some value => simp
  unfold validateValues
  split
  next many =>
    refine (iff_false_left (error_ne_ok _ _)).mpr ?_
    rintro ⟨same, -⟩
    have sub : values.keys ⊆ required := by
      intro key mem
      exact (same key).mp (AList.lookup_isSome.mpr (AList.mem_keys.mp mem))
    have length : values.keys.length ≤ required.length :=
      (List.subperm_of_subset values.keys_nodup sub).length_le
    have same : values.keys.length = values.entries.length := List.length_map _
    change values.entries.length > 16 at many
    omega
  next =>
    rw [ok_of_bind]
    constructor
    · rintro ⟨⟨⟩, each, all⟩
      have ok := entries.mp (forM_eq_ok.mp each)
      have some := missing.mp (forM_eq_ok.mp all)
      refine ⟨fun key => ⟨fun found => ?_, some key⟩, fun key value found => (ok key value found).2⟩
      obtain ⟨value, found⟩ := Option.isSome_iff_exists.mp found
      exact (ok key value found).1
    · rintro ⟨same, ok⟩
      refine ⟨(), forM_eq_ok.mpr (entries.mpr fun key value found => ⟨?_, ok key value found⟩),
        forM_eq_ok.mpr (missing.mpr fun key mem => (same key).mpr mem)⟩
      exact (same key).mp (Option.isSome_iff_exists.mpr ⟨value, found⟩)

end Values

/-! ## Rendering the list -/

section Loop

variable {values : LaunchValues} {args rendered : List String}

/-- One argument after the other: each is filled in, and fits with those before it. -/
theorem renderLoop_eq (index total : Nat) :
    ∃ result, renderLoop values index total args = checked result ∧
      ∀ rendered, result = .ok rendered ↔
        List.Forall₂ (FilledIn (fieldText values)) args rendered ∧
        (∀ text ∈ rendered, text.length ≤ 4096) ∧
          (rendered = [] ∨ total + (rendered.map String.length).sum ≤ 16384) := by
  induction args generalizing index total with
  | nil =>
    refine ⟨.ok [], rfl, fun rendered => ?_⟩
    rw [List.forall₂_nil_left_iff]
    constructor
    · intro done
      cases done
      exact ⟨rfl, by simp, .inl rfl⟩
    · rintro ⟨rfl, -⟩
      rfl
  | cons argument args ih =>
    obtain ⟨first, done, spec⟩ := renderArgument_eq argument index values
    rw [renderLoop, done]
    simp only [List.forall₂_cons_left_iff]
    have refused (error : String) (never : ∀ text, FilledIn (fieldText values) argument text →
        text.length ≤ 4096 → ¬ total + text.length ≤ 16384) :
        ∃ result, (checked (.error error) : Scan (List String)) = checked result ∧
          ∀ rendered, result = .ok rendered ↔
            (∃ text texts, FilledIn (fieldText values) argument text ∧
              List.Forall₂ (FilledIn (fieldText values)) args texts ∧ rendered = text :: texts) ∧
            (∀ text ∈ rendered, text.length ≤ 4096) ∧
              (rendered = [] ∨ total + (rendered.map String.length).sum ≤ 16384) := by
      refine ⟨.error error, rfl, fun rendered => (iff_false_left (error_ne_ok _ _)).mpr ?_⟩
      rintro ⟨⟨text, rest, filled, -, rfl⟩, short, none | sum⟩
      · cases none
      · refine never text filled (short text List.mem_cons_self) ?_
        rw [List.map_cons, List.sum_cons] at sum
        omega
    cases first with
    | error error =>
      apply refused error
      intro text filled
      exact absurd ((spec text).mpr filled) (error_ne_ok _ _)
    | ok value =>
      have filled := (spec value).mp rfl
      have same : ∀ text, FilledIn (fieldText values) argument text → value = text := by
        intro text filled'
        exact (Except.ok.inj ((spec text).mpr filled'))
      rw [checked_ok]
      split
      next long =>
        apply refused
        intro text filled' short
        rw [← same text filled'] at short
        exact absurd long (Nat.not_lt.mpr short)
      next short =>
      split
      next beyond =>
        apply refused
        intro text filled' _ within
        rw [← same text filled'] at within
        exact absurd beyond (Nat.not_lt.mpr within)
      next within =>
        change ¬ value.length > 4096 at short
        change ¬ total + value.length > 16384 at within
        obtain ⟨rest, done', spec'⟩ := ih (index + 1) (total + value.length)
        rw [done']
        refine ⟨rest.map (value :: ·), by cases rest <;> rfl, fun rendered => ?_⟩
        constructor
        · intro whole
          cases rest with
          | error error => cases whole
          | ok texts =>
            cases whole
            obtain ⟨all, each, sum⟩ := (spec' texts).mp rfl
            refine ⟨⟨value, texts, filled, all, rfl⟩, ?_, .inr ?_⟩
            · rw [List.forall_mem_cons]
              exact ⟨Nat.not_lt.mp short, each⟩
            · rw [List.map_cons, List.sum_cons]
              rcases sum with rfl | sum
              · rw [List.map_nil, List.sum_nil]
                omega
              · omega
        · rintro ⟨⟨text, texts, filled', all, rfl⟩, each, none | sum⟩
          · cases none
          · rw [List.forall_mem_cons] at each
            rw [List.map_cons, List.sum_cons] at sum
            obtain rfl := same text filled'
            rw [(spec' texts).mpr ⟨all, each.2, .inr (by omega)⟩]
            rfl

/-- The names in accepted templates are valid, so their texts are the values. -/
theorem filledIn_fieldText {argument text : String} {names : List String}
    (fields : StringFields argument names) :
    FilledIn (fieldText values) argument text ↔ FilledIn (valueText values) argument text := by
  apply Template.filled_congr (by decide : '$' ≠ '\x7b') fields
  intro name named
  have valid : validateFieldKey (String.ofList name) = .ok () :=
    validateFieldKey_eq_ok.mpr (by rwa [points, String.toList_ofList])
  rw [fieldText, valid, valueText]
  rfl

theorem renders_fieldText {names : List (List String)} (all : List.Forall₂ StringFields args names) :
    List.Forall₂ (FilledIn (fieldText values)) args rendered ↔ Renders values args rendered := by
  unfold Renders
  induction all generalizing rendered with
  | nil => rw [List.forall₂_nil_left_iff, List.forall₂_nil_left_iff]
  | cons fields _ ih =>
    rw [List.forall₂_cons_left_iff, List.forall₂_cons_left_iff]
    simp only [ih, filledIn_fieldText fields]

theorem mem_foldl_addNew {α : Type} [DecidableEq α] {names seen : List α} {name : α} :
    name ∈ names.foldl addNew seen ↔ name ∈ seen ∨ name ∈ names := by
  induction names generalizing seen with
  | nil => simp
  | cons first names ih =>
    rw [List.foldl_cons, ih, addNew]
    by_cases there : first ∈ seen
    · rw [if_pos there, List.mem_cons]
      constructor
      · rintro (before | later)
        · exact .inl before
        · exact .inr (.inr later)
      · rintro (before | rfl | later)
        · exact .inl before
        · exact .inl there
        · exact .inr later
    · rw [if_neg there, List.mem_append, List.mem_singleton, List.mem_cons, or_assoc]

/-- The fields that are found have valid names, and are not many. -/
theorem required_of_extract {required : List String} (found : extractLaunchFields args = .ok required) :
    (∀ key ∈ required, IsFieldName (points key)) ∧ required.length ≤ 16 ∧
      (∃ names, List.Forall₂ StringFields args names) ∧
      ∀ key, Declares args key ↔ key ∈ required := by
  obtain ⟨names, all, done⟩ := extractFrom_eq_ok.mp found
  have spec : ∀ (seen : List String) (name : String), addField seen name =
      if name ∈ seen then .ok seen
      else if seen.length ≥ 16 then .error "Los argumentos no pueden usar más de 16 campos"
      else .ok (seen ++ [name]) := fun _ _ => rfl
  obtain ⟨rfl, few⟩ := (foldlM_limited addField spec (Nat.zero_le _)).mp done
  refine ⟨fun key mem => ?_, few, ⟨names, all⟩, fun key => ?_⟩
  · rcases mem_foldl_addNew.mp mem with never | mem
    · cases never
    · exact readsFields.named all key mem
  · constructor
    · rintro ⟨fields, declared, mem⟩
      obtain ⟨result, found', rfl⟩ := extractLaunchFields_ok.mp declared
      cases found.symm.trans found'
      obtain ⟨key', mem, same⟩ := List.mem_map.mp mem
      rwa [← points_inj same]
    · intro mem
      exact ⟨_, extractLaunchFields_ok.mpr ⟨_, found, rfl⟩, List.mem_map_of_mem mem⟩

/-- **Rendering**: it comes to an end without slicing wrongly, and succeeds with what the rules allow. -/
theorem renderLaunchArgs_eq (args : List String) (values : LaunchValues) :
    ∃ result, renderLaunchArgs args values = checked result ∧
      ∀ rendered, result = .ok rendered ↔
        Accepted isBackBlank (args.map points) ∧
          (∀ key, (values.lookup key).isSome ↔ Declares args key) ∧
          (∀ key value, values.lookup key = some value → ValueOk value) ∧
          Renders values args rendered ∧ Fits rendered := by
  unfold renderLaunchArgs
  cases accepted : validateArgumentList "de lanzamiento" args with
  | error error =>
    refine ⟨.error error, rfl, fun rendered => (iff_false_left (error_ne_ok _ _)).mpr ?_⟩
    rintro ⟨rules, -⟩
    rw [validateArgumentList_eq_ok.mpr rules] at accepted
    cases accepted
  | ok _ =>
    have rules := validateArgumentList_eq_ok.mp accepted
    obtain ⟨fields, found⟩ := rules.fields
    obtain ⟨required, found, -⟩ := extractLaunchFields_ok.mp found
    obtain ⟨named, few, ⟨names, all⟩, declares⟩ := required_of_extract found
    have valid := @validateValues_eq_ok required values named few
    simp only [declares]
    rw [found]
    cases checkedValues : validateValues required values with
    | error error =>
      rw [checked_ok, checked_ok, checkedValues]
      refine ⟨.error error, rfl, fun rendered => (iff_false_left (error_ne_ok _ _)).mpr ?_⟩
      rintro ⟨-, same, ok, -⟩
      rw [valid.mpr ⟨same, ok⟩] at checkedValues
      cases checkedValues
    | ok _ =>
      obtain ⟨same, ok⟩ := valid.mp checkedValues
      obtain ⟨result, done, spec⟩ := @renderLoop_eq values args 0 0
      rw [checked_ok, checked_ok, checkedValues, checked_ok]
      refine ⟨result, done, fun rendered => (spec rendered).trans ?_⟩
      rw [renders_fieldText all, Nat.zero_add]
      constructor
      · rintro ⟨filled, each, total⟩
        refine ⟨rules, same, ok, filled, each, ?_⟩
        rcases total with rfl | total
        · exact Nat.zero_le _
        · exact total
      · rintro ⟨-, -, -, filled, fits⟩
        exact ⟨filled, fits.each, .inr fits.total⟩

end Loop

/-- **Values are filled in once.** Rendering succeeds exactly when the templates are valid, the values
are those of their fields and are allowed, and what comes out is not too long; and what comes out
is each template with its fields replaced, where a value is never read as a template. The scan for
fields reads them as the rules do, ends, and never slices inside a character. -/
theorem launch_args_filled_once (args : List String) (values : LaunchValues) :
    (∀ argument index, scanFields argument index = checked (templateFields argument index)) ∧
      ∃ result, renderLaunchArgs args values = checked result ∧
        ∀ rendered, result = .ok rendered ↔
          Accepted isBackBlank (args.map points) ∧
            (∀ key, (values.lookup key).isSome ↔ Declares args key) ∧
            (∀ key value, values.lookup key = some value → ValueOk value) ∧
            Renders values args rendered ∧ Fits rendered :=
  ⟨scanFields_eq, renderLaunchArgs_eq args values⟩

/-- A value of this length, for a template with one more character. -/
def letters (n : Nat) : String := String.ofList (List.replicate n 'a')

def lettersFor (n : Nat) : LaunchValues := AList.singleton "A" (letters n)

section Letters

variable {n : Nat}

theorem length_letters : (letters n).length = n := by
  rw [letters, String.length_ofList, List.length_replicate]

theorem lookup_lettersFor (key : String) :
    (lettersFor n).lookup key = if key = "A" then some (letters n) else none := by
  by_cases same : key = "A"
  · rw [if_pos same, same]
    exact AList.lookup_insert (∅ : LaunchValues)
  · rw [if_neg same]
    exact (AList.lookup_insert_ne same).trans (AList.lookup_empty _)

theorem valueOk_letters (some : 0 < n) (short : n ≤ 4096) : ValueOk (letters n) where
  some := by
    rw [← List.length_pos_iff, String.length_toList, length_letters]
    exact some
  printable m mem := by
    rw [points, letters, String.toList_ofList, List.map_replicate] at mem
    rw [List.eq_of_mem_replicate mem]
    rfl
  short := by rwa [length_letters]

theorem filled_letters {out : List Char}
    (filled : Filled ('$', '\x7b') '\x7d' (valueText (lettersFor n)) ['$', '\x7b', 'A', '\x7d', 'x'] out) :
    out.length = n + 1 := by
  obtain ⟨text, rest, named, after, rfl⟩ := (@filled_found _ ('$', '\x7b') '\x7d' _ _ [] ['A'] ['x']
    (by decide) (by decide) (by decide)).mp filled
  rw [valueText, show String.ofList ['A'] = "A" from rfl, lookup_lettersFor, if_pos rfl] at named
  cases named
  rw [(filled_plain (by decide)).mp after, List.nil_append, List.length_append,
    String.length_toList, length_letters]
  rfl

end Letters

/-- The templates, the fields and the value are as they should be, and rendering fails. -/
theorem launch_args_too_long :
    Accepted isBackBlank (["$\x7bA\x7dx"].map points) ∧
      (∀ key, ((lettersFor 4096).lookup key).isSome ↔ Declares ["$\x7bA\x7dx"] key) ∧
      (∀ key value, (lettersFor 4096).lookup key = some value → ValueOk value) ∧
      ∃ error, renderLaunchArgs ["$\x7bA\x7dx"] (lettersFor 4096) = checked (.error error) := by
  have found : extractLaunchFields ["$\x7bA\x7dx"] = .ok ["A"] := by decide
  obtain ⟨-, -, -, declares⟩ := required_of_extract found
  have valid : validateArgumentList "de lanzamiento" ["$\x7bA\x7dx"] = .ok () := by decide
  refine ⟨validateArgumentList_eq_ok.mp valid, fun key => ?_, fun key value => ?_, ?_⟩
  · rw [lookup_lettersFor, declares, List.mem_singleton]
    split
    next same => exact iff_of_true rfl same
    next other => exact iff_of_false Bool.false_ne_true other
  · rw [lookup_lettersFor]
    split
    next =>
      intro same
      rw [← Option.some.inj same]
      exact valueOk_letters (by decide) (Nat.le_refl _)
    next =>
      intro never
      cases never
  · obtain ⟨result, done, spec⟩ := renderLaunchArgs_eq ["$\x7bA\x7dx"] (lettersFor 4096)
    cases result with
    | error error => exact ⟨error, done⟩
    | ok rendered =>
      obtain ⟨-, -, -, renders, fits⟩ := (spec rendered).mp rfl
      obtain ⟨text, rest, filled, -, rfl⟩ := List.forall₂_cons_left_iff.mp renders
      have short := fits.each text (List.mem_cons_self ..)
      rw [← String.length_toList, filled_letters filled] at short
      exact absurd short (by decide)

end RoLauncher.Contracts.Backend
