import RoLauncher.Runtime.Bytes
import RoLauncher.Tables.Contributions
import RoLauncher.Text.Ascii

/-!
# The environment of the graphics components (`runtime/environment.rs`, `runtime/shadow.rs`)

A component claims libraries for itself and sets or unsets variables. What several
components contribute is merged into one environment, where every library and
every variable has one contributor. The claims are rendered for Wine as
`WINEDLLOVERRIDES`, which no component may set itself.
-/

namespace RoLauncher.Runtime

open Tables Text Results

abbrev OsString := List UInt8

/-- `OsStr::to_str`. -/
def toStr (text : OsString) : Option String := String.fromUTF8? ⟨text.toArray⟩

@[simp] theorem toStr_utf8 (text : String) : toStr (utf8 text) = some text := by
  have bytes : (⟨(utf8 text).toArray⟩ : ByteArray) = text.toUTF8 := by
    rw [utf8, Array.toArray_toList]
  unfold toStr String.fromUTF8?
  rw [bytes, dif_pos (show text.toUTF8.IsValidUTF8 from text.isValidUTF8)]
  rfl

inductive OwnershipDomain
  | runner
  | prefixDir
  | gameDirOverlay
  | hostExternal
  deriving DecidableEq, Repr

structure ComponentOwner where
  domain : OwnershipDomain
  componentId : String
  deriving DecidableEq, Repr

structure OverrideConflict where
  dll : String
  deriving DecidableEq, Repr

structure EnvironmentConflict where
  key : String
  deriving DecidableEq, Repr

inductive GraphicsEnvironmentError
  | invalidDllName
  | overrideConflict (conflict : OverrideConflict)
  | environmentConflict (conflict : EnvironmentConflict)
  deriving DecidableEq, Repr

/-! ## Names of libraries -/

def dotDll : List Char := ['.', 'd', 'l', 'l']

def isNameChar (c : Char) : Bool := ('a' ≤ c && c ≤ 'z') || ('0' ≤ c && c ≤ '9') || c = '_'

/-- A lowercase name with its extension. -/
structure DllName where
  text : String
  valid : ∃ base : List Char, text = String.ofList (base ++ dotDll) ∧ base ≠ [] ∧
    ∀ c ∈ base, isNameChar c = true
  deriving DecidableEq

instance : Ord DllName := ⟨compareOn DllName.text⟩

instance : Std.TransOrd DllName := inferInstanceAs (Std.TransCmp (compareOn DllName.text))

instance : Std.LawfulEqOrd DllName where
  compare_self {a} := (Std.ReflOrd.compare_self : compare a.text a.text = .eq)
  eq_of_compare {a b} same := by
    have texts : a.text = b.text := Std.LawfulEqOrd.eq_of_compare same
    cases a
    cases b
    cases texts
    rfl

/-- `str::strip_suffix`, with `unwrap_or`. -/
def stripSuffix (suffix text : List Char) : List Char :=
  if suffix <:+ text then text.take (text.length - suffix.length) else text

instance (name : List Char) : Decidable (∀ c ∈ name, isNameChar c = true) :=
  List.decidableBAll (isNameChar · = true) name

def DllName.parse (value : String) : Except GraphicsEnvironmentError DllName :=
  let normalized := stripSuffix dotDll (toAsciiLowercase value).toList
  if valid : normalized ≠ [] ∧ ∀ c ∈ normalized, isNameChar c = true then
    .ok ⟨String.ofList (normalized ++ dotDll), normalized, rfl, valid⟩
  else .error .invalidDllName

/-! ## Claims -/

inductive DllLoadOrder
  | nativeThenBuiltin
  deriving DecidableEq, Repr

def DllLoadOrder.wineValue : DllLoadOrder → String
  | .nativeThenBuiltin => "n,b"

structure DllClaim where
  name : DllName
  loadOrder : DllLoadOrder
  owner : ComponentOwner
  deriving DecidableEq

/-- The claims under their names. -/
abbrev DllOverrideSet := Contributions DllName DllClaim fun name claim => claim.name = name

namespace DllOverrideSet

def claim (set : DllOverrideSet) (name : String) (loadOrder : DllLoadOrder) (owner : ComponentOwner) :
    Except OverrideConflict DllOverrideSet :=
  match DllName.parse name with
  | .error _ => .error ⟨"invalid-dll-name"⟩
  | .ok name => (set.contribute name ⟨name, loadOrder, owner⟩).mapError fun name => ⟨name.text⟩

def values (set : DllOverrideSet) : List DllClaim := set.entries.toList.map Prod.snd

def merge (set other : DllOverrideSet) : Except OverrideConflict DllOverrideSet :=
  (values other).foldlM (fun set c => claim set c.name.text c.loadOrder c.owner) set

end DllOverrideSet

/-- `str::trim_end_matches`; the text may be as long as the bound. -/
def trimEndMatches (pattern : List Char) : Nat → List Char → List Char
  | 0, text => text
  | bound + 1, text =>
    if pattern <:+ text then trimEndMatches pattern bound (text.take (text.length - pattern.length))
    else text

/-- What a claim is in the rendered text. -/
def DllClaim.rendered (claim : DllClaim) : List Char :=
  let name := claim.name.text.toList
  trimEndMatches dotDll name.length name ++ '=' :: claim.loadOrder.wineValue.toList

def DllOverrideSet.renderWine (set : DllOverrideSet) : String :=
  String.ofList ([';'].intercalate ((DllOverrideSet.values set).map DllClaim.rendered))

/-! ## Variables -/

inductive EnvironmentChange
  | set (value : OsString)
  | unset
  deriving DecidableEq

structure EnvironmentContribution where
  change : EnvironmentChange
  contributor : String
  deriving DecidableEq

def overridesKey : String := "WINEDLLOVERRIDES"

/-- The keys a component may change. -/
def validKey (key : String) : Bool :=
  !(key = overridesKey || key.isEmpty || key.toList.contains '=' || key.toList.contains '\x00')

abbrev EnvironmentDelta := Contributions String EnvironmentContribution fun key _ => validKey key = true

def EnvironmentDelta.contribute (delta : EnvironmentDelta) (key : String) (change : EnvironmentChange)
    (contributor : String) : Except EnvironmentConflict EnvironmentDelta :=
  (Contributions.contribute delta key ⟨change, contributor⟩).mapError EnvironmentConflict.mk

def mergeEnvironmentDeltas (deltas : List EnvironmentDelta) : Except EnvironmentConflict EnvironmentDelta :=
  deltas.foldlM (fun merged delta =>
    delta.entries.toList.foldlM (fun merged entry =>
      EnvironmentDelta.contribute merged entry.1 entry.2.change entry.2.contributor) merged)
    Contributions.empty

/-! ## Environments -/

structure GraphicsEnvironment where
  dllOverrides : DllOverrideSet
  vars : EnvironmentDelta

def GraphicsEnvironment.merge (first second : GraphicsEnvironment) :
    Except GraphicsEnvironmentError GraphicsEnvironment := do
  let dllOverrides ← (DllOverrideSet.merge first.dllOverrides second.dllOverrides).mapError .overrideConflict
  let vars ← (mergeEnvironmentDeltas [first.vars, second.vars]).mapError .environmentConflict
  return ⟨dllOverrides, vars⟩

/-! ## Reading the rendered text -/

structure NormalizedDllClaim where
  loadOrder : DllLoadOrder
  ownerDomain : OwnershipDomain
  componentId : String
  deriving DecidableEq, Repr

def MANAGED_DXVK_COMPONENT : String := "dxvk-2.6.2"

def DGVOODOO_COMPONENT : String := "game-dir/dgvoodoo"

/-- The owner that a name has in the text. -/
def legacyOwner (name : String) : OwnershipDomain × String :=
  if name = "d3dimm.dll" ∨ name = "ddraw.dll" then (.gameDirOverlay, DGVOODOO_COMPONENT)
  else (.prefixDir, MANAGED_DXVK_COMPONENT)

/-- `str::split_once`. -/
def splitOnce (separator : Char) (text : List Char) : Option (List Char × List Char) :=
  if separator ∈ text then
    some (text.takeWhile (· ≠ separator), (text.dropWhile (· ≠ separator)).drop 1)
  else none

def parseLegacyEntry (claims : BTreeMap String NormalizedDllClaim) (entry : List Char) :
    Except String (BTreeMap String NormalizedDllClaim) :=
  match splitOnce '=' entry with
  | none => .error "legacy-dll-overrides-invalid"
  | some (name, loadOrder) =>
    if loadOrder ≠ "n,b".toList then .error "legacy-dll-load-order-unsupported"
    else
      let name := String.ofList ((toAsciiLowercase (String.ofList name)).toList ++ dotDll)
      let (ownerDomain, componentId) := legacyOwner name
      .ok (claims.insert name ⟨.nativeThenBuiltin, ownerDomain, componentId⟩)

def parseLegacyOverrides (overrides : OsString) : Except String (BTreeMap String NormalizedDllClaim) :=
  match toStr overrides with
  | none => .error "legacy-dll-overrides-non-utf8"
  | some overrides => (overrides.toList.splitOn ';').foldlM parseLegacyEntry ∅

/-! ## Merging joins -/

section Names

theorem isNameChar_cases {c : Char} (valid : isNameChar c = true) :
    c.toLower = c ∧ c ≠ '.' ∧ c ≠ ';' ∧ c ≠ '=' := by
  simp only [isNameChar, Bool.or_eq_true, Bool.and_eq_true, decide_eq_true_eq] at valid
  refine ⟨?_, ?_, ?_, ?_⟩
  · unfold Char.toLower
    rw [dif_neg]
    rintro ⟨low, high⟩
    rcases valid with (⟨lower, _⟩ | ⟨_, digit⟩) | rfl
    · exact absurd (UInt32.le_trans lower high) (by decide)
    · exact absurd (UInt32.le_trans low digit) (by decide)
    · exact absurd high (by decide)
  all_goals
    rintro rfl
    exact absurd valid (by decide)

/-- The name without its extension. -/
theorem DllName.exists_base (name : DllName) : ∃ base : List Char,
    name.text.toList = base ++ dotDll ∧ base ≠ [] ∧ ∀ c ∈ base, isNameChar c = true := by
  obtain ⟨base, text, some, chars⟩ := name.valid
  refine ⟨base, ?_, some, chars⟩
  rw [text, String.toList_ofList]

theorem stripSuffix_append (suffix base : List Char) : stripSuffix suffix (base ++ suffix) = base := by
  unfold stripSuffix
  rw [if_pos (List.suffix_append base suffix), List.length_append, Nat.add_sub_cancel,
    List.take_left']
  rfl

theorem toAsciiLowercase_name (name : DllName) : toAsciiLowercase name.text = name.text := by
  obtain ⟨base, text, -, chars⟩ := name.exists_base
  have lower : (base ++ dotDll).map Char.toLower = base ++ dotDll := by
    rw [List.map_append]
    congr 1
    rw [List.map_congr_left (g := id)]
    · exact List.map_id base
    · intro c mem
      exact (isNameChar_cases (chars c mem)).1
  unfold toAsciiLowercase
  rw [text, lower, ← text, String.ofList_toList]

/-- A name is parsed as itself. -/
theorem DllName.parse_text (name : DllName) : DllName.parse name.text = .ok name := by
  obtain ⟨base, text, some, chars⟩ := name.exists_base
  have stripped : stripSuffix dotDll (toAsciiLowercase name.text).toList = base := by
    rw [toAsciiLowercase_name, text, stripSuffix_append]
  unfold DllName.parse
  simp only [stripped]
  rw [dif_pos ⟨some, chars⟩]
  congr
  obtain ⟨text', valid⟩ := name
  simp only at text
  rw [← text, String.ofList_toList]

end Names

theorem DllOverrideSet.claim_eq (set : DllOverrideSet) (c : DllClaim) :
    DllOverrideSet.claim set c.name.text c.loadOrder c.owner =
      (set.contribute c.name c).mapError fun name => ⟨name.text⟩ := by
  unfold DllOverrideSet.claim
  rw [DllName.parse_text]

/-- The claims of a set are merged as entries. -/
theorem DllOverrideSet.merge_eq (set other : DllOverrideSet) :
    DllOverrideSet.merge set other = (Contributions.merge set other).mapError fun name => ⟨name.text⟩ := by
  unfold DllOverrideSet.merge DllOverrideSet.values Contributions.merge
  rw [mapError_foldlM, List.foldlM_map]
  apply foldlM_congr
  intro set entry mem
  have same := other.all (Contributions.mem_toList.mp mem)
  rw [DllOverrideSet.claim_eq, same]

def DllOverrideSet.facts : DllOverrideSet → Set (DllName × DllClaim) := Contributions.facts

def EnvironmentDelta.facts : EnvironmentDelta → Set (String × EnvironmentContribution) :=
  Contributions.facts

theorem DllOverrideSet.joins : Joins DllOverrideSet.facts DllOverrideSet.merge := by
  rw [show DllOverrideSet.merge = _ from funext fun set => funext (DllOverrideSet.merge_eq set)]
  exact Contributions.joins.mapError _

/-- Merging one delta into another. -/
def EnvironmentDelta.merge (delta other : EnvironmentDelta) : Except EnvironmentConflict EnvironmentDelta :=
  (Contributions.merge delta other).mapError EnvironmentConflict.mk

theorem EnvironmentDelta.joins : Joins EnvironmentDelta.facts EnvironmentDelta.merge :=
  Contributions.joins.mapError EnvironmentConflict.mk

theorem mergeEnvironmentDeltas_eq (deltas : List EnvironmentDelta) :
    mergeEnvironmentDeltas deltas = deltas.foldlM EnvironmentDelta.merge Contributions.empty := by
  unfold mergeEnvironmentDeltas EnvironmentDelta.merge Contributions.merge
  congr
  funext merged delta
  rw [mapError_foldlM]
  rfl

theorem tells_empty_cons (deltas : List EnvironmentDelta) :
    Tells EnvironmentDelta.facts (Contributions.empty :: deltas) = Tells EnvironmentDelta.facts deltas := by
  ext fact
  simp only [Tells, List.mem_cons, Set.mem_ofPred_eq]
  constructor
  · rintro ⟨delta, rfl | mem, has⟩
    · simp [EnvironmentDelta.facts, Contributions.facts, Contributions.empty] at has
    · exact ⟨delta, mem, has⟩
  · rintro ⟨delta, mem, has⟩
    exact ⟨delta, .inr mem, has⟩

/-- **Deltas** are merged to the delta that changes what any of them changes. -/
theorem mergeEnvironmentDeltas_iff {deltas : List EnvironmentDelta} {r : EnvironmentDelta} :
    mergeEnvironmentDeltas deltas = .ok r ↔
      EnvironmentDelta.facts r = Tells EnvironmentDelta.facts deltas := by
  rw [mergeEnvironmentDeltas_eq, EnvironmentDelta.joins.foldlM_iff, tells_empty_cons]

namespace GraphicsEnvironment

/-- What an environment says: of libraries and of variables. -/
def facts (env : GraphicsEnvironment) :
    Set (DllName × DllClaim ⊕ String × EnvironmentContribution) :=
  {fact | Sum.elim (· ∈ DllOverrideSet.facts env.dllOverrides) (· ∈ EnvironmentDelta.facts env.vars) fact}

theorem tells_pair (first second : EnvironmentDelta) :
    Tells EnvironmentDelta.facts [first, second] =
      EnvironmentDelta.facts first ∪ EnvironmentDelta.facts second := by
  ext fact
  simp [Tells]

theorem joins : Joins facts GraphicsEnvironment.merge where
  eq_of_facts := by
    intro a b same
    have dlls : a.dllOverrides = b.dllOverrides := by
      apply DllOverrideSet.joins.eq_of_facts
      ext fact
      exact Set.ext_iff.mp same (.inl fact)
    have vars : a.vars = b.vars := by
      apply EnvironmentDelta.joins.eq_of_facts
      ext fact
      exact Set.ext_iff.mp same (.inr fact)
    cases a
    cases b
    cases dlls
    cases vars
    rfl
  tells := by
    intro a b c merged
    obtain ⟨dlls, first, rest⟩ := ok_of_bind.mp merged
    obtain ⟨vars, second, done⟩ := ok_of_bind.mp rest
    cases done
    have left := DllOverrideSet.joins.tells (mapError_eq_ok.mp first)
    have right := mergeEnvironmentDeltas_iff.mp (mapError_eq_ok.mp second)
    rw [tells_pair] at right
    ext fact
    cases fact with
    | inl fact => exact Set.ext_iff.mp left fact
    | inr fact => exact Set.ext_iff.mp right fact
  exists_of_tells := by
    intro a b c first second
    obtain ⟨dlls, left⟩ := DllOverrideSet.joins.exists_of_tells
      (show DllOverrideSet.facts a.dllOverrides ⊆ DllOverrideSet.facts c.dllOverrides from
        fun fact has => @first (.inl fact) has)
      (show DllOverrideSet.facts b.dllOverrides ⊆ DllOverrideSet.facts c.dllOverrides from
        fun fact has => @second (.inl fact) has)
    obtain ⟨vars, right⟩ := EnvironmentDelta.joins.exists_of_tells
      (show EnvironmentDelta.facts a.vars ⊆ EnvironmentDelta.facts c.vars from
        fun fact has => @first (.inr fact) has)
      (show EnvironmentDelta.facts b.vars ⊆ EnvironmentDelta.facts c.vars from
        fun fact has => @second (.inr fact) has)
    have merged : mergeEnvironmentDeltas [a.vars, b.vars] = .ok vars := by
      rw [mergeEnvironmentDeltas_iff, tells_pair]
      exact EnvironmentDelta.joins.tells right
    refine ⟨⟨dlls, vars⟩, ?_⟩
    unfold GraphicsEnvironment.merge
    rw [left, merged]
    rfl

end GraphicsEnvironment

/-! ## What the text says -/

section Rendering

theorem trimEndMatches_plain {base : List Char} (plain : '.' ∉ base) (bound : Nat) :
    trimEndMatches dotDll bound base = base := by
  cases bound with
  | zero => rfl
  | succ bound =>
    unfold trimEndMatches
    rw [if_neg]
    intro suffix
    exact plain (suffix.subset (List.mem_cons_self ..))

theorem trimEndMatches_append {base : List Char} (plain : '.' ∉ base) :
    trimEndMatches dotDll (base ++ dotDll).length (base ++ dotDll) = base := by
  have size : (base ++ dotDll).length = (base.length + 3) + 1 := by simp [dotDll]
  rw [size, trimEndMatches, if_pos (List.suffix_append base dotDll)]
  have cut : (base ++ dotDll).take ((base ++ dotDll).length - dotDll.length) = base := by
    rw [List.length_append, Nat.add_sub_cancel, List.take_left']
    rfl
  rw [cut, trimEndMatches_plain plain]

theorem DllClaim.rendered_eq (claim : DllClaim) : ∃ base : List Char,
    claim.name.text.toList = base ++ dotDll ∧ (∀ c ∈ base, isNameChar c = true) ∧
      claim.rendered = base ++ '=' :: claim.loadOrder.wineValue.toList := by
  obtain ⟨base, text, -, chars⟩ := claim.name.exists_base
  refine ⟨base, text, chars, ?_⟩
  have plain : '.' ∉ base := fun mem => (isNameChar_cases (chars '.' mem)).2.1 rfl
  unfold DllClaim.rendered
  dsimp only
  rw [text, trimEndMatches_append plain]

theorem not_mem_rendered (claim : DllClaim) : ';' ∉ claim.rendered := by
  obtain ⟨base, -, chars, same⟩ := claim.rendered_eq
  rw [same]
  intro mem
  rcases List.mem_append.mp mem with mem | mem
  · exact (isNameChar_cases (chars ';' mem)).2.2.1 rfl
  · revert mem
    cases claim.loadOrder
    decide

theorem splitOnce_append {separator : Char} {base rest : List Char} (plain : separator ∉ base) :
    splitOnce separator (base ++ separator :: rest) = some (base, rest) := by
  have before : ∀ c ∈ base, decide (c ≠ separator) = true := by
    intro c mem
    apply decide_eq_true
    rintro rfl
    exact plain mem
  unfold splitOnce
  rw [if_pos (List.mem_append_right _ List.mem_cons_self), List.takeWhile_append_of_pos before,
    List.dropWhile_append_of_pos before]
  simp

/-- What the text says of a library. -/
def legacyClaim (name : String) : NormalizedDllClaim :=
  ⟨.nativeThenBuiltin, (legacyOwner name).1, (legacyOwner name).2⟩

theorem parseLegacyEntry_rendered (claims : BTreeMap String NormalizedDllClaim) (claim : DllClaim) :
    parseLegacyEntry claims claim.rendered =
      .ok (claims.insert claim.name.text (legacyClaim claim.name.text)) := by
  obtain ⟨base, text, chars, same⟩ := claim.rendered_eq
  have plain : '=' ∉ base := fun mem => (isNameChar_cases (chars '=' mem)).2.2.2 rfl
  have lower : (toAsciiLowercase (String.ofList base)).toList = base := by
    unfold toAsciiLowercase
    rw [String.toList_ofList, String.toList_ofList, List.map_congr_left (g := id)]
    · exact List.map_id base
    · intro c mem
      exact (isNameChar_cases (chars c mem)).1
  unfold parseLegacyEntry
  rw [same, splitOnce_append plain]
  cases claim.loadOrder
  simp only [DllLoadOrder.wineValue, ne_eq, not_true_eq_false, if_false]
  rw [lower, ← text, String.ofList_toList]
  rfl

theorem parsed_entries (claims : List DllClaim) (parsed : BTreeMap String NormalizedDllClaim) :
    ∃ all, (claims.map DllClaim.rendered).foldlM parseLegacyEntry parsed = .ok all ∧
      ∀ name, all[name]? = if ∃ claim ∈ claims, claim.name.text = name then some (legacyClaim name)
        else parsed[name]? := by
  induction claims generalizing parsed with
  | nil => exact ⟨parsed, rfl, fun name => by simp⟩
  | cons claim claims ih =>
    obtain ⟨all, folded, entries⟩ := ih (parsed.insert claim.name.text (legacyClaim claim.name.text))
    refine ⟨all, ?_, fun name => ?_⟩
    · rw [List.map_cons, List.foldlM_cons, parseLegacyEntry_rendered]
      exact folded
    · rw [entries, Std.ExtTreeMap.getElem?_insert]
      simp only [Std.compare_eq_iff_eq, List.mem_cons, exists_eq_or_imp]
      by_cases later : ∃ claim ∈ claims, claim.name.text = name
      · rw [if_pos later, if_pos (.inr later)]
      · rw [if_neg later]
        by_cases here : claim.name.text = name
        · rw [if_pos here, if_pos (.inl here), here]
        · rw [if_neg here, if_neg (not_or.mpr ⟨here, later⟩)]

/-- **The text parses back** to the libraries that are claimed, with their load orders. -/
theorem parse_renderWine {set : DllOverrideSet} (some : DllOverrideSet.values set ≠ []) :
    ∃ parsed, parseLegacyOverrides (utf8 (DllOverrideSet.renderWine set)) = .ok parsed ∧
      ∀ name loadOrder, (parsed[name]?).map NormalizedDllClaim.loadOrder = .some loadOrder ↔
        ∃ claim ∈ DllOverrideSet.values set, claim.name.text = name ∧ claim.loadOrder = loadOrder := by
  obtain ⟨parsed, folded, entries⟩ := parsed_entries (DllOverrideSet.values set) ∅
  refine ⟨parsed, ?_, fun name loadOrder => ?_⟩
  · unfold parseLegacyOverrides DllOverrideSet.renderWine
    rw [toStr_utf8]
    dsimp only
    rw [String.toList_ofList, List.splitOn_intercalate]
    · exact folded
    · intro piece mem
      obtain ⟨claim, -, rfl⟩ := List.mem_map.mp mem
      exact not_mem_rendered claim
    · intro none
      exact some (List.map_eq_nil_iff.mp none)
  · rw [entries]
    cases loadOrder
    constructor
    · intro has
      split at has
      next claimed =>
        obtain ⟨claim, mem, named⟩ := claimed
        refine ⟨claim, mem, named, ?_⟩
        cases claim.loadOrder
        rfl
      next =>
        simp at has
    · rintro ⟨claim, mem, named, -⟩
      rw [if_pos ⟨claim, mem, named⟩]
      rfl

end Rendering

end RoLauncher.Runtime
