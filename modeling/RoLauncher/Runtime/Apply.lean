import Mathlib.Data.List.Induction
import RoLauncher.Runtime.Environment

/-!
# Applying the environment to an invocation (`runtime/apply.rs`, `utils/runner.rs`)

An invocation holds changes to the environment its command inherits: a key is set or
removed. Of each key there is one change, the last that was made. The graphics
environment is applied after a check of the keys that only it should set; what an
invocation already has there must be what is planned.
-/

namespace RoLauncher.Runtime

open Tables Text Results

structure RunnerInvocation where
  program : OsString
  args : List OsString
  cwd : OsString
  env : List (OsString × Option OsString)
  deriving DecidableEq

namespace RunnerInvocation

def setEnv (invocation : RunnerInvocation) (key value : OsString) : RunnerInvocation :=
  { invocation with env := invocation.env.filter (·.1 ≠ key) ++ [(key, some value)] }

def unsetEnv (invocation : RunnerInvocation) (key : OsString) : RunnerInvocation :=
  { invocation with env := invocation.env.filter (·.1 ≠ key) ++ [(key, none)] }

/-- The environment of the command, over what it inherits (`into_command`). -/
def commandEnv (invocation : RunnerInvocation) (inherited : OsString → Option OsString) :
    OsString → Option OsString :=
  invocation.env.foldl (fun env entry => Function.update env entry.1 entry.2) inherited

end RunnerInvocation

def GUARDED_ENV_KEYS : List String :=
  [overridesKey, "WINE_LARGE_ADDRESS_AWARE", "DXVK_CONFIG_FILE", "DXVK_LOG_PATH", "DXVK_STATE_CACHE_PATH"]

def applyContribution (invocation : RunnerInvocation) (entry : String × EnvironmentContribution) :
    RunnerInvocation :=
  match entry.2.change with
  | .set value => invocation.setEnv (utf8 entry.1) value
  | .unset => invocation.unsetEnv (utf8 entry.1)

def applyGraphicsEnvironment (invocation : RunnerInvocation) (graphics : GraphicsEnvironment) :
    RunnerInvocation :=
  let invocation := invocation.unsetEnv (utf8 overridesKey)
  let invocation := graphics.vars.entries.toList.foldl applyContribution invocation
  let rendered := DllOverrideSet.renderWine graphics.dllOverrides
  if rendered.isEmpty then invocation else invocation.setEnv (utf8 overridesKey) (utf8 rendered)

def expectedGuardedValue (graphics : GraphicsEnvironment) (key : String) : Option OsString :=
  if key = overridesKey then
    let rendered := DllOverrideSet.renderWine graphics.dllOverrides
    if rendered.isEmpty then none else some (utf8 rendered)
  else
    match graphics.vars.entries[key]? with
    | none => none
    | some contribution =>
      match contribution.change with
      | .set value => some value
      | .unset => none

def invocationEnvValue (invocation : RunnerInvocation) (key : String) : Option OsString :=
  (invocation.env.reverse.find? (·.1 = utf8 key)).bind Prod.snd

/-- A guarded key that is set to another value. -/
def conflicts (invocation : RunnerInvocation) (graphics : GraphicsEnvironment) (key : String) : Bool :=
  match invocationEnvValue invocation key with
  | some existing => expectedGuardedValue graphics key ≠ some existing
  | none => false

/-- What becomes of the invocation, and the result. -/
def applyGraphicsEnvironmentToInvocation (invocation : RunnerInvocation) (graphics : GraphicsEnvironment) :
    RunnerInvocation × Except GraphicsEnvironmentError Unit :=
  match GUARDED_ENV_KEYS.find? (conflicts invocation graphics) with
  | some key => (invocation, .error (.environmentConflict ⟨key⟩))
  | none => (applyGraphicsEnvironment invocation graphics, .ok ())

/-! ## Changes one after the other -/

section Changes

/-- A change of a key. -/
abbrev Change := OsString × Option OsString

def put (env : List Change) (change : Change) : List Change := env.filter (·.1 ≠ change.1) ++ [change]

def putAll (env changes : List Change) : List Change := changes.foldl put env

def keys (changes : List Change) : List OsString := changes.map Prod.fst

theorem putAll_concat (env changes : List Change) (change : Change) :
    putAll env (changes ++ [change]) = put (putAll env changes) change := by
  rw [putAll, List.foldl_append]
  rfl

/-- The other keys keep their changes, and the changes that are made do not depend on them. -/
theorem putAll_eq (env changes : List Change) :
    putAll env changes = env.filter (fun change => change.1 ∉ keys changes) ++ putAll [] changes := by
  induction changes using List.reverseRecOn with
  | nil => simp [putAll, keys]
  | append_singleton changes change ih =>
    rw [putAll_concat, putAll_concat, put, put, ih, List.filter_append, List.filter_filter,
      List.append_assoc]
    congr 1
    apply List.filter_congr
    intro entry _
    rw [Bool.eq_iff_iff, Bool.and_eq_true]
    simp only [decide_eq_true_eq]
    simp only [keys, List.map_append, List.map_cons, List.map_nil, List.mem_append, List.mem_singleton]
    tauto

theorem key_of_mem_putAll {changes : List Change} {change : Change} (mem : change ∈ putAll [] changes) :
    change.1 ∈ keys changes := by
  induction changes using List.reverseRecOn with
  | nil => cases mem
  | append_singleton changes last ih =>
    rw [putAll_concat, put, List.mem_append, List.mem_singleton] at mem
    rw [keys, List.map_append, List.mem_append]
    rcases mem with mem | rfl
    · exact .inl (ih (List.mem_filter.mp mem).1)
    · exact .inr (List.mem_singleton.mpr rfl)

/-- Making the same changes again changes nothing. -/
theorem putAll_again (env changes : List Change) :
    putAll (putAll env changes) changes = putAll env changes := by
  rw [putAll_eq (putAll env changes), putAll_eq env, List.filter_append, List.filter_filter]
  have made : (putAll [] changes).filter (fun change => change.1 ∉ keys changes) = [] := by
    rw [List.filter_eq_nil_iff]
    intro change mem
    simp [key_of_mem_putAll mem]
  rw [made, List.append_nil]
  simp

/-- The last change of a key. -/
def lastChange (changes : List Change) (key : OsString) : Option (Option OsString) :=
  (changes.reverse.find? (·.1 = key)).map Prod.snd

theorem lastChange_append (earlier later : List Change) (key : OsString) :
    lastChange (earlier ++ later) key = (lastChange later key).or (lastChange earlier key) := by
  rw [lastChange, List.reverse_append, List.find?_append, Option.map_or]
  rfl

theorem lastChange_singleton (key : OsString) (value : Option OsString) (key' : OsString) :
    lastChange [(key, value)] key' = if key = key' then some value else none := by
  by_cases same : key = key' <;> simp [lastChange, same]

/-- **Of each key** there is the last change that was made, or what was there before. -/
theorem filter_putAll (env changes : List Change) (key : OsString) :
    (putAll env changes).filter (·.1 = key) =
      match lastChange changes key with
      | some value => [(key, value)]
      | none => env.filter (·.1 = key) := by
  induction changes using List.reverseRecOn with
  | nil => rfl
  | append_singleton changes change ih =>
    rw [putAll_concat, put, List.filter_append, List.filter_filter, lastChange, List.reverse_append,
      List.reverse_singleton, List.singleton_append]
    by_cases same : change.1 = key
    · have others : (putAll env changes).filter (fun entry => entry.1 = key && entry.1 ≠ change.1) = [] := by
        rw [List.filter_eq_nil_iff]
        intro entry _
        simp [same]
      obtain ⟨name, value⟩ := change
      cases same
      simp
    · have others : (putAll env changes).filter (fun entry => entry.1 = key && entry.1 ≠ change.1) =
          (putAll env changes).filter (·.1 = key) := by
        apply List.filter_congr
        intro entry _
        by_cases named : entry.1 = key
        · simp [named, Ne.symm same]
        · simp [named]
      have absent : List.filter (·.1 = key) [change] = [] := by simp [same]
      rw [others, ih, absent, List.append_nil, List.find?_cons_of_neg (by simpa using same)]
      rfl

end Changes

/-! ## What is planned -/

section Planned

variable {graphics : GraphicsEnvironment} {invocation : RunnerInvocation}

def EnvironmentChange.value : EnvironmentChange → Option OsString
  | .set value => some value
  | .unset => none

/-- What the plan says of a key: a value, that it is absent, or nothing. -/
def planned (graphics : GraphicsEnvironment) (key : String) : Option (Option OsString) :=
  if key = overridesKey then some (expectedGuardedValue graphics key)
  else (graphics.vars.entries[key]?).map fun contribution => contribution.change.value

/-- The changes that apply the environment, in their order. -/
def changes (graphics : GraphicsEnvironment) : List Change :=
  (utf8 overridesKey, none) ::
    graphics.vars.entries.toList.map (fun entry => (utf8 entry.1, entry.2.change.value)) ++
    if (DllOverrideSet.renderWine graphics.dllOverrides).isEmpty then []
    else [(utf8 overridesKey, some (utf8 (DllOverrideSet.renderWine graphics.dllOverrides)))]

theorem applyGraphicsEnvironment_eq (invocation : RunnerInvocation) (graphics : GraphicsEnvironment) :
    applyGraphicsEnvironment invocation graphics =
      { invocation with env := putAll invocation.env (changes graphics) } := by
  have contributed : ∀ (entries : List (String × EnvironmentContribution)) (invocation : RunnerInvocation),
      entries.foldl applyContribution invocation = { invocation with
        env := putAll invocation.env
          (entries.map fun entry => (utf8 entry.1, entry.2.change.value)) } := by
    intro entries
    induction entries with
    | nil => exact fun _ => rfl
    | cons entry entries ih =>
      intro invocation
      have here : applyContribution invocation entry = { invocation with
          env := put invocation.env (utf8 entry.1, entry.2.change.value) } := by
        unfold applyContribution
        cases entry.2.change with
        | set value => rfl
        | unset => rfl
      rw [List.foldl_cons, ih, here]
      rfl
  unfold applyGraphicsEnvironment changes
  dsimp only
  rw [contributed]
  split
  next =>
    rw [List.append_nil]
    rfl
  next =>
    unfold RunnerInvocation.setEnv RunnerInvocation.unsetEnv putAll
    rw [List.foldl_append]
    rfl

theorem utf8_inj {first second : String} : utf8 first = utf8 second ↔ first = second :=
  ⟨utf8_injective, congrArg utf8⟩

theorem lastChange_vars (delta : EnvironmentDelta) (key : String) :
    lastChange (delta.entries.toList.map fun entry => (utf8 entry.1, entry.2.change.value)) (utf8 key) =
      (delta.entries[key]?).map fun contribution => contribution.change.value := by
  unfold lastChange
  generalize found : List.find? _ _ = change
  cases change with
  | none =>
    rw [List.find?_eq_none] at found
    cases has : delta.entries[key]? with
    | none => rfl
    | some contribution =>
      have mem : (key, contribution) ∈ delta.entries.toList := Contributions.mem_toList.mpr has
      have never := found _ (List.mem_reverse.mpr (List.mem_map_of_mem mem))
      simp at never
  | some change =>
    have named := List.find?_some found
    obtain ⟨entry, mem, rfl⟩ := List.mem_map.mp (List.mem_reverse.mp (List.mem_of_find?_eq_some found))
    obtain ⟨name, contribution⟩ := entry
    simp only [decide_eq_true_eq, utf8_inj] at named
    subst named
    have has : delta.entries[name]? = some contribution := Contributions.mem_toList.mp mem
    rw [has]
    rfl

theorem entries_overridesKey (delta : EnvironmentDelta) : delta.entries[overridesKey]? = none := by
  cases has : delta.entries[overridesKey]? with
  | none => rfl
  | some contribution => exact absurd (delta.all has) (by decide)

theorem lastChange_changes (graphics : GraphicsEnvironment) (key : String) :
    lastChange (changes graphics) (utf8 key) = planned graphics key := by
  unfold changes planned expectedGuardedValue
  rw [← List.singleton_append, lastChange_append, lastChange_append, lastChange_singleton, lastChange_vars]
  simp only [utf8_inj]
  by_cases overrides : key = overridesKey
  · subst overrides
    rw [entries_overridesKey, if_pos rfl, if_pos rfl, if_pos rfl]
    split
    next => rfl
    next =>
      rw [lastChange_singleton, if_pos rfl]
      rfl
  · have other : ¬ overridesKey = key := fun same => overrides same.symm
    rw [if_neg overrides, if_neg other, Option.or_none]
    split
    next => rfl
    next =>
      rw [lastChange_singleton, if_neg (fun same => other (utf8_inj.mp same))]
      rfl

theorem foldl_update_congr {env : List Change} {first second : OsString → Option OsString} {key : OsString}
    (same : first key = second key) :
    env.foldl (fun env entry => Function.update env entry.1 entry.2) first key =
      env.foldl (fun env entry => Function.update env entry.1 entry.2) second key := by
  induction env generalizing first second with
  | nil => exact same
  | cons entry env ih =>
    apply ih
    simp only [Function.update_apply]
    split
    next => rfl
    next => exact same

/-- What a command gets for a key depends on the changes of that key. -/
theorem commandEnv_congr {first second : RunnerInvocation} {key : OsString}
    (same : first.env.filter (·.1 = key) = second.env.filter (·.1 = key))
    (inherited : OsString → Option OsString) :
    first.commandEnv inherited key = second.commandEnv inherited key := by
  have only : ∀ (env : List Change) (inherited : OsString → Option OsString),
      env.foldl (fun env entry => Function.update env entry.1 entry.2) inherited key =
        (env.filter (·.1 = key)).foldl (fun env entry => Function.update env entry.1 entry.2) inherited
          key := by
    intro env
    induction env with
    | nil => exact fun _ => rfl
    | cons entry env ih =>
      intro inherited
      rw [List.foldl_cons, ih, List.filter_cons]
      split
      next => rfl
      next other =>
        -- the change of another key is not seen
        rw [foldl_update_congr]
        rw [Function.update_of_ne]
        intro same
        exact other (decide_eq_true same.symm)
  unfold RunnerInvocation.commandEnv
  rw [only, same, ← only]

theorem applied_entries (invocation : RunnerInvocation) (graphics : GraphicsEnvironment) (key : OsString) :
    (applyGraphicsEnvironment invocation graphics).env.filter (·.1 = key) =
      match lastChange (changes graphics) key with
      | some value => [(key, value)]
      | none => invocation.env.filter (·.1 = key) := by
  rw [applyGraphicsEnvironment_eq]
  exact filter_putAll _ _ _

theorem invocationEnvValue_eq (invocation : RunnerInvocation) (key : String) :
    invocationEnvValue invocation key =
      ((invocation.env.filter (·.1 = utf8 key)).getLast?).bind Prod.snd := by
  rw [invocationEnvValue, ← List.head?_reverse, ← List.filter_reverse, List.head?_filter]

theorem expected_of_planned {key : String} {value : Option OsString}
    (plan : planned graphics key = some value) : expectedGuardedValue graphics key = value := by
  unfold planned at plan
  split at plan
  next => exact Option.some.inj plan
  next other =>
    obtain ⟨contribution, has, rfl⟩ := Option.map_eq_some_iff.mp plan
    unfold expectedGuardedValue
    rw [if_neg other, has]
    dsimp only
    cases contribution.change with
    | set value => rfl
    | unset => rfl

/-- A key that is changed is the key of something planned. -/
theorem planned_of_lastChange {key : OsString} {value : Option OsString}
    (changed : lastChange (changes graphics) key = some value) :
    ∃ name, utf8 name = key ∧ planned graphics name = some value := by
  have named : ∃ name, utf8 name = key := by
    obtain ⟨change, found, -⟩ := Option.map_eq_some_iff.mp changed
    have same := List.find?_some found
    have mem := List.mem_reverse.mp (List.mem_of_find?_eq_some found)
    simp only [decide_eq_true_eq] at same
    subst same
    unfold changes at mem
    rcases List.mem_append.mp mem with mem | mem
    · rcases List.mem_cons.mp mem with rfl | mem
      · exact ⟨_, rfl⟩
      · obtain ⟨entry, -, rfl⟩ := List.mem_map.mp mem
        exact ⟨_, rfl⟩
    · split at mem
      next => cases mem
      next =>
        rw [List.mem_singleton.mp mem]
        exact ⟨_, rfl⟩
  obtain ⟨name, rfl⟩ := named
  refine ⟨name, rfl, ?_⟩
  rw [← lastChange_changes]
  exact changed

/-- The plan is in the invocation: each of its keys has what is planned, and nothing else has
changed. -/
structure Applied (invocation : RunnerInvocation) (graphics : GraphicsEnvironment)
    (after : RunnerInvocation) : Prop where
  plan : ∀ {key value}, planned graphics key = some value →
    after.env.filter (·.1 = utf8 key) = [(utf8 key, value)] ∧
      ∀ inherited, after.commandEnv inherited (utf8 key) = value
  other : ∀ {key}, (∀ name, planned graphics name ≠ none → utf8 name ≠ key) →
    after.env.filter (·.1 = key) = invocation.env.filter (·.1 = key) ∧
      ∀ inherited, after.commandEnv inherited key = invocation.commandEnv inherited key
  program : after.program = invocation.program
  args : after.args = invocation.args
  cwd : after.cwd = invocation.cwd

theorem applied (invocation : RunnerInvocation) (graphics : GraphicsEnvironment) :
    Applied invocation graphics (applyGraphicsEnvironment invocation graphics) := by
  refine ⟨?_, ?_, ?_, ?_, ?_⟩
  · intro key value plan
    have entries := applied_entries invocation graphics (utf8 key)
    rw [lastChange_changes, plan] at entries
    refine ⟨entries, fun inherited => ?_⟩
    have one : RunnerInvocation.commandEnv ⟨[], [], [], [(utf8 key, value)]⟩ inherited (utf8 key) = value :=
      Function.update_self ..
    rw [← one]
    apply commandEnv_congr
    rw [entries]
    simp
  · intro key other
    have entries : (applyGraphicsEnvironment invocation graphics).env.filter (·.1 = key) =
        invocation.env.filter (·.1 = key) := by
      rw [applied_entries]
      split
      next value changed =>
        obtain ⟨name, same, plan⟩ := planned_of_lastChange changed
        exact absurd same (other name (by rw [plan]; exact Option.some_ne_none _))
      next => rfl
    exact ⟨entries, fun inherited => commandEnv_congr entries inherited⟩
  all_goals rw [applyGraphicsEnvironment_eq]

/-- A key that was no conflict is none afterwards. -/
theorem conflicts_applied {key : String} (fine : conflicts invocation graphics key = false) :
    conflicts (applyGraphicsEnvironment invocation graphics) graphics key = false := by
  have value : invocationEnvValue (applyGraphicsEnvironment invocation graphics) key =
      match planned graphics key with
      | some value => value
      | none => invocationEnvValue invocation key := by
    rw [invocationEnvValue_eq, applied_entries, lastChange_changes]
    cases planned graphics key with
    | some value => rfl
    | none =>
      rw [invocationEnvValue_eq]
  unfold conflicts
  rw [value]
  cases plan : planned graphics key with
  | none => exact fine
  | some value =>
    cases value with
    | none => rfl
    | some value =>
      rw [expected_of_planned plan]
      exact decide_eq_false (not_not.mpr rfl)

theorem applyGraphicsEnvironment_again (invocation : RunnerInvocation) (graphics : GraphicsEnvironment) :
    applyGraphicsEnvironment (applyGraphicsEnvironment invocation graphics) graphics =
      applyGraphicsEnvironment invocation graphics := by
  rw [applyGraphicsEnvironment_eq, applyGraphicsEnvironment_eq invocation]
  dsimp only
  rw [putAll_again]

/-- **Applying** the environment leaves the invocation alone where it fails; else the plan is in
the invocation, and applying it again changes nothing. -/
theorem apply_spec (invocation : RunnerInvocation) (graphics : GraphicsEnvironment) :
    (∀ after error, applyGraphicsEnvironmentToInvocation invocation graphics = (after, .error error) →
      after = invocation) ∧
      ∀ after, applyGraphicsEnvironmentToInvocation invocation graphics = (after, .ok ()) →
        Applied invocation graphics after ∧
          applyGraphicsEnvironmentToInvocation after graphics = (after, .ok ()) := by
  unfold applyGraphicsEnvironmentToInvocation
  cases guarded : GUARDED_ENV_KEYS.find? (conflicts invocation graphics) with
  | some key =>
    constructor
    · intro after error same
      cases same
      rfl
    · intro after never
      cases never
  | none =>
    constructor
    · intro after error never
      cases never
    · intro after same
      cases same
      refine ⟨applied invocation graphics, ?_⟩
      have again : GUARDED_ENV_KEYS.find?
          (conflicts (applyGraphicsEnvironment invocation graphics) graphics) = none := by
        rw [List.find?_eq_none] at guarded ⊢
        intro key mem
        have fine := conflicts_applied (Bool.eq_false_iff.mpr (guarded key mem))
        exact Bool.eq_false_iff.mp fine
      rw [again]
      dsimp only
      rw [applyGraphicsEnvironment_again]

end Planned

/-! ## Environments and where they are applied -/

/-- **The environment of the graphics components.** It does not matter in which order or grouping
the components contribute, or how often; the text for Wine parses back to the libraries that are
claimed; and an invocation gets the plan and nothing else, or is left alone. -/
theorem graphics_environment_composes (t t' : Grouping GraphicsEnvironment)
    (deltas deltas' : List EnvironmentDelta) (set : DllOverrideSet) (invocation : RunnerInvocation)
    (graphics : GraphicsEnvironment) :
    ((∀ env, env ∈ t.leaves ↔ env ∈ t'.leaves) → ∀ r,
        t.eval GraphicsEnvironment.merge = .ok r ↔ t'.eval GraphicsEnvironment.merge = .ok r) ∧
      ((∀ delta, delta ∈ deltas ↔ delta ∈ deltas') → ∀ r,
        mergeEnvironmentDeltas deltas = .ok r ↔ mergeEnvironmentDeltas deltas' = .ok r) ∧
      (∀ r env, t.eval GraphicsEnvironment.merge = .ok r → env ∈ t.leaves → r.merge env = .ok r) ∧
      (DllOverrideSet.values set ≠ [] → ∃ parsed,
        parseLegacyOverrides (utf8 (DllOverrideSet.renderWine set)) = .ok parsed ∧
          ∀ name loadOrder, (parsed[name]?).map NormalizedDllClaim.loadOrder = some loadOrder ↔
            ∃ claim ∈ DllOverrideSet.values set, claim.name.text = name ∧ claim.loadOrder = loadOrder) ∧
      (∀ after error, applyGraphicsEnvironmentToInvocation invocation graphics = (after, .error error) →
        after = invocation) ∧
      ∀ after, applyGraphicsEnvironmentToInvocation invocation graphics = (after, .ok ()) →
        Applied invocation graphics after ∧
          applyGraphicsEnvironmentToInvocation after graphics = (after, .ok ()) := by
  refine ⟨fun same r => GraphicsEnvironment.joins.eval_congr same, fun same r => ?_,
    fun r env eval mem => GraphicsEnvironment.joins.absorb eval mem, parse_renderWine,
    apply_spec invocation graphics⟩
  have tells : Tells EnvironmentDelta.facts deltas = Tells EnvironmentDelta.facts deltas' := by
    ext fact
    simp only [Tells, same]
  rw [mergeEnvironmentDeltas_iff, mergeEnvironmentDeltas_iff, tells]

/-- What a component of this owner claims. -/
def claimed (owner : ComponentOwner) (names : List String) : GraphicsEnvironment where
  dllOverrides :=
    match names.foldlM (fun set name => DllOverrideSet.claim set name .nativeThenBuiltin owner)
      Contributions.empty with
    | .ok set => set
    | .error _ => Contributions.empty
  vars := Contributions.empty

def runnerDxvk : ComponentOwner := ⟨.runner, "runner/dxvk"⟩

def prefixDxvk : ComponentOwner := ⟨.prefixDir, "dxvk-2.6.2"⟩

/-- The conflict a merge reports. -/
def conflictOf (t : Grouping GraphicsEnvironment) : Option GraphicsEnvironmentError :=
  match t.eval GraphicsEnvironment.merge with
  | .ok _ => none
  | .error error => some error

/-- Which of two conflicts is reported depends on the order; and the text does not say whose a
library is. -/
theorem order_shows_in_conflict :
    conflictOf (.both (.both (.leaf (claimed runnerDxvk ["d3d9", "dxgi"])) (.leaf (claimed prefixDxvk ["d3d9"])))
        (.leaf (claimed prefixDxvk ["dxgi"]))) = some (.overrideConflict ⟨"d3d9.dll"⟩) ∧
      conflictOf (.both (.both (.leaf (claimed runnerDxvk ["d3d9", "dxgi"])) (.leaf (claimed prefixDxvk ["dxgi"])))
        (.leaf (claimed prefixDxvk ["d3d9"]))) = some (.overrideConflict ⟨"dxgi.dll"⟩) ∧
      (DllOverrideSet.values (claimed runnerDxvk ["d3d9"]).dllOverrides).map (·.owner) = [runnerDxvk] ∧
      parseLegacyOverrides (utf8 (DllOverrideSet.renderWine (claimed runnerDxvk ["d3d9"]).dllOverrides)) =
        .ok (Std.ExtTreeMap.insert ∅ "d3d9.dll" ⟨.nativeThenBuiltin, .prefixDir, "dxvk-2.6.2"⟩) := by
  refine ⟨?_, ?_, ?_, ?_⟩
  · decide
  · decide
  · decide
  · rfl

end RoLauncher.Runtime
