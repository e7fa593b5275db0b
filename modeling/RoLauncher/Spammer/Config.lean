import RoLauncher.Contracts.Launch
import RoLauncher.Lists.Canonical
import RoLauncher.Lists.Firsts
import RoLauncher.Text.Ascii
import RoLauncher.Text.Trim

/-!
# The configuration of the spammer (`spammer/config.rs`, `spammer/keys.rs`, `spammer.logic.ts`)

Panel and backend each normalize a stored configuration, written in the current schema
or in the one before. Each comes to a canonical configuration (`Canonical`), which
neither changes any more (`normalized_stable`, `panel_saves_stable`), and from a document
whose keys are ASCII both come to the same (`sides_agree`).
-/

namespace RoLauncher.Spammer

open Contracts.Backend (isWhitespace)
open Lists (canonical canonical_eq eq_of_strict firsts)
open Text (trimBy)

/-! ## Configurations -/

/-- `2 ^ 53`, up to which a double holds every whole number. -/
def exactLimit : Nat := 9007199254740992

/-- Milliseconds that both sides hold exactly: in the panel they are doubles, in the backend `u64`. -/
@[ext]
structure Millis where
  ms : Nat
  exact : ms ≤ exactLimit
  deriving DecidableEq, Repr

/-- `clamp` of the backend. -/
def Millis.clamp (low high : Nat) (fits : low ≤ high ∧ high ≤ exactLimit) (value : Millis) : Millis :=
  ⟨max low (min value.ms high), by omega⟩

structure GearSwitchRule where
  trigger : String
  atkKeys : List String
  defKeys : List String
  deriving DecidableEq, Repr

structure GearSwitchConfig where
  enabled : Bool
  switchDelayMs : Millis
  rules : List GearSwitchRule
  deriving DecidableEq, Repr

structure ShiftModeConfig where
  enabled : Bool
  triggerKeys : List String
  deriving DecidableEq, Repr

structure SpammerConfig where
  enabled : Bool
  delayMs : Millis
  keys : List String
  shiftMode : ShiftModeConfig
  gearSwitch : GearSwitchConfig
  deriving DecidableEq, Repr

/-! ## Documents

The JSON objects that the backend reads: a field that is missing is `none`. -/

structure RuleDocument where
  trigger : String
  atkKeys : Option (List String)
  defKeys : Option (List String)
  deriving DecidableEq, Repr

/-- With the keys of the schema before. -/
structure GearSwitchDocument where
  enabled : Option Bool
  switchDelayMs : Option Millis
  rules : Option (List RuleDocument)
  triggerKeys : Option (List String)
  atkKeys : Option (List String)
  defKeys : Option (List String)
  deriving DecidableEq, Repr

structure ShiftModeDocument where
  enabled : Option Bool
  triggerKeys : Option (List String)
  deriving DecidableEq, Repr

structure SpammerDocument where
  enabled : Option Bool
  delayMs : Option Millis
  keys : Option (List String)
  shiftMode : Option ShiftModeDocument
  gearSwitch : Option GearSwitchDocument
  deriving DecidableEq, Repr

def serialize (config : SpammerConfig) : SpammerDocument where
  enabled := some config.enabled
  delayMs := some config.delayMs
  keys := some config.keys
  shiftMode := some ⟨some config.shiftMode.enabled, some config.shiftMode.triggerKeys⟩
  gearSwitch := some {
    enabled := some config.gearSwitch.enabled
    switchDelayMs := some config.gearSwitch.switchDelayMs
    rules := some (config.gearSwitch.rules.map fun rule => ⟨rule.trigger, some rule.atkKeys, some rule.defKeys⟩)
    triggerKeys := none
    atkKeys := none
    defKeys := none }

/-! ## Keys -/

/-- The keys in the order of the keyboard that is shown. -/
def SPAMMER_KEY_LABELS : List String :=
  ["F1", "F2", "F3", "F4", "F5", "F6", "F7", "F8", "F9", "1", "2", "3", "4", "5", "6", "7", "8", "9", "0",
    "Q", "W", "E", "R", "T", "Y", "U", "I", "O", "P", "A", "S", "D", "F", "G", "H", "J", "K", "L", "Z", "X",
    "C", "V", "B", "N", "M"]

namespace Backend

/-- `trim` and `to_ascii_uppercase`. -/
def label (raw : String) : String :=
  String.ofList ((trimBy isWhitespace raw.toList).map Char.toUpper)

def isValidSpammerKey (key : String) : Bool := SPAMMER_KEY_LABELS.contains (label key)

def spammerKeyOrder (label : String) : Nat := (SPAMMER_KEY_LABELS.idxOf? label).getD 255

def normalizeSpammerKeys (keys : List String) : List String :=
  canonical spammerKeyOrder ((keys.map label).filter isValidSpammerKey)

def GearSwitchRule.clamped (rule : GearSwitchRule) : Option GearSwitchRule :=
  let trigger := label rule.trigger
  if !isValidSpammerKey trigger then none
  else some ⟨trigger, normalizeSpammerKeys rule.atkKeys, normalizeSpammerKeys rule.defKeys⟩

def GearSwitchConfig.clamped (config : GearSwitchConfig) : GearSwitchConfig where
  enabled := config.enabled
  switchDelayMs := config.switchDelayMs.clamp 10 300 (by decide)
  rules := firsts (·.trigger) [] (config.rules.filterMap GearSwitchRule.clamped)

def GearSwitchConfig.ruleFor (config : GearSwitchConfig) (key : String) : Option GearSwitchRule :=
  config.rules.find? (·.trigger = key)

def ShiftModeConfig.normalized (config : ShiftModeConfig) : ShiftModeConfig where
  enabled := config.enabled
  triggerKeys := normalizeSpammerKeys config.triggerKeys

def ShiftModeConfig.usesTrigger (config : ShiftModeConfig) (key : String) : Bool :=
  config.enabled && config.triggerKeys.contains key

namespace SpammerConfig

def normalized (config : SpammerConfig) : SpammerConfig :=
  let keys := normalizeSpammerKeys config.keys
  let shiftMode := ShiftModeConfig.normalized config.shiftMode
  let gearSwitch := GearSwitchConfig.clamped config.gearSwitch
  { config with
    keys
    shiftMode := { shiftMode with triggerKeys := shiftMode.triggerKeys.filter (keys.contains ·) }
    gearSwitch := { gearSwitch with rules := gearSwitch.rules.filter (keys.contains ·.trigger) } }

def clamped (config : SpammerConfig) : SpammerConfig :=
  let config := normalized config
  { config with delayMs := config.delayMs.clamp 16 100 (by decide) }

def usesShiftFor (config : SpammerConfig) (key : String) : Bool :=
  ShiftModeConfig.usesTrigger config.shiftMode key

def validateForStart (config : SpammerConfig) : Except String Unit :=
  let config := normalized config
  if config.enabled && config.keys.isEmpty then .error "Spammer: selecciona al menos una tecla" else .ok ()

end SpammerConfig

def defaultSpammerDelayMs : Millis := ⟨16, by decide⟩

def defaultSpammerKeys : List String := ["F1"]

def defaultSwitchDelayMs : Millis := ⟨50, by decide⟩

/-- `GearSwitchConfigWire::into_config`. -/
def intoConfig (wire : GearSwitchDocument) (spammerKeys : List String) : GearSwitchConfig :=
  let rules := (wire.rules.getD []).map fun rule =>
    (⟨rule.trigger, rule.atkKeys.getD [], rule.defKeys.getD []⟩ : GearSwitchRule)
  let triggerKeys := wire.triggerKeys.getD []
  let atkKeys := wire.atkKeys.getD []
  let defKeys := wire.defKeys.getD []
  let hasLegacyConfig := !triggerKeys.isEmpty || !atkKeys.isEmpty || !defKeys.isEmpty
  { enabled := wire.enabled.getD false
    switchDelayMs := wire.switchDelayMs.getD defaultSwitchDelayMs
    rules :=
      if rules.isEmpty && hasLegacyConfig then
        let triggers := if triggerKeys.isEmpty then spammerKeys else triggerKeys
        triggers.map fun trigger => ⟨trigger, atkKeys, defKeys⟩
      else rules }

def emptyGearSwitch : GearSwitchDocument := ⟨none, none, none, none, none, none⟩

def deserialize (wire : SpammerDocument) : SpammerConfig :=
  let keys := wire.keys.getD defaultSpammerKeys
  let shiftMode := wire.shiftMode.getD ⟨none, none⟩
  { enabled := wire.enabled.getD false
    delayMs := wire.delayMs.getD defaultSpammerDelayMs
    keys
    shiftMode := ⟨shiftMode.enabled.getD false, shiftMode.triggerKeys.getD []⟩
    gearSwitch := intoConfig (wire.gearSwitch.getD emptyGearSwitch) keys }

end Backend

namespace Frontend

/-- What `trim` of the panel's language takes away. -/
def isSpace (c : Char) : Bool :=
  (9 ≤ c.toNat && c.toNat ≤ 13) || c.toNat = 0x20 || c.toNat = 0xA0 || c.toNat = 0x1680 ||
    (0x2000 ≤ c.toNat && c.toNat ≤ 0x200A) || c.toNat = 0x2028 || c.toNat = 0x2029 || c.toNat = 0x202F ||
    c.toNat = 0x205F || c.toNat = 0x3000 || c.toNat = 0xFEFF

section

-- `toUpperCase`, which follows Unicode.
variable (toUpperCase : List Char → List Char)

def label (raw : String) : String := String.ofList (toUpperCase (trimBy isSpace raw.toList))

def keyOrder (key : String) : Nat := (SPAMMER_KEY_LABELS.idxOf? key).getD 99

/-- The loop of `normalizeKeys`. -/
def collectKeys (seen : List String) : List String → List String
  | [] => []
  | raw :: keys =>
    let key := label toUpperCase raw
    if !SPAMMER_KEY_LABELS.contains key || seen.contains key then collectKeys seen keys
    else key :: collectKeys (key :: seen) keys

def normalizeKeys (keys : List String) : List String :=
  (collectKeys toUpperCase [] keys).mergeSort fun a b => keyOrder a ≤ keyOrder b

def clampGearDelay : Option Millis → Millis
  | none => ⟨50, by decide⟩
  | some value => ⟨min 300 (max 10 value.ms), (Nat.min_le_left _ _).trans (by decide)⟩

def normalizeRule (rule : RuleDocument) : Option GearSwitchRule :=
  let trigger := label toUpperCase rule.trigger
  if !SPAMMER_KEY_LABELS.contains trigger then none
  else some ⟨trigger, normalizeKeys toUpperCase (rule.atkKeys.getD []),
    normalizeKeys toUpperCase (rule.defKeys.getD [])⟩

/-- The loop of `mergeGearSwitchConfig`. -/
def collectRules (allowed : Option (List String)) (seen : List String) : List RuleDocument → List GearSwitchRule
  | [] => []
  | raw :: rules =>
    match normalizeRule toUpperCase raw with
    | none => collectRules allowed seen rules
    | some rule =>
      if seen.contains rule.trigger || allowed.any fun keys => !keys.contains rule.trigger then
        collectRules allowed seen rules
      else rule :: collectRules allowed (rule.trigger :: seen) rules

def mergeGearSwitchConfig (config : Option GearSwitchDocument) (allowedTriggers : Option (List String)) :
    GearSwitchConfig :=
  let allowed := allowedTriggers.map (normalizeKeys toUpperCase)
  let triggerKeys := (config.bind (·.triggerKeys)).getD []
  let atkKeys := (config.bind (·.atkKeys)).getD []
  let defKeys := (config.bind (·.defKeys)).getD []
  let rules := (config.bind (·.rules)).getD []
  let legacyConfigured := !triggerKeys.isEmpty || !atkKeys.isEmpty || !defKeys.isEmpty
  let legacyTriggers := if !triggerKeys.isEmpty then triggerKeys else allowedTriggers.getD []
  let rawRules :=
    if !rules.isEmpty || !legacyConfigured then rules
    else legacyTriggers.map fun trigger => ⟨trigger, some atkKeys, some defKeys⟩
  { enabled := (config.bind (·.enabled)).getD false
    switchDelayMs := clampGearDelay (config.bind (·.switchDelayMs))
    rules := collectRules toUpperCase allowed [] rawRules }

def mergeShiftModeConfig (config : Option ShiftModeDocument) (allowedTriggers : Option (List String)) :
    ShiftModeConfig :=
  let allowed := allowedTriggers.map (normalizeKeys toUpperCase)
  { enabled := (config.bind (·.enabled)).getD false
    triggerKeys := (normalizeKeys toUpperCase ((config.bind (·.triggerKeys)).getD [])).filter fun key =>
      allowed.all (·.contains key) }

def defaultKeys : List String := ["F1"]

def mergeSpammerConfig (config : SpammerDocument) : SpammerConfig :=
  let given := config.keys.getD []
  let keys := normalizeKeys toUpperCase (if !given.isEmpty then given else defaultKeys)
  { enabled := false
    delayMs := config.delayMs.getD ⟨16, by decide⟩
    keys
    shiftMode := mergeShiftModeConfig toUpperCase config.shiftMode (some keys)
    gearSwitch := mergeGearSwitchConfig toUpperCase config.gearSwitch (some keys) }

end

end Frontend

/-! ## Keys in order -/

/-- The labels among the keys, each once, in their order. -/
def inOrder (keys : List String) : List String := SPAMMER_KEY_LABELS.filter (keys.contains ·)

section Order

variable {keys : List String} {key : String}

@[simp] theorem mem_inOrder : key ∈ inOrder keys ↔ key ∈ SPAMMER_KEY_LABELS ∧ key ∈ keys := by
  simp [inOrder]

theorem inOrder_congr {others : List String} (same : ∀ key ∈ SPAMMER_KEY_LABELS, key ∈ keys ↔ key ∈ others) :
    inOrder keys = inOrder others := by
  refine List.filter_congr fun key mem => ?_
  simp [same key mem]

@[simp] theorem inOrder_inOrder (keys : List String) : inOrder (inOrder keys) = inOrder keys :=
  inOrder_congr fun key mem => by simp [mem]

theorem order_strict (default : Nat) : SPAMMER_KEY_LABELS.Pairwise fun a b =>
    (SPAMMER_KEY_LABELS.idxOf? a).getD default < (SPAMMER_KEY_LABELS.idxOf? b).getD default := by
  have at_ : ∀ i (h : i < SPAMMER_KEY_LABELS.length),
      SPAMMER_KEY_LABELS.idxOf? (SPAMMER_KEY_LABELS.get ⟨i, h⟩) = some i := by decide +kernel
  rw [List.pairwise_iff_getElem]
  intro i j hi hj lt
  have first := at_ i hi
  have second := at_ j hj
  rw [List.get_eq_getElem] at first second
  rw [first, second]
  exact lt

end Order

/-! ## What normalizing comes to -/

/-- A reading of key texts, which leaves labels as they are. -/
def Fixes (label : String → String) : Prop := ∀ key ∈ SPAMMER_KEY_LABELS, label key = key

/-- A rule with its keys in order, when its trigger is a label. -/
def cleanRule (label : String → String) (rule : GearSwitchRule) : Option GearSwitchRule :=
  if label rule.trigger ∈ SPAMMER_KEY_LABELS then
    some ⟨label rule.trigger, inOrder (rule.atkKeys.map label), inOrder (rule.defKeys.map label)⟩
  else none

/-- A rule with the fields that are missing. -/
def filled (rule : RuleDocument) : GearSwitchRule := ⟨rule.trigger, rule.atkKeys.getD [], rule.defKeys.getD []⟩

/-- The first rule of each of the keys. -/
def cleanRules (label : String → String) (keys : List String) (rules : List GearSwitchRule) :
    List GearSwitchRule :=
  firsts (·.trigger) [] ((rules.filterMap (cleanRule label)).filter (keys.contains ·.trigger))

/-- A configuration whose keys are read so. -/
def cleanConfig (label : String → String) (config : SpammerConfig) : SpammerConfig :=
  { config with
    keys := inOrder (config.keys.map label)
    shiftMode := { config.shiftMode with
      triggerKeys := (inOrder (config.shiftMode.triggerKeys.map label)).filter
        ((inOrder (config.keys.map label)).contains ·) }
    gearSwitch := {
      enabled := config.gearSwitch.enabled
      switchDelayMs := config.gearSwitch.switchDelayMs.clamp 10 300 (by decide)
      rules := cleanRules label (inOrder (config.keys.map label)) config.gearSwitch.rules } }

namespace Backend

theorem isWhitespace_visible {c : Char} (low : 33 ≤ c.toNat) (high : c.toNat ≤ 126) :
    isWhitespace c = false := by
  rw [Bool.eq_false_iff]
  intro blank
  simp [isWhitespace] at blank
  omega

theorem isWhitespace_toUpper (c : Char) : isWhitespace c.toUpper = isWhitespace c := by
  by_cases range : 97 ≤ c.toNat ∧ c.toNat ≤ 122
  · have upper := Text.toNat_toUpper c
    rw [if_pos range] at upper
    rw [isWhitespace_visible (by omega) (by omega), isWhitespace_visible (by omega) (by omega)]
  · have same := Text.toNat_toUpper c
    rw [if_neg range] at same
    rw [isWhitespace, isWhitespace, same]

theorem label_label (raw : String) : label (label raw) = label raw := by
  rw [label, label, String.toList_ofList, Text.trimBy_map isWhitespace_toUpper, Text.trimBy_idem, List.map_map]
  exact congrArg String.ofList (List.map_congr_left fun c _ => Text.toUpper_idem c)

theorem label_fixes : Fixes label := by
  intro key mem
  have all : (SPAMMER_KEY_LABELS.all fun key => label key = key) = true := by decide +kernel
  simpa using List.all_eq_true.mp all key mem

theorem normalizeSpammerKeys_eq (keys : List String) :
    normalizeSpammerKeys keys = inOrder (keys.map label) := by
  refine canonical_eq ((order_strict 255).filter _) fun key => ?_
  have valid : key ∈ keys.map label → label key = key := by
    intro mem
    obtain ⟨raw, _, rfl⟩ := List.mem_map.mp mem
    exact label_label raw
  rw [mem_inOrder, List.mem_filter, isValidSpammerKey, List.contains_iff_mem]
  constructor
  · rintro ⟨mem, here⟩
    exact ⟨valid mem ▸ here, mem⟩
  · rintro ⟨here, mem⟩
    exact ⟨mem, (valid mem).symm ▸ here⟩

theorem clamped_eq (rule : GearSwitchRule) : GearSwitchRule.clamped rule = cleanRule label rule := by
  rw [GearSwitchRule.clamped, cleanRule, normalizeSpammerKeys_eq, normalizeSpammerKeys_eq, isValidSpammerKey,
    label_label]
  by_cases here : label rule.trigger ∈ SPAMMER_KEY_LABELS
  · simp [here]
  · simp [here]

/-- The configuration that the backend works with. -/
theorem normalized_eq (config : SpammerConfig) :
    SpammerConfig.normalized config = cleanConfig label config := by
  have clean : GearSwitchRule.clamped = cleanRule label := funext clamped_eq
  have dropped := Lists.filter_firsts GearSwitchRule.trigger
    (inOrder (config.keys.map label)).contains [] (config.gearSwitch.rules.filterMap (cleanRule label))
  rw [SpammerConfig.normalized, ShiftModeConfig.normalized, GearSwitchConfig.clamped]
  simp only [normalizeSpammerKeys_eq, clean, cleanConfig, cleanRules, dropped]

end Backend

namespace Frontend

variable {toUpperCase : List Char → List Char}

theorem collectKeys_eq (seen keys : List String) : collectKeys toUpperCase seen keys =
    firsts id seen ((keys.map (label toUpperCase)).filter SPAMMER_KEY_LABELS.contains) := by
  induction keys generalizing seen with
  | nil => rfl
  | cons raw keys ih =>
    rw [collectKeys, List.map_cons]
    by_cases here : label toUpperCase raw ∈ SPAMMER_KEY_LABELS
    · rw [List.filter_cons_of_pos (by simpa using here), firsts]
      by_cases old : label toUpperCase raw ∈ seen
      · simp [here, old, ih]
      · simp [here, old, ih]
    · rw [List.filter_cons_of_neg (by simpa using here)]
      simp [here, ih]

theorem normalizeKeys_eq (keys : List String) :
    normalizeKeys toUpperCase keys = inOrder (keys.map (label toUpperCase)) := by
  rw [normalizeKeys, collectKeys_eq]
  refine Lists.mergeSort_eq keyOrder ?_ ((order_strict 99).filter _) fun key => ?_
  · have nodup := Lists.nodup_firsts id [] ((keys.map (label toUpperCase)).filter SPAMMER_KEY_LABELS.contains)
    rwa [List.map_id] at nodup
  · have kept := @Lists.mem_map_firsts _ _ _ [] id
      ((keys.map (label toUpperCase)).filter SPAMMER_KEY_LABELS.contains) key List.not_mem_nil
    rw [List.map_id, List.map_id] at kept
    rw [kept, mem_inOrder, List.mem_filter, List.contains_iff_mem, and_comm]

theorem normalizeRule_eq (rule : RuleDocument) : normalizeRule toUpperCase rule =
    cleanRule (label toUpperCase) (filled rule) := by
  rw [normalizeRule, cleanRule, filled, normalizeKeys_eq, normalizeKeys_eq]
  by_cases here : label toUpperCase rule.trigger ∈ SPAMMER_KEY_LABELS
  · simp [here]
  · simp [here]

theorem collectRules_eq (keys seen : List String) (rules : List RuleDocument) :
    collectRules toUpperCase (some keys) seen rules = firsts (·.trigger) seen
      (((rules.map filled).filterMap (cleanRule (label toUpperCase))).filter (keys.contains ·.trigger)) := by
  induction rules generalizing seen with
  | nil => rfl
  | cons raw rules ih =>
    rw [collectRules, List.map_cons, List.filterMap_cons, normalizeRule_eq]
    cases cleanRule (label toUpperCase) (filled raw) with
    | none => exact ih seen
    | some rule =>
      by_cases here : rule.trigger ∈ keys
      · rw [List.filter_cons_of_pos (by simpa using here), firsts]
        by_cases old : rule.trigger ∈ seen
        · simp [here, old, ih]
        · simp [here, old, ih]
      · rw [List.filter_cons_of_neg (by simpa using here)]
        simp [here, ih]

/-- What the panel makes of the rules, those of the schema before included. -/
theorem mergeGearSwitchConfig_eq (config : Option GearSwitchDocument) (keys : List String) :
    mergeGearSwitchConfig toUpperCase config (some keys) = {
      enabled := (config.bind (·.enabled)).getD false
      switchDelayMs := clampGearDelay (config.bind (·.switchDelayMs))
      rules := cleanRules (label toUpperCase) (inOrder (keys.map (label toUpperCase)))
        (Backend.intoConfig (config.getD Backend.emptyGearSwitch) keys).rules } := by
  have bind : ∀ {γ : Type} (f : GearSwitchDocument → Option γ), f Backend.emptyGearSwitch = none →
      config.bind f = f (config.getD Backend.emptyGearSwitch) := by
    intro γ f empty
    cases config with
    | none => exact empty.symm
    | some gear => rfl
  rw [mergeGearSwitchConfig, bind _ rfl, bind _ rfl, bind _ rfl, bind _ rfl, bind _ rfl, bind _ rfl]
  generalize config.getD Backend.emptyGearSwitch = gear
  simp only [Option.map_some, normalizeKeys_eq, collectRules_eq, cleanRules]
  have raw : (if !(gear.rules.getD []).isEmpty || !(!(gear.triggerKeys.getD []).isEmpty ||
        !(gear.atkKeys.getD []).isEmpty || !(gear.defKeys.getD []).isEmpty) then gear.rules.getD []
      else (if !(gear.triggerKeys.getD []).isEmpty then gear.triggerKeys.getD [] else (some keys).getD []).map
        fun trigger => ⟨trigger, some (gear.atkKeys.getD []), some (gear.defKeys.getD [])⟩).map filled =
      (Backend.intoConfig gear keys).rules := by
    simp only [Backend.intoConfig, List.isEmpty_map]
    generalize (!(gear.triggerKeys.getD []).isEmpty || !(gear.atkKeys.getD []).isEmpty ||
      !(gear.defKeys.getD []).isEmpty) = legacy
    cases none : (gear.rules.getD []).isEmpty with
    | false => rfl
    | true =>
      cases legacy with
      | false => rfl
      | true =>
        cases (gear.triggerKeys.getD []).isEmpty with
        | false => simp [filled]
        | true => simp [filled]
  rw [raw]

/-- The keys that the panel reads: none are the default ones. -/
def given (config : SpammerDocument) : List String :=
  if !(config.keys.getD []).isEmpty then config.keys.getD [] else defaultKeys

/-- The keys that it shows. -/
def shownKeys (toUpperCase : List Char → List Char) (config : SpammerDocument) : List String :=
  inOrder ((given config).map (label toUpperCase))

theorem map_inOrder {label : String → String} (fixes : Fixes label) (keys : List String) :
    (inOrder keys).map label = inOrder keys :=
  (List.map_congr_left fun key mem => fixes key (mem_inOrder.mp mem).1).trans (List.map_id _)

/-- The configuration that the panel works with. -/
theorem mergeSpammerConfig_eq (fixes : Fixes (label toUpperCase)) (config : SpammerDocument) :
    mergeSpammerConfig toUpperCase config = { cleanConfig (label toUpperCase) { Backend.deserialize config with
      keys := shownKeys toUpperCase config
      gearSwitch := Backend.intoConfig (config.gearSwitch.getD Backend.emptyGearSwitch)
        (shownKeys toUpperCase config) } with enabled := false } := by
  have same : inOrder ((shownKeys toUpperCase config).map (label toUpperCase)) = shownKeys toUpperCase config := by
    rw [shownKeys, map_inOrder fixes, inOrder_inOrder]
  have keys : normalizeKeys toUpperCase (if !(config.keys.getD []).isEmpty then config.keys.getD []
      else defaultKeys) = shownKeys toUpperCase config := normalizeKeys_eq _
  have delay : ∀ ms : Option Millis, clampGearDelay ms =
      (ms.getD Backend.defaultSwitchDelayMs).clamp 10 300 (by decide) := by
    intro ms
    cases ms with
    | none => rfl
    | some ms =>
      apply Millis.ext
      change min 300 (max 10 ms.ms) = max 10 (min ms.ms 300)
      omega
  simp only [mergeSpammerConfig, keys, mergeShiftModeConfig, mergeGearSwitchConfig_eq, normalizeKeys_eq, delay,
    cleanConfig, same, Option.map_some, Option.all_some]
  obtain ⟨enabled, delayMs, keys, shiftMode, gearSwitch⟩ := config
  cases shiftMode with
  | none =>
    cases gearSwitch with
    | none => rfl
    | some gear => rfl
  | some shift =>
    cases gearSwitch with
    | none => rfl
    | some gear => rfl

end Frontend

/-! ## Canonical configurations -/

/-- Keys in order, and shift mode and rules for these keys only. -/
structure Canonical (config : SpammerConfig) : Prop where
  keys : inOrder config.keys = config.keys
  triggers : inOrder config.shiftMode.triggerKeys = config.shiftMode.triggerKeys
  shifted : ∀ key ∈ config.shiftMode.triggerKeys, key ∈ config.keys
  ruled : ∀ rule ∈ config.gearSwitch.rules, rule.trigger ∈ config.keys
  ordered : ∀ rule ∈ config.gearSwitch.rules,
    inOrder rule.atkKeys = rule.atkKeys ∧ inOrder rule.defKeys = rule.defKeys
  one : (config.gearSwitch.rules.map (·.trigger)).Nodup
  delay : 10 ≤ config.gearSwitch.switchDelayMs.ms ∧ config.gearSwitch.switchDelayMs.ms ≤ 300

section Canonical

variable {label : String → String} {config : SpammerConfig}

/-- Labels that a filter leaves are in order. -/
theorem inOrder_filter (p : String → Bool) : inOrder (SPAMMER_KEY_LABELS.filter p) = SPAMMER_KEY_LABELS.filter p := by
  refine List.filter_congr fun key mem => ?_
  rw [Bool.eq_iff_iff, List.contains_iff_mem, List.mem_filter, and_iff_right mem]

theorem clean_canonical (label : String → String) (config : SpammerConfig) :
    Canonical (cleanConfig label config) where
  keys := inOrder_inOrder _
  triggers := by
    have one : (inOrder (config.shiftMode.triggerKeys.map label)).filter
        ((inOrder (config.keys.map label)).contains ·) = SPAMMER_KEY_LABELS.filter fun key =>
          (inOrder (config.keys.map label)).contains key && (config.shiftMode.triggerKeys.map label).contains key :=
      List.filter_filter ..
    change inOrder (List.filter _ (inOrder _)) = List.filter _ (inOrder _)
    rw [one, inOrder_filter]
  shifted := fun key mem => List.contains_iff_mem.mp (List.mem_filter.mp mem).2
  ruled := by
    intro rule mem
    have kept := (Lists.firsts_sublist [] _).subset mem
    exact List.contains_iff_mem.mp (List.mem_filter.mp kept).2
  ordered := by
    intro rule mem
    have kept := (List.mem_filter.mp ((Lists.firsts_sublist [] _).subset mem)).1
    obtain ⟨raw, _, clean⟩ := List.mem_filterMap.mp kept
    rw [cleanRule] at clean
    split at clean
    next =>
      cases clean
      exact ⟨inOrder_inOrder _, inOrder_inOrder _⟩
    next => cases clean
  one := Lists.nodup_firsts _ [] _
  delay := by
    change 10 ≤ max 10 (min config.gearSwitch.switchDelayMs.ms 300) ∧
      max 10 (min config.gearSwitch.switchDelayMs.ms 300) ≤ 300
    omega

theorem map_fixed (fixes : Fixes label) {keys : List String} (ordered : inOrder keys = keys) :
    inOrder (keys.map label) = keys := by
  have same : keys.map label = keys := by
    rw [← ordered]
    exact Frontend.map_inOrder fixes keys
  rw [same, ordered]

/-- Cleaning leaves a canonical configuration as it is. -/
theorem Canonical.clean (canonical : Canonical config) (fixes : Fixes label) :
    cleanConfig label config = config := by
  obtain ⟨keys, triggers, shifted, ruled, ordered, one, low, high⟩ := canonical
  have shift : (config.shiftMode.triggerKeys.filter (config.keys.contains ·)) = config.shiftMode.triggerKeys :=
    List.filter_eq_self.mpr fun key mem => List.contains_iff_mem.mpr (shifted key mem)
  have label_ : ∀ key ∈ config.keys, key ∈ SPAMMER_KEY_LABELS := fun key mem =>
    (mem_inOrder.mp (keys.symm ▸ mem)).1
  have clean : config.gearSwitch.rules.filterMap (cleanRule label) = config.gearSwitch.rules := by
    refine (List.filterMap_congr fun rule mem => ?_).trans List.filterMap_some
    have mine := label_ rule.trigger (ruled rule mem)
    rw [cleanRule, fixes rule.trigger mine, if_pos mine, map_fixed fixes (ordered rule mem).1,
      map_fixed fixes (ordered rule mem).2]
  have rules : cleanRules label config.keys config.gearSwitch.rules = config.gearSwitch.rules := by
    rw [cleanRules, clean, List.filter_eq_self.mpr fun rule mem => List.contains_iff_mem.mpr (ruled rule mem)]
    exact Lists.firsts_eq_self one fun rule _ => List.not_mem_nil
  have delay : config.gearSwitch.switchDelayMs.clamp 10 300 (by decide) =
      config.gearSwitch.switchDelayMs := by
    apply Millis.ext
    change max 10 (min config.gearSwitch.switchDelayMs.ms 300) = config.gearSwitch.switchDelayMs.ms
    omega
  rw [cleanConfig, map_fixed fixes keys, map_fixed fixes triggers, shift, rules, delay]

end Canonical

/-! ## What is stored stays -/

/-- What is written has no field of the schema before, so the keys it would be read with do not matter. -/
theorem intoConfig_serialize (config : SpammerConfig) (keys : List String) :
    Backend.intoConfig ((serialize config).gearSwitch.getD Backend.emptyGearSwitch) keys = config.gearSwitch := by
  simp [serialize, Backend.intoConfig, Function.comp_def]

theorem deserialize_serialize (config : SpammerConfig) : Backend.deserialize (serialize config) = config := by
  rw [Backend.deserialize, intoConfig_serialize]
  rfl

/-- `toUpperCase` of the panel's language on ASCII text. -/
def UpperAscii (toUpperCase : List Char → List Char) : Prop :=
  ∀ text, (∀ c ∈ text, c.toNat < 128) → toUpperCase text = text.map Char.toUpper

section Stored

variable {toUpperCase : List Char → List Char}

/-- Both sides read an ASCII key alike. -/
theorem label_ascii (upper : UpperAscii toUpperCase) {raw : String}
    (ascii : ∀ c ∈ raw.toList, c.toNat < 128) :
    Frontend.label toUpperCase raw = Backend.label raw := by
  have blank : ∀ c ∈ raw.toList, Frontend.isSpace c = isWhitespace c := by
    intro c mem
    have low := ascii c mem
    rw [Bool.eq_iff_iff]
    simp [Frontend.isSpace, isWhitespace]
    omega
  rw [Frontend.label, Backend.label, Text.trimBy_congr blank, upper]
  intro c mem
  rw [trimBy, List.mem_reverse] at mem
  have back := (List.dropWhile_sublist _).subset mem
  exact ascii c ((List.dropWhile_sublist _).subset (List.mem_reverse.mp back))

theorem label_fixes (upper : UpperAscii toUpperCase) : Fixes (Frontend.label toUpperCase) := by
  intro key mem
  have all : (SPAMMER_KEY_LABELS.all fun key => key.toList.all fun c => decide (c.toNat < 128)) = true := by
    decide +kernel
  have ascii := List.all_eq_true.mp (List.all_eq_true.mp all key mem)
  rw [label_ascii upper fun c here => of_decide_eq_true (ascii c here)]
  exact Backend.label_fixes key mem

theorem merge_canonical (upper : UpperAscii toUpperCase) (document : SpammerDocument) :
    Canonical (Frontend.mergeSpammerConfig toUpperCase document) := by
  rw [Frontend.mergeSpammerConfig_eq (label_fixes upper)]
  obtain ⟨keys, triggers, shifted, ruled, ordered, one, delay⟩ := clean_canonical (Frontend.label toUpperCase) _
  exact ⟨keys, triggers, shifted, ruled, ordered, one, delay⟩

/-- What the panel makes of a configuration that is written. -/
theorem merge_serialize (upper : UpperAscii toUpperCase) (config : SpammerConfig) :
    Frontend.mergeSpammerConfig toUpperCase (serialize config) =
      { cleanConfig (Frontend.label toUpperCase) { config with
        keys := Frontend.shownKeys toUpperCase (serialize config) } with enabled := false } := by
  rw [Frontend.mergeSpammerConfig_eq (label_fixes upper), deserialize_serialize, intoConfig_serialize]

/-- Where there are no keys, the panel falls back to its default one. -/
theorem merge_without_keys (upper : UpperAscii toUpperCase) {config : SpammerConfig}
    (none : config.keys = []) :
    (Frontend.mergeSpammerConfig toUpperCase (serialize config)).keys = Frontend.defaultKeys := by
  have fixes := label_fixes upper
  have one : Frontend.defaultKeys.map (Frontend.label toUpperCase) = ["F1"] :=
    congrArg (fun key => [key]) (fixes "F1" (by decide))
  have empty : ¬ (!((serialize config).keys.getD []).isEmpty) = true := by simp [serialize, none]
  rw [merge_serialize upper, Frontend.shownKeys, Frontend.given, if_neg empty, one]
  change inOrder ((inOrder ["F1"]).map (Frontend.label toUpperCase)) = ["F1"]
  rw [Frontend.map_inOrder fixes]
  decide

/-- The panel takes a canonical configuration over, unless it has no keys. -/
theorem Canonical.merge (upper : UpperAscii toUpperCase) {config : SpammerConfig}
    (canonical : Canonical config) :
    Frontend.mergeSpammerConfig toUpperCase (serialize config) = { config with enabled := false } ↔
      config.keys ≠ [] := by
  have fixes := label_fixes upper
  have fixed := map_fixed fixes canonical.keys
  by_cases none : config.keys = []
  · refine iff_of_false (fun same => ?_) fun some => some none
    have shown := merge_without_keys upper none
    rw [same] at shown
    cases none.symm.trans shown
  · have some : (!((serialize config).keys.getD []).isEmpty) = true := by
      simpa [serialize] using none
    rw [merge_serialize upper, Frontend.shownKeys, Frontend.given, if_pos some]
    refine iff_of_true ?_ none
    have keys : inOrder (((serialize config).keys.getD []).map (Frontend.label toUpperCase)) = config.keys := fixed
    rw [keys]
    exact congrArg (fun c : SpammerConfig => { c with enabled := false }) (canonical.clean fixes)

/-- What the panel makes of a configuration that is written: it never enables it, and where there are
no keys it falls back to its default one. -/
def Fallback (toUpperCase : List Char → List Char) (config : SpammerConfig) : Prop :=
  (Frontend.mergeSpammerConfig toUpperCase (serialize config)).enabled = false ∧
    (config.keys = [] →
      (Frontend.mergeSpammerConfig toUpperCase (serialize config)).keys = Frontend.defaultKeys)

theorem fallback (upper : UpperAscii toUpperCase) (config : SpammerConfig) :
    Fallback toUpperCase config :=
  ⟨rfl, merge_without_keys upper⟩

/-- What the backend works with and what the panel shows are canonical, and neither side changes a
configuration that it reads back or that the other has written, except that the panel clears
`enabled`; only a configuration without keys gets the panel's default. -/
theorem stored_stable (upper : UpperAscii toUpperCase) (config : SpammerConfig) (document : SpammerDocument) :
    (Canonical (Backend.SpammerConfig.normalized config) ∧
      Backend.SpammerConfig.normalized (Backend.deserialize (serialize (Backend.SpammerConfig.normalized config))) =
        Backend.SpammerConfig.normalized config ∧
      (Frontend.mergeSpammerConfig toUpperCase (serialize (Backend.SpammerConfig.normalized config)) =
          { Backend.SpammerConfig.normalized config with enabled := false } ↔
        (Backend.SpammerConfig.normalized config).keys ≠ []) ∧
      Fallback toUpperCase (Backend.SpammerConfig.normalized config)) ∧
    Canonical (Frontend.mergeSpammerConfig toUpperCase document) ∧
      Backend.SpammerConfig.normalized
          (Backend.deserialize (serialize (Frontend.mergeSpammerConfig toUpperCase document))) =
        Frontend.mergeSpammerConfig toUpperCase document ∧
      (Frontend.mergeSpammerConfig toUpperCase (serialize (Frontend.mergeSpammerConfig toUpperCase document)) =
          Frontend.mergeSpammerConfig toUpperCase document ↔
        (Frontend.mergeSpammerConfig toUpperCase document).keys ≠ []) ∧
      Fallback toUpperCase (Frontend.mergeSpammerConfig toUpperCase document) := by
  have backend : Canonical (Backend.SpammerConfig.normalized config) := by
    rw [Backend.normalized_eq]
    exact clean_canonical _ _
  have panel := merge_canonical upper document
  have off : { Frontend.mergeSpammerConfig toUpperCase document with enabled := false } =
      Frontend.mergeSpammerConfig toUpperCase document := rfl
  refine ⟨⟨backend, ?_, backend.merge upper, fallback upper _⟩, panel, ?_, ?_, fallback upper _⟩
  · rw [deserialize_serialize, Backend.normalized_eq]
    exact backend.clean Backend.label_fixes
  · rw [deserialize_serialize, Backend.normalized_eq]
    exact panel.clean Backend.label_fixes
  · have merged := panel.merge upper
    rwa [off] at merged

end Stored

/-! ## Both sides -/

/-- Every text of the document that names a key. -/
def SpammerDocument.texts (document : SpammerDocument) : List String :=
  let gear := document.gearSwitch.getD Backend.emptyGearSwitch
  document.keys.getD [] ++ (document.shiftMode.bind (·.triggerKeys)).getD [] ++
    gear.triggerKeys.getD [] ++ gear.atkKeys.getD [] ++ gear.defKeys.getD [] ++
    (gear.rules.getD []).flatMap fun rule => rule.trigger :: (rule.atkKeys.getD [] ++ rule.defKeys.getD [])

def SpammerDocument.isAscii (document : SpammerDocument) : Bool :=
  document.texts.all fun text => text.toList.all fun c => c.toNat < 128

section Sides

variable {label label' : String → String}

theorem cleanRule_congr {rule : GearSwitchRule} (trigger : label rule.trigger = label' rule.trigger)
    (atk : ∀ key ∈ rule.atkKeys, label key = label' key) (def_ : ∀ key ∈ rule.defKeys, label key = label' key) :
    cleanRule label rule = cleanRule label' rule := by
  rw [cleanRule, cleanRule, trigger, List.map_congr_left atk, List.map_congr_left def_]

theorem cleanRules_congr {keys : List String} {rules : List GearSwitchRule}
    (alike : ∀ rule ∈ rules, cleanRule label rule = cleanRule label' rule) :
    cleanRules label keys rules = cleanRules label' keys rules := by
  rw [cleanRules, cleanRules, List.filterMap_congr alike]

/-- Rules that only differ in their trigger come to one rule for each key. -/
theorem mem_cleanRules {keys atk def_ triggers : List String} {rule : GearSwitchRule} :
    rule ∈ cleanRules label keys (triggers.map fun trigger => ⟨trigger, atk, def_⟩) ↔
      rule = ⟨rule.trigger, inOrder (atk.map label), inOrder (def_.map label)⟩ ∧
        rule.trigger ∈ inOrder (triggers.map label) ∧ rule.trigger ∈ keys := by
  have before : ∀ rule, rule ∈ ((triggers.map fun trigger => (⟨trigger, atk, def_⟩ : GearSwitchRule)).filterMap
      (cleanRule label)).filter (keys.contains ·.trigger) ↔
        rule = ⟨rule.trigger, inOrder (atk.map label), inOrder (def_.map label)⟩ ∧
          rule.trigger ∈ inOrder (triggers.map label) ∧ rule.trigger ∈ keys := by
    intro rule
    rw [List.mem_filter, List.contains_iff_mem, ← and_assoc]
    refine and_congr_left fun _ => ?_
    rw [List.mem_filterMap, mem_inOrder]
    constructor
    · rintro ⟨raw, mem, clean⟩
      obtain ⟨trigger, here, rfl⟩ := List.mem_map.mp mem
      rw [cleanRule] at clean
      split at clean
      next valid =>
        cases clean
        exact ⟨rfl, valid, List.mem_map_of_mem here⟩
      next => cases clean
    · rintro ⟨same, valid, mem⟩
      obtain ⟨trigger, here, named⟩ := List.mem_map.mp mem
      refine ⟨⟨trigger, atk, def_⟩, List.mem_map.mpr ⟨trigger, here, rfl⟩, ?_⟩
      rw [cleanRule, if_pos (named.symm ▸ valid), same]
      exact congrArg (fun t => some (GearSwitchRule.mk t _ _)) named
  constructor
  · intro mem
    exact (before rule).mp ((Lists.firsts_sublist [] _).subset mem)
  · intro fits
    have key := (Lists.mem_map_firsts GearSwitchRule.trigger _ List.not_mem_nil).mpr
      (List.mem_map_of_mem ((before rule).mpr fits))
    obtain ⟨other, mem, same⟩ := List.mem_map.mp key
    have shape := ((before other).mp ((Lists.firsts_sublist [] _).subset mem)).1
    rw [same, ← fits.1] at shape
    rwa [← shape]

theorem nodup_cleanRules (label : String → String) (keys : List String) (rules : List GearSwitchRule) :
    ((cleanRules label keys rules).map (·.trigger)).Nodup := Lists.nodup_firsts _ [] _

/-- The rules of the schema before are those of the keys, or do not depend on the keys. -/
theorem intoConfig_rules (gear : GearSwitchDocument) :
    (∀ keys, (Backend.intoConfig gear keys).rules =
      keys.map fun trigger => ⟨trigger, gear.atkKeys.getD [], gear.defKeys.getD []⟩) ∨
    (∀ keys, (Backend.intoConfig gear keys).rules = (gear.triggerKeys.getD []).map fun trigger =>
      ⟨trigger, gear.atkKeys.getD [], gear.defKeys.getD []⟩) ∨
    ∀ keys, (Backend.intoConfig gear keys).rules = (gear.rules.getD []).map filled := by
  simp only [Backend.intoConfig, List.isEmpty_map]
  split
  next =>
    split
    next => exact .inl fun keys => rfl
    next => exact .inr (.inl fun keys => rfl)
  next => exact .inr (.inr fun keys => rfl)

variable {toUpperCase : List Char → List Char}

/-- What the two sides have in common. -/
structure Agree (a b : SpammerConfig) : Prop where
  keys : a.keys = b.keys
  delayMs : a.delayMs = b.delayMs
  shiftMode : a.shiftMode = b.shiftMode
  switching : a.gearSwitch.enabled = b.gearSwitch.enabled
  switchDelayMs : a.gearSwitch.switchDelayMs = b.gearSwitch.switchDelayMs
  rules : a.gearSwitch.rules.Perm b.gearSwitch.rules
  ruleFor : ∀ key, Backend.GearSwitchConfig.ruleFor a.gearSwitch key = Backend.GearSwitchConfig.ruleFor b.gearSwitch key

/-- Rules that are read alike come to the same rule for each key, whichever keys the schema before
gives them. -/
theorem cleanRules_perm {gear : GearSwitchDocument} {keys raw : List String} (fixes : Fixes label)
    (order : inOrder (raw.map label') = keys)
    (triggers : ∀ key ∈ gear.triggerKeys.getD [], label key = label' key)
    (atk : ∀ key ∈ gear.atkKeys.getD [], label key = label' key)
    (def_ : ∀ key ∈ gear.defKeys.getD [], label key = label' key)
    (rules : ∀ rule ∈ gear.rules.getD [], cleanRule label (filled rule) = cleanRule label' (filled rule)) :
    (cleanRules label keys (Backend.intoConfig gear keys).rules).Perm
      (cleanRules label' keys (Backend.intoConfig gear raw).rules) := by
  have ordered : inOrder keys = keys := by rw [← order, inOrder_inOrder]
  rcases intoConfig_rules gear with each | given | given
  · rw [each, each]
    have nodup := fun label rules => List.Nodup.of_map _ (nodup_cleanRules label keys rules)
    refine (List.perm_ext_iff_of_nodup (nodup _ _) (nodup _ _)).mpr fun rule => ?_
    rw [mem_cleanRules, mem_cleanRules, order, map_fixed fixes ordered, List.map_congr_left atk,
      List.map_congr_left def_]
  · rw [given, given]
    refine .of_eq (cleanRules_congr fun rule mem => ?_)
    obtain ⟨trigger, here, rfl⟩ := List.mem_map.mp mem
    exact cleanRule_congr (triggers trigger here) atk def_
  · rw [given, given]
    refine .of_eq (cleanRules_congr fun rule mem => ?_)
    obtain ⟨raw, here, rfl⟩ := List.mem_map.mp mem
    exact rules raw here

/-- From a document with ASCII keys, panel and backend come to the same keys, the same shift triggers, the
same rule for each key and the same delays, in the current schema and in the one before. -/
theorem sides_agree (upper : UpperAscii toUpperCase) (document : SpammerDocument)
    (ascii : document.isAscii = true) (some : document.keys ≠ some []) :
    Agree (Frontend.mergeSpammerConfig toUpperCase document)
      (Backend.SpammerConfig.normalized (Backend.deserialize document)) := by
  have fixes := label_fixes upper
  have alike : ∀ text ∈ document.texts, Frontend.label toUpperCase text = Backend.label text :=
    fun text mem => label_ascii upper fun c here =>
      of_decide_eq_true (List.all_eq_true.mp (List.all_eq_true.mp ascii text mem) c here)
  simp only [SpammerDocument.texts, List.mem_append, List.mem_flatMap] at alike
  have given : Frontend.given document = (Backend.deserialize document).keys := by
    rw [Frontend.given]
    change _ = document.keys.getD Backend.defaultSpammerKeys
    cases here : document.keys with
    | none => rfl
    | some keys =>
      cases keys with
      | nil => exact absurd here some
      | cons key keys => rfl
  have keys : ∀ key ∈ (Backend.deserialize document).keys, Frontend.label toUpperCase key = Backend.label key := by
    intro key mem
    cases here : document.keys with
    | none =>
      have default : key = "F1" := by
        rw [Backend.deserialize, here] at mem
        exact List.mem_singleton.mp mem
      rw [default, fixes "F1" (by decide), Backend.label_fixes "F1" (by decide)]
    | some given =>
      rw [Backend.deserialize, here] at mem
      exact alike key (.inl (.inl (.inl (.inl (.inl (by rw [here]; exact mem))))))
  have shown : Frontend.shownKeys toUpperCase document =
      inOrder ((Backend.deserialize document).keys.map Backend.label) := by
    rw [Frontend.shownKeys, given, List.map_congr_left keys]
  have again : inOrder ((Frontend.shownKeys toUpperCase document).map (Frontend.label toUpperCase)) =
      Frontend.shownKeys toUpperCase document := by
    rw [Frontend.shownKeys, Frontend.map_inOrder fixes, inOrder_inOrder]
  have triggers : ∀ key ∈ (Backend.deserialize document).shiftMode.triggerKeys,
      Frontend.label toUpperCase key = Backend.label key := by
    intro key mem
    refine alike key (.inl (.inl (.inl (.inl (.inr ?_)))))
    cases here : document.shiftMode with
    | none =>
      rw [Backend.deserialize, here] at mem
      cases mem
    | some shift =>
      rw [Backend.deserialize, here] at mem
      exact mem
  have rules : (cleanRules (Frontend.label toUpperCase) (Frontend.shownKeys toUpperCase document)
      (Backend.intoConfig (document.gearSwitch.getD Backend.emptyGearSwitch)
        (Frontend.shownKeys toUpperCase document)).rules).Perm
      (cleanRules Backend.label (Frontend.shownKeys toUpperCase document)
        (Backend.intoConfig (document.gearSwitch.getD Backend.emptyGearSwitch)
          (Backend.deserialize document).keys).rules) := by
    refine cleanRules_perm fixes shown.symm (fun key mem => alike key (.inl (.inl (.inl (.inr mem)))))
      (fun key mem => alike key (.inl (.inl (.inr mem)))) (fun key mem => alike key (.inl (.inr mem))) ?_
    intro rule mem
    refine cleanRule_congr (alike _ (.inr ⟨rule, mem, List.mem_cons_self⟩)) (fun key here => ?_) fun key here => ?_
    · exact alike key (.inr ⟨rule, mem, List.mem_cons_of_mem _ (List.mem_append_left _ here)⟩)
    · exact alike key (.inr ⟨rule, mem, List.mem_cons_of_mem _ (List.mem_append_right _ here)⟩)
  have perm : (cleanRules (Frontend.label toUpperCase)
      (inOrder ((Frontend.shownKeys toUpperCase document).map (Frontend.label toUpperCase)))
      (Backend.intoConfig (document.gearSwitch.getD Backend.emptyGearSwitch)
        (Frontend.shownKeys toUpperCase document)).rules).Perm
      (cleanRules Backend.label (inOrder ((Backend.deserialize document).keys.map Backend.label))
        (Backend.deserialize document).gearSwitch.rules) := by
    rw [again, ← shown]
    exact rules
  rw [Frontend.mergeSpammerConfig_eq fixes, Backend.normalized_eq]
  refine
    { keys := again.trans shown, delayMs := rfl, shiftMode := ?_, switching := rfl, switchDelayMs := rfl, rules := perm,
      ruleFor := Lists.find_perm (nodup_cleanRules _ _ _) perm }
  rw [shown] at again
  simp only [cleanConfig, shown, again, List.map_congr_left triggers]

end Sides

/-! ## A configuration of the schema before -/

section Sample

/-- `toUpperCase`, as far as the texts below need it. -/
def asciiUpper (text : List Char) : List Char := text.map Char.toUpper

def legacyDocument : SpammerDocument where
  enabled := some true
  delayMs := none
  keys := some ["q", " f2", "F2", "SPACE"]
  shiftMode := some ⟨some true, some ["Q", "W"]⟩
  gearSwitch := some ⟨some true, some ⟨5, by decide⟩, none, none, some ["9"], some ["e", "8"]⟩

theorem stored_stable_legacy :
    Canonical (Frontend.mergeSpammerConfig asciiUpper legacyDocument) ∧
      Backend.SpammerConfig.normalized (Backend.deserialize
        (serialize (Frontend.mergeSpammerConfig asciiUpper legacyDocument))) =
          Frontend.mergeSpammerConfig asciiUpper legacyDocument :=
  have stable := @stored_stable asciiUpper (fun _ _ => rfl)
    (Backend.deserialize legacyDocument) legacyDocument
  ⟨stable.2.1, stable.2.2.1⟩

theorem sides_agree_legacy : Agree (Frontend.mergeSpammerConfig asciiUpper legacyDocument)
    (Backend.SpammerConfig.normalized (Backend.deserialize legacyDocument)) :=
  sides_agree (fun _ _ => rfl) legacyDocument (by decide +kernel) (by decide)

end Sample

end RoLauncher.Spammer
